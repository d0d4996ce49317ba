import StructuralTyping.Checker.Run
import StructuralTyping.Tree.Decode

/-! Checking several files, each on its own and with the same options. The results
keep the order in which the files were added. -/
namespace StructuralTyping

/-- What checking one file has come to. -/
structure FileResult where
  file : String
  outcome : Except CheckError (List Diagnostic)

structure Compilation where
  options : CheckerOptions
  files : List SourceFile

namespace Compilation

def new (options : CheckerOptions) : Compilation := ⟨options, []⟩

def addFile (c : Compilation) (file : SourceFile) : Compilation :=
  { c with files := c.files ++ [file] }

/-- A file without a name takes the one it was loaded under. -/
def nameFile (name : String) (file : SourceFile) : SourceFile :=
  if file.name.isEmpty then { file with name := name } else file

/-- Add a file from its text, if that is the text of a file. -/
def addText? (c : Compilation) (name text : String) : Option Compilation :=
  (SourceFile.parse? text).map fun file => c.addFile (nameFile name file)

def check (c : Compilation) : List FileResult :=
  c.files.map fun file => ⟨file.name, StructuralTyping.check file c.options⟩

/-- The diagnostics of all files, or the first file whose check was aborted. -/
def gather : List FileResult → Except (String × CheckError) (List Diagnostic)
  | [] => .ok []
  | result :: rest =>
      match result.outcome with
      | .error e => .error (result.file, e)
      | .ok found => (gather rest).map fun others => found ++ others

def compile (c : Compilation) : Except (String × CheckError) DiagnosticCollection :=
  (gather c.check).map fun found => DiagnosticCollection.empty.append found

/-- The message of an aborted check, with the file it concerns. -/
def abortMessage (file : String) (e : CheckError) : String := file ++ ": " ++ e.message

end Compilation

end StructuralTyping
