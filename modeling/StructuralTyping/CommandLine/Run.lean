import StructuralTyping.CommandLine.Arguments
import StructuralTyping.CommandLine.FileTree
import StructuralTyping.Compilation
import StructuralTyping.Diagnostic.Encode
import StructuralTyping.Json.Printer
import StructuralTyping.ProjectConfig

/-! The command: it reads a config file and the files to check, checks them and
reports. Options on the command line win over those of the config file. How files
are read is left open. -/
namespace StructuralTyping.CommandLine

/-- Why nothing was reported. -/
inductive Failure where
  | configUnreadable (path : String) (cause : ReadError)
  | configMalformed (path : String)
  | noFiles
  | fileUnreadable (path : String) (cause : ReadError)
  | fileMalformed (path : String)
  | aborted (file : String) (cause : CheckError)
deriving DecidableEq, Repr

namespace Failure

def message : Failure → String
  | configUnreadable path cause =>
      "cannot read config file '" ++ path ++ "': " ++ cause.message
  | configMalformed path => "invalid config file '" ++ path ++ "'"
  | noFiles => "No input files found."
  | fileUnreadable path cause =>
      "Failed to load source files: cannot read '" ++ path ++ "': " ++ cause.message
  | fileMalformed path =>
      "Failed to load source files: '" ++ path ++ "' is not a valid AST file"
  | aborted file cause => Compilation.abortMessage file cause

/-- An aborted check has a status of its own. -/
def status : Failure → UInt8
  | aborted _ _ => 3
  | _ => 1

/-- The line on the error stream. -/
def text (f : Failure) : String := "error: " ++ f.message

end Failure

/-- What the command leaves behind. -/
inductive Outcome where
  | finished (status : UInt8) (output errors : String)
  | failed (failure : Failure)
  | invalidArguments
deriving DecidableEq, Repr

/-- The config file that is used if there is one and no other is named. -/
def defaultConfig : String := "tyshape.json"

section Steps
variable {m : Type → Type} [Monad m]

/-- The config file, if there is one. Only the default one may be missing. -/
def loadConfig (readFile : String → m (Except ReadError String)) (named : Option String) :
    m (Except Failure (Option ProjectConfig)) := do
  let path := named.getD defaultConfig
  match ← readFile path with
  | .ok text =>
      match ProjectConfig.parseFile? path text with
      | some config => return .ok (some config)
      | none => return .error (.configMalformed path)
  | .error cause =>
      if named.isNone ∧ cause = .notFound then return .ok none
      else return .error (.configUnreadable path cause)

/-- Add the files in order, up to the first that cannot be added. -/
def loadFiles (readFile : String → m (Except ReadError String)) (c : Compilation) :
    List String → m (Except Failure Compilation)
  | [] => return .ok c
  | path :: rest => do
      match ← readFile path with
      | .error cause => return .error (.fileUnreadable path cause)
      | .ok text =>
          match c.addText? path text with
          | some c => loadFiles readFile c rest
          | none => return .error (.fileMalformed path)

end Steps

def plural (count : Nat) : String := if count = 1 then "" else "s"

def summary (c : DiagnosticCollection) : String :=
  "Found " ++ toString c.errorCount ++ " error" ++ plural c.errorCount ++ " and " ++
    toString c.warningCount ++ " warning" ++ plural c.warningCount ++ "."

def diagnosticLines (d : Diagnostic) : List String :=
  d.text :: d.related.map fun cause => "  " ++ cause.message

/-- The report for readers: every diagnostic with its causes, and a summary behind
an empty line. Nothing is written where there is nothing to say. -/
def report (c : DiagnosticCollection) : String :=
  let lines :=
    c.toList.flatMap diagnosticLines ++ if c.isEmpty then [] else ["", summary c]
  String.join (lines.map fun line => line ++ "\n")

/-- The report for programs. -/
def structuredReport (c : DiagnosticCollection) (pretty : Bool) : String :=
  let value := Json.array (Diagnostic.encodeList c.toList)
  (if pretty then value.indented else value.compact) ++ "\n"

def mergeOptions (a : Arguments) (config : Option ProjectConfig) : CheckerOptions :=
  let base := (config.bind fun c => c.checkerOptions).getD .default
  { strictFunctionTypes := a.strictFunctionTypes || base.strictFunctionTypes
    unresolvedTypeParameters :=
      a.unresolvedTypeParameters.getD base.unresolvedTypeParameters }

/-- Files named on the command line replace those of the config file. -/
def chooseFiles (a : Arguments) (config : Option ProjectConfig) : List String :=
  if a.files.isEmpty then (config.bind fun c => c.files).getD [] else a.files

/-- Errors have a status of their own; warnings have none. -/
def present (a : Arguments) (c : DiagnosticCollection) : Outcome :=
  let status : UInt8 := if c.hasErrors then 2 else 0
  if a.json then .finished status (structuredReport c a.pretty) ""
  else .finished status "" (report c)

def helpText : String :=
  "tyshape - a structural type checker\n\nUsage: tysh [OPTIONS] [FILE]...\n\n" ++
  "Arguments:\n  [FILE]...  AST files to check\n\nOptions:\n" ++
  "  -c, --config <CONFIG>\n          Path to tyshape.json\n" ++
  "      --strict-function-types\n          Compare function parameters contravariantly\n" ++
  "      --unresolved-type-parameters <LEVEL>\n" ++
  "          Report type parameters that could not be inferred (off, warning, error)\n" ++
  "      --json\n          Print diagnostics as JSON on stdout\n" ++
  "      --pretty\n          Indent JSON output\n" ++
  "  -h, --help\n          Print help\n" ++
  "  -V, --version\n          Print version\n"

def versionText : String := "tysh 0.1.0\n"

section Steps
variable {m : Type → Type} [Monad m]

def runCheck (readFile : String → m (Except ReadError String)) (a : Arguments) : m Outcome := do
  match ← loadConfig readFile a.config with
  | .error failure => return .failed failure
  | .ok config => do
      let files := chooseFiles a config
      if files.isEmpty then return .failed .noFiles
      else
        match ← loadFiles readFile (.new (mergeOptions a config)) files with
        | .error failure => return .failed failure
        | .ok c =>
            match c.compile with
            | .error (file, cause) => return .failed (.aborted file cause)
            | .ok found => return present a found

/-- Run the command with the given arguments. -/
def run (readFile : String → m (Except ReadError String)) (arguments : List String) :
    m Outcome :=
  match read arguments with
  | .check a => runCheck readFile a
  | .help => return .finished 0 helpText ""
  | .version => return .finished 0 versionText ""
  | .invalid => return .invalidArguments

end Steps

end StructuralTyping.CommandLine
