import StructuralTyping.Json.Reader
import StructuralTyping.Options
import StructuralTyping.Path

/-! The file that describes a project: options for the check and the files to
check. Both may be absent. -/
namespace StructuralTyping

structure ProjectConfig where
  checkerOptions : Option CheckerOptions
  files : Option (List String)
deriving DecidableEq, Repr

namespace ProjectConfig

def decode? (j : Json) : Option ProjectConfig := do
  let r ← Record.ofJson? ["checkerOptions", "files"] j
  let checkerOptions ← r.optional? "checkerOptions" CheckerOptions.decode?
  let files ← r.optional? "files" (Json.list? Json.string?)
  return ⟨checkerOptions, files⟩

def parse? (text : String) : Option ProjectConfig := (Json.parse? text).bind decode?

/-- Entries of the file list are relative to the directory of the config file. -/
def relativeTo (config : ProjectConfig) (path : String) : ProjectConfig :=
  match Path.parent? path with
  | none => config
  | some directory =>
      { config with files := config.files.map fun entries => entries.map (Path.join directory) }

/-- The config in a text that was read from a path. -/
def parseFile? (path text : String) : Option ProjectConfig :=
  (parse? text).map fun config => config.relativeTo path

end ProjectConfig

end StructuralTyping
