import StructuralTyping.Options

/-! The arguments of the command. Options and files may be mixed; after two hyphens
everything is a file. An option is given at most once, and the first problem from
the left decides. -/
namespace StructuralTyping.CommandLine

structure Arguments where
  files : List String
  config : Option String
  strictFunctionTypes : Bool
  unresolvedTypeParameters : Option DiagnosticLevel
  json : Bool
  pretty : Bool
deriving DecidableEq, Repr

namespace Arguments

def empty : Arguments := ⟨[], none, false, none, false, false⟩

def addFile (a : Arguments) (file : String) : Arguments := { a with files := a.files ++ [file] }

end Arguments

/-- What a list of arguments asks for. -/
inductive Request where
  | check (arguments : Arguments)
  | help
  | version
  /-- The arguments are not understood. -/
  | invalid
deriving DecidableEq, Repr

/-- The options that take a value. -/
inductive ValueOption where
  | config
  | unresolvedTypeParameters
deriving DecidableEq, Repr

/-- An option is refused the second time. -/
def setValue? (a : Arguments) (value : String) : ValueOption → Option Arguments
  | .config => if a.config.isSome then none else some { a with config := some value }
  | .unresolvedTypeParameters =>
      if a.unresolvedTypeParameters.isSome then none
      else
        (DiagnosticLevel.ofText? value).map fun level =>
          { a with unresolvedTypeParameters := some level }

/-- What an argument is, taken alone. -/
inductive Word where
  | file (name : String)
  | separator
  | option (name : ValueOption) (value : Option String)
  | strict
  | json
  | pretty
  | help
  | version
  | unknown
deriving DecidableEq, Repr

/-- The name before the first equals sign, and what follows it. -/
def splitEquals : List Char → List Char × Option (List Char)
  | [] => ([], none)
  | '=' :: rest => ([], some rest)
  | c :: rest => let (name, value) := splitEquals rest; (c :: name, value)

/-- A long option without its hyphens. Only options that take a value may have
one. -/
def longWord (text : List Char) : Word :=
  let (name, value) := splitEquals text
  match String.ofList name, value with
  | "config", value => .option .config (value.map String.ofList)
  | "unresolved-type-parameters", value =>
      .option .unresolvedTypeParameters (value.map String.ofList)
  | "strict-function-types", none => .strict
  | "json", none => .json
  | "pretty", none => .pretty
  | "help", none => .help
  | "version", none => .version
  | _, _ => .unknown

/-- A short option without its hyphen; its value may follow directly or behind an
equals sign. -/
def shortWord : List Char → Word
  | ['c'] => .option .config none
  | 'c' :: '=' :: value => .option .config (some (String.ofList value))
  | 'c' :: value => .option .config (some (String.ofList value))
  | 'h' :: _ => .help
  | 'V' :: _ => .version
  | _ => .unknown

def word (argument : String) : Word :=
  match argument.toList with
  | ['-', '-'] => .separator
  | '-' :: '-' :: text => longWord text
  | ['-'] => .file argument
  | '-' :: text => shortWord text
  | _ => .file argument

/-- Indented output is only for the structured form. -/
def finish (a : Arguments) : Request :=
  if a.pretty && !a.json then .invalid else .check a

/-- Read arguments onto those read so far. -/
def readOnto (a : Arguments) : List String → Request
  | [] => finish a
  | argument :: rest =>
      match word argument with
      | .file name => readOnto (a.addFile name) rest
      | .separator => finish { a with files := a.files ++ rest }
      | .option name (some value) =>
          match setValue? a value name with
          | some a => readOnto a rest
          | none => .invalid
      | .option name none =>
          match rest with
          | [] => .invalid
          | value :: rest =>
              match word value with
              | .file value =>
                  match setValue? a value name with
                  | some a => readOnto a rest
                  | none => .invalid
              | _ => .invalid
      | .strict =>
          if a.strictFunctionTypes then .invalid
          else readOnto { a with strictFunctionTypes := true } rest
      | .json => if a.json then .invalid else readOnto { a with json := true } rest
      | .pretty => if a.pretty then .invalid else readOnto { a with pretty := true } rest
      | .help => .help
      | .version => .version
      | .unknown => .invalid

def read (arguments : List String) : Request := readOnto .empty arguments

end StructuralTyping.CommandLine
