import StructuralTyping.CommandLine.Run

/-! The command as a program. -/
namespace StructuralTyping.CommandLine

/-- The number of a system error, which may be reported as its negation. -/
def systemErrorNumber (code : UInt32) : Nat :=
  if code < 0x80000000 then code.toNat else (0 - code).toNat

/-- What the system reports, as far as there is a wording for it. -/
def ReadError.ofSystem : IO.Error → ReadError
  | .noFileOrDirectory _ _ _ => .notFound
  | .permissionDenied _ _ _ => .denied
  | .inappropriateType _ code _ =>
      if systemErrorNumber code = 20 then .notDirectory else .isDirectory
  | .invalidArgument _ code details =>
      if systemErrorNumber code = 36 then .nameTooLong else .other details
  | e => .other (toString e)

def readSystemFile (path : String) : IO (Except ReadError String) := do
  if path.toList.contains (Char.ofNat 0) then return .error .nulInName
  try
    match String.fromUTF8? (← IO.FS.readBinFile path) with
    | some text => return .ok text
    | none => return .error .notUtf8
  catch e => return .error (.ofSystem e)

def usageText : String := "Usage: tysh [OPTIONS] [FILE]...\n\nFor more information, try '--help'.\n"

end StructuralTyping.CommandLine

open StructuralTyping.CommandLine in
def main (arguments : List String) : IO UInt32 := do
  match ← run readSystemFile arguments with
  | .finished status output errors => do
      IO.print output
      IO.eprint errors
      return status.toUInt32
  | .failed failure => do
      IO.eprintln failure.text
      return failure.status.toUInt32
  | .invalidArguments => do
      IO.eprint usageText
      return 2
