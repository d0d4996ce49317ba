/-! File paths as text. A path is cut at its slashes; segments that are empty or a
single point change nothing, except a point at the very front. Only the end of a
path is tidied when its last segment is removed. -/
namespace StructuralTyping.Path

def isAbsolute (path : String) : Bool := path.toList.head? == some '/'

/-- The text between slashes. -/
def segments : List Char → List (List Char)
  | [] => [[]]
  | c :: rest =>
      if c == '/' then [] :: segments rest
      else
        match segments rest with
        | first :: others => (c :: first) :: others
        | [] => [[c]]

def isIdle (segment : List Char) : Bool := segment == [] || segment == ['.']

def joinSegments : List (List Char) → List Char
  | [] => []
  | [one] => one
  | one :: rest => one ++ '/' :: joinSegments rest

/-- The leading slash, or the leading point that stands for the current
directory, and the rest. -/
def splitFront : List Char → List Char × List Char
  | '/' :: rest => (['/'], rest)
  | ['.'] => (['.'], [])
  | '.' :: '/' :: rest => (['.'], '/' :: rest)
  | path => ([], path)

/-- The directory that a path lies in; the empty path and the root lie in none. -/
def parent? (path : String) : Option String :=
  let (front, body) := splitFront path.toList
  match (segments body).reverse.dropWhile isIdle with
  | _ :: before =>
      some (String.ofList (front ++ joinSegments (before.dropWhile isIdle).reverse))
  | [] => if front == ['.'] then some "" else none

/-- An entry that is relative to a directory. The empty directory adds nothing. -/
def join (directory entry : String) : String :=
  if isAbsolute entry then entry
  else
    match directory.toList.getLast? with
    | none => entry
    | some '/' => directory ++ entry
    | some _ => directory ++ "/" ++ entry

end StructuralTyping.Path
