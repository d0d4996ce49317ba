import StructuralTyping.Path

/-! Reading files by path. What can go wrong has a fixed wording; a small tree of
files given as a value can be read in place of a real one. -/
namespace StructuralTyping.CommandLine

inductive ReadError where
  | notFound
  | isDirectory
  | notDirectory
  | denied
  | nulInName
  | nameTooLong
  | notUtf8
  | other (message : String)
deriving DecidableEq, Repr

namespace ReadError

def message : ReadError → String
  | notFound => "No such file or directory (os error 2)"
  | isDirectory => "Is a directory (os error 21)"
  | notDirectory => "Not a directory (os error 20)"
  | denied => "Permission denied (os error 13)"
  | nulInName => "file name contained an unexpected NUL byte"
  | nameTooLong => "File name too long (os error 36)"
  | notUtf8 => "stream did not contain valid UTF-8"
  | other message => message

end ReadError

/-- Where a path has led to so far. -/
inductive Place where
  /-- Below the tree's own directory, given by the names from the inside out. -/
  | inside (names : List String)
  /-- In a directory around the tree. Up there is always another directory, since
  the root is its own parent; a file is nowhere. -/
  | outside
deriving DecidableEq, Repr

namespace Place

def parent : Place → Place
  | inside (_ :: outer) => inside outer
  | inside [] => outside
  | outside => outside

end Place

/-- The files of a directory and the directories below it. Both are given by their
names from the inside out. -/
structure FileTree where
  files : List (List String × String)
  directories : List (List String)
deriving DecidableEq, Repr

namespace FileTree

def isParentStep (segment : List Char) : Bool := segment == ['.', '.']

/-- The places that the segments of a path pass, the last one first. -/
def passed (place : List String) : List (List Char) → List (List String)
  | [] => [place]
  | segment :: rest =>
      if Path.isIdle segment then passed place rest
      else if isParentStep segment then passed place.tail rest ++ [place]
      else passed (String.ofList segment :: place) rest ++ [place]

/-- Put a file at a relative path, with the directories on the way there. -/
def addFile (tree : FileTree) (path text : String) : FileTree :=
  match passed [] (Path.segments path.toList) with
  | [] => tree
  | place :: before =>
      { files := (place, text) :: tree.files
        directories := before ++ tree.directories }

/-- Of several texts for one path the last counts. -/
def ofList (files : List (String × String)) : FileTree :=
  files.foldl (fun tree file => tree.addFile file.1 file.2) ⟨[], []⟩

def text? (tree : FileTree) (place : List String) : Option String :=
  (tree.files.find? fun file => file.1 == place).map Prod.snd

def isDirectory (tree : FileTree) (place : List String) : Bool :=
  place.isEmpty || tree.directories.contains place

/-- The longest name that a file may have, in bytes. -/
def longestName : Nat := 255

/-- The longest path that the system takes, in bytes. -/
def longestPath : Nat := 4095

/-- Follow the segments of a path. A name is looked at only when it is reached, so
the first one that cannot be passed decides. -/
def follow (tree : FileTree) (place : Place) : List (List Char) → Except ReadError String
  | [] => .error .isDirectory
  | segment :: rest =>
      if Path.isIdle segment then follow tree place rest
      else if isParentStep segment then follow tree place.parent rest
      else
        let name := String.ofList segment
        if longestName < name.utf8ByteSize then .error .nameTooLong
        else
          match place with
          | .outside => .error .notFound
          | .inside outer =>
              match tree.text? (name :: outer) with
              | some text => if rest.isEmpty then .ok text else .error .notDirectory
              | none =>
                  if tree.isDirectory (name :: outer) then
                    follow tree (.inside (name :: outer)) rest
                  else .error .notFound

/-- Read the file at a path. The path as a whole is judged before it is followed. -/
def read (tree : FileTree) (path : String) : Except ReadError String :=
  if path.toList.contains (Char.ofNat 0) then .error .nulInName
  else if path.isEmpty then .error .notFound
  else if longestPath < path.utf8ByteSize then .error .nameTooLong
  else
    follow tree (if Path.isAbsolute path then .outside else .inside [])
      (Path.segments path.toList)

end FileTree

end StructuralTyping.CommandLine
