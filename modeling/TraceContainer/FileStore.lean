import TraceContainer.Error

namespace TraceContainer

structure FileHandle where
  bytes : ByteArray
  deriving DecidableEq

/-- What every path leads to: the bytes of a file, or why there are none to be had. -/
structure FileStore where
  read : String → Except FileError ByteArray

namespace FileStore

def empty : FileStore := ⟨fun _ => .error .missing⟩

def splitPath (path : List Char) : List (List Char) :=
  path.foldr (fun char names =>
    if char = '/' then [] :: names
    else match names with
      | [] => [[char]]
      | name :: rest => (char :: name) :: rest) [[]]

/-- The names of a path that lead anywhere: an empty one and a single dot stay in the directory. -/
def isStep (name : List Char) : Bool :=
  name ≠ [] && name ≠ ['.']

/-- The name in the working directory that a path starts with, and whether the path goes on behind
it, be it by a slash alone. -/
def route? (path : String) : Option (String × Bool) :=
  match path.toList with
  | [] | '/' :: _ => none
  | chars =>
    match (splitPath chars).dropWhile (!isStep ·) with
    | [] => none
    | name :: further => some (String.ofList name, !further.isEmpty)

def place (store : FileStore) (name : String) (found : Bool → Except FileError ByteArray) :
    FileStore where
  read path :=
    match route? path with
    | some (other, goesOn) => if other = name then found goesOn else store.read path
    | none => store.read path

/-- Gives a file new bytes; what was read from it before stays as it was. A path that goes on behind
the name of a file takes the file for a directory. -/
def write (store : FileStore) (name : String) (bytes : ByteArray) : FileStore :=
  store.place name fun goesOn => if goesOn then .error .notDirectory else .ok bytes

def remove (store : FileStore) (name : String) : FileStore :=
  store.place name fun _ => .error .missing

def ofFiles (files : List (String × ByteArray)) : FileStore :=
  files.foldl (fun store (name, bytes) => store.write name bytes) empty

end FileStore

end TraceContainer
