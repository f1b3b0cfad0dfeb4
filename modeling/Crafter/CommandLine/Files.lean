import Crafter.Text.Lines
import Crafter.Text.Utf8

/-! The files that a command can read. -/
namespace Crafter.CommandLine

inductive Target where
  /-- Nothing. -/
  | missing
  | directory
  /-- Nothing, since a part of the path that is not the last one is a file. -/
  | blocked
  /-- Nothing, since the path or a part of it is too long. -/
  | tooLong
  /-- Nothing, since the path holds the character that ends all paths. -/
  | broken
  | file (bytes : List UInt8)
deriving DecidableEq, Repr

/-- What the command line has to know of a file system: what is found at a path
once redundant parts are left out of it, and what is found when the path is
followed to the letter. -/
structure Files where
  found : String → Target
  target : String → Target

def partsOf (path : String) : List String :=
  (go path.toList).map String.ofList
where
  go : List Char → List (List Char)
    | [] => [[]]
    | c :: cs =>
      if c = '/' then [] :: go cs
      else match go cs with
        | [] => [[c]]
        | part :: rest => (c :: part) :: rest

def stays (part : String) : Bool := part = "" || part = "."

/-- The slashes that an absolute path begins with. Two are kept, since they may
mean something of their own; any other number means the same as one. -/
def rootOf (path : String) : String :=
  match path.toList with
  | '/' :: '/' :: '/' :: _ => "/"
  | '/' :: '/' :: _ => "//"
  | '/' :: _ => "/"
  | _ => ""

def tidyPath (path : String) : String :=
  let tidy := rootOf path ++ "/".intercalate ((partsOf path).filter fun part => !stays part)
  if tidy = "" then "." else tidy

def maxPartBytes : Nat := 255

def maxPathBytes : Nat := 4095

/-- A working directory with all that is in it. Directories and files are given
by the parts of their paths. -/
structure Tree where
  directories : List (List String)
  files : List (List String × List UInt8)

namespace Tree

def placeOf (path : String) : List String :=
  (partsOf path).foldl
    (fun place part =>
      if stays part then place else if part = ".." then place.dropLast else place ++ [part]) []

def ofPaths (directories : List String) (files : List (String × List UInt8)) : Tree :=
  ⟨directories.map placeOf, files.map fun (path, bytes) => (placeOf path, bytes)⟩

/-- Whether something is a directory of the tree: given as such, or on the way
to something that is given. -/
def hasDirectory (t : Tree) (place : List String) : Bool :=
  place.isEmpty || t.directories.any (place.isPrefixOf ·) ||
    t.files.any fun (file, _) => place.isPrefixOf file && place ≠ file

/-- Where the parts of a path lead that has left the tree. All that is known of
what lies outside is that one can go further up. -/
def outside : List String → Target
  | [] => .directory
  | part :: rest =>
    if stays part || part = ".." then outside rest
    else if maxPartBytes < part.utf8ByteSize then .tooLong
    else .missing

def follow (t : Tree) (place : List String) : List String → Target
  | [] => .directory
  | part :: rest =>
    if stays part then t.follow place rest
    else if part = ".." then
      if place.isEmpty then outside rest else t.follow place.dropLast rest
    else if maxPartBytes < part.utf8ByteSize then .tooLong
    else if t.hasDirectory (place ++ [part]) then t.follow (place ++ [part]) rest
    else
      match t.files.lookup (place ++ [part]) with
      | none => .missing
      | some bytes => if rest.isEmpty then .file bytes else .blocked

/-- Where a path leads, starting from the working directory, or from outside if
the path begins with a slash. An empty path leads nowhere. -/
def followPath (t : Tree) (path : String) : Target :=
  if path.toList.contains (Char.ofNat 0) then .broken
  else if path = "" then .missing
  else if maxPathBytes < path.utf8ByteSize then .tooLong
  else if rootOf path ≠ "" then outside (partsOf path)
  else t.follow [] (partsOf path)

def toFiles (t : Tree) : Files where
  found path := t.followPath (tidyPath path)
  target := t.followPath

end Tree

end Crafter.CommandLine
