/-
This file gives files and directories as a value.

A directory holds its entries by name, in no particular order. A path is resolved from the
working directory, or from the top if it starts with a slash, part by part: every part but the
last must lead to a directory, a dot stays, and two dots go up. A path that ends in a slash
names a directory.
-/

import DocComments.Entries
import DocComments.Text.Pieces

namespace DocComments

/-- A file with its bytes, or a directory with its entries. -/
inductive FileNode where
  | file (bytes : ByteArray)
  | directory (entries : List (String × FileNode))

namespace FileNode

/-- The node below this one that the names lead to. -/
def descend? : FileNode → List String → Option FileNode
  | node, [] => some node
  | .file _, _ :: _ => none
  | .directory entries, name :: names =>
    match Entries.get? entries name with
    | none => none
    | some node => descend? node names

def isDirectory : FileNode → Bool
  | .directory _ => true
  | .file _ => false

/-- Puts a node at the place that the names lead to, making directories that are missing. A
file in the way gives way to a directory. -/
def insert (node : FileNode) : List String → FileNode → FileNode
  | [], _ => node
  | name :: names, place =>
    let entries := match place with
      | .directory entries => entries
      | .file _ => []
    .directory (Entries.alter (fun found => insert node names (found.getD (.directory []))) entries
      name)

end FileNode

/-- Everything that is stored, and the directory that relative paths start from. -/
structure FileSystem where
  top : FileNode
  workingDirectory : List String

namespace FileSystem

/-- Follows the parts of a path from a place that is given by the names that lead to it, the
last one first. -/
def follow? (top : FileNode) : List String → List String → Option (List String)
  | place, [] => some place
  | place, part :: parts =>
    match top.descend? place.reverse with
    | some (.directory entries) =>
      if part == "" || part == "." then
        follow? top place parts
      else if part == ".." then
        follow? top place.tail parts
      else if (Entries.get? entries part).isSome then
        follow? top (part :: place) parts
      else
        none
    | _ => none

/-- The parts of a path, and where they start: at the top or in the working directory. -/
def startOf (system : FileSystem) (path : String) : List String × List String :=
  let parts := (Text.splitOn '/' path.toList).map String.ofList
  match parts with
  | "" :: parts => ([], parts)
  | parts => (system.workingDirectory.reverse, parts)

/-- The place of an existing file or directory, as the names that lead to it from the top. The
empty path names nothing. -/
def locate? (system : FileSystem) (path : String) : Option (List String) :=
  if path == "" then
    none
  else
    let (place, parts) := system.startOf path
    (follow? system.top place parts).map List.reverse

/-- The file or directory at a path. -/
def get? (system : FileSystem) (path : String) : Option FileNode :=
  (system.locate? path).bind system.top.descend?

/-- Whether there is a file at a path. -/
def isFile (system : FileSystem) (path : String) : Bool :=
  match system.get? path with
  | some (.file _) => true
  | _ => false

/-- The text of the file at a path, if there is one and it is UTF-8. -/
def readText? (system : FileSystem) (path : String) : Option String :=
  match system.get? path with
  | some (.file bytes) => String.fromUTF8? bytes
  | _ => none

/-- Where a file at this path would be written: its directory must exist, and there must not be
a directory in its place. -/
def target? (system : FileSystem) (path : String) : Option (List String) :=
  let (place, parts) := system.startOf path
  match parts.reverse with
  | [] => none
  | name :: parents =>
    if name == "" || name == "." || name == ".." then
      none
    else
      match follow? system.top place parents.reverse with
      | none => none
      | some directory =>
        match system.top.descend? directory.reverse with
        | some (.directory entries) =>
          match Entries.get? entries name with
          | some (.directory _) => none
          | _ => some (name :: directory).reverse
        | _ => none

/-- Writes a text to the file at a path, if that is possible. -/
def write? (system : FileSystem) (path text : String) : Option FileSystem :=
  (system.target? path).map fun place =>
    { system with top := FileNode.insert (.file text.toUTF8) place system.top }

end FileSystem

/-- The path of an entry of a directory. -/
def joinPath (directory name : String) : String :=
  if directory == "" || directory.toList.getLast? == some '/' then directory ++ name
  else directory ++ "/" ++ name

end DocComments
