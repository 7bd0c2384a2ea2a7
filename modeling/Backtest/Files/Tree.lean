import Backtest.Files
import Backtest.Files.Path

/-!
A tree of files and directories as a value, with the operations that programs use on it. A path is
walked part by part from the root or from the working directory; each part but the last has to be a
directory that exists. An operation that fails leaves the tree as it is, except that making a chain
of directories keeps those made before the failure.
-/

namespace Backtest

abbrev Location := List String

inductive Entry
  | file (bytes : ByteArray)
  | directory

/-- A tree of files. Later entries stand before earlier ones and hide them; the root always
exists. -/
structure FileTree where
  workingDirectory : Location
  entries : List (Location × Entry)

namespace FileTree

/-- A tree with nothing in it but the directories down to the working directory. -/
def empty (workingDirectory : Location) : FileTree where
  workingDirectory
  entries := (List.range (workingDirectory.length + 1)).map fun depth =>
    (workingDirectory.take depth, .directory)

def entry? (tree : FileTree) (location : Location) : Option Entry :=
  if location = [] then some .directory else tree.entries.lookup location

def set (tree : FileTree) (location : Location) (entry : Entry) : FileTree :=
  { tree with entries := (location, entry) :: tree.entries }

/-- The longest name and the longest path, in bytes. -/
def maxName : Nat := 255

def maxPath : Nat := 4095

/-- Goes down from a location along the parts of a path. -/
def walk (tree : FileTree) (location : Location) : List String → Except FileError Location
  | [] => .ok location
  | part :: rest =>
    match tree.entry? location with
    | none => .error .notFound
    | some (.file _) => .error .notDirectory
    | some .directory =>
      if Path.isVoid part then tree.walk location rest
      else if part == ".." then tree.walk location.dropLast rest
      else if maxName < part.utf8ByteSize then .error .nameTooLong
      else tree.walk (location ++ [part]) rest

def startOf (tree : FileTree) (path : String) : Location :=
  if Path.isAbsolute path then [] else tree.workingDirectory

/-- Refuses the texts that name nothing at all. -/
def checkPath (path : String) : Except FileError Unit :=
  if path.contains '\x00' then .error .zeroInName
  else if path == "" then .error .notFound
  else if maxPath < path.utf8ByteSize then .error .nameTooLong
  else .ok ()

/-- The location that a path leads to, whether or not something is there. -/
def locate (tree : FileTree) (path : String) : Except FileError Location := do
  checkPath path
  tree.walk (tree.startOf path) (Path.parts path)

def isDirectory (tree : FileTree) (path : String) : Bool :=
  match tree.locate path with
  | .ok location =>
    match tree.entry? location with
    | some .directory => true
    | _ => false
  | .error _ => false

def readBytes (tree : FileTree) (path : String) : Except FileError ByteArray := do
  match tree.entry? (← tree.locate path) with
  | none => throw .notFound
  | some .directory => throw .isDirectory
  | some (.file bytes) => return bytes

def readText (tree : FileTree) (path : String) : Except FileError String := do
  match String.fromUTF8? (← tree.readBytes path) with
  | some text => return text
  | none => throw .notText

def namesAt (tree : FileTree) (location : Location) : List String :=
  (tree.entries.filterMap fun (path, _) =>
    match path.reverse with
    | name :: before => if before.reverse = location then some name else none
    | [] => none).eraseDups

def names (tree : FileTree) (path : String) : Except FileError (List String) := do
  let location ← tree.locate path
  match tree.entry? location with
  | none => throw .notFound
  | some (.file _) => throw .notDirectory
  | some .directory => return tree.namesAt location

def createDirectory (tree : FileTree) (path : String) : Except FileError FileTree := do
  checkPath path
  match (Path.parts path).reverse.dropWhile (· == "") with
  | [] => throw .alreadyExists
  | last :: before =>
    let location ← tree.walk (tree.startOf path) (before.reverse ++ [last])
    match tree.entry? location with
    | some _ => throw .alreadyExists
    | none => return tree.set location .directory

/-- Makes the first of a list of paths, after the ones that follow it where it has to. -/
def createChain (tree : FileTree) : List String → FileTree × Except FileError Unit
  | [] => (tree, .error .notFound)
  | path :: parents =>
    if path == "" then (tree, .ok ())
    else
      match tree.createDirectory path with
      | .ok made => (made, .ok ())
      | .error .notFound =>
        match tree.createChain parents with
        | (made, .error error) => (made, .error error)
        | (made, .ok ()) =>
          match made.createDirectory path with
          | .ok whole => (whole, .ok ())
          | .error error => (made, if made.isDirectory path then .ok () else .error error)
      | .error error => (tree, if tree.isDirectory path then .ok () else .error error)

def createDirectories (tree : FileTree) (path : String) : FileTree × Except FileError Unit :=
  tree.createChain (Path.ancestors path)

def writeBytes (tree : FileTree) (path : String) (bytes : ByteArray) :
    Except FileError FileTree := do
  let location ← tree.locate path
  match tree.entry? location with
  | some .directory => throw .isDirectory
  | _ => return tree.set location (.file bytes)

end FileTree

instance : Files (StateM FileTree) where
  readText path := fun tree => (tree.readText path, tree)
  names path := fun tree => (tree.names path, tree)
  createDirectories path := fun tree =>
    let (made, result) := tree.createDirectories path
    (result, made)
  writeText path text := fun tree =>
    match tree.writeBytes path text.toUTF8 with
    | .ok written => (.ok (), written)
    | .error error => (.error error, tree)

end Backtest
