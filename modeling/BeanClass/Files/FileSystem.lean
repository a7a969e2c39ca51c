import BeanClass.Diagnostic
import BeanClass.Files.Path

/-! # File systems

A tree of directories and files around a working directory.
-/

namespace BeanClass

/-- Where a path starts: at the root, or some levels above the working directory. -/
inductive Anchor where
  | root
  | above (levels : Nat)
  deriving DecidableEq, Repr

/-- A place in the tree; the names lead there from the anchor, the last one first. -/
structure Place where
  anchor : Anchor
  names : List String
  deriving DecidableEq, Repr

inductive Entry where
  | directory
  | file (content : List UInt8)
  deriving DecidableEq, Repr

/-- The entries below the anchors, which are directories themselves. -/
structure FileSystem where
  entries : List (Place × Entry)
  deriving DecidableEq, Repr

def Place.ofPath (path : String) : Place :=
  ⟨if Path.isAbsolute path then .root else .above 0, []⟩

/-- One level up; the root is above itself. -/
def Place.up : Place → Place
  | ⟨anchor, _ :: names⟩ => ⟨anchor, names⟩
  | ⟨.above levels, []⟩ => ⟨.above (levels + 1), []⟩
  | ⟨.root, []⟩ => ⟨.root, []⟩

namespace FileSystem

def empty : FileSystem := ⟨[]⟩

def find? (fs : FileSystem) (place : Place) : Option Entry :=
  if place.names.isEmpty then some .directory else fs.entries.lookup place

def insert (fs : FileSystem) (place : Place) (entry : Entry) : FileSystem :=
  ⟨(place, entry) :: fs.entries.filter (·.1 != place)⟩

/-- Follows one name, which need not exist in the directory. -/
def follow (fs : FileSystem) (place : Place) (name : String) : Except FileError Place :=
  match fs.find? place with
  | none => .error .notFound
  | some (.file _) => .error .notDirectory
  | some .directory =>
    if name = "." then .ok place
    else if name = ".." then .ok place.up
    else if Path.maxName < name.utf8ByteSize then .error .nameTooLong
    else .ok ⟨place.anchor, name :: place.names⟩

/-- The place that a path leads to, all but the last name of which exist. -/
def locate (fs : FileSystem) (path : String) : Except FileError Place :=
  if path.isEmpty then .error .notFound
  else if Path.maxPath < path.utf8ByteSize then .error .nameTooLong
  else (Path.steps path).foldlM fs.follow (Place.ofPath path)

def read (fs : FileSystem) (path : String) : Except FileError (List UInt8) := do
  let place ← fs.locate path
  match fs.find? place with
  | none => .error .notFound
  | some .directory => .error .isDirectory
  | some (.file content) => .ok content

def write (fs : FileSystem) (path : String) (content : List UInt8) :
    Except FileError FileSystem := do
  let place ← fs.locate path
  match fs.find? place with
  | some .directory => .error .isDirectory
  | _ => .ok (fs.insert place (.file content))

def isDirectory (fs : FileSystem) (path : String) : Bool :=
  match fs.locate path with
  | .ok place => fs.find? place == some .directory
  | .error _ => false

/-- Creates one directory in an existing one; slashes at the end count for the length only. -/
def createDirectory (fs : FileSystem) (path : String) : Except FileError FileSystem := do
  if Path.maxPath < path.utf8ByteSize then throw .nameTooLong
  let place ← fs.locate (Path.withoutSlashes path)
  match fs.find? place with
  | some _ => .error .alreadyExists
  | none => .ok (fs.insert place .directory)

/-- Creates a directory with those above it that are missing, which are given with the nearest one
first. Directories created before a failure stay. -/
def createWithParents (fs : FileSystem) (path : String) (parents : List String) :
    Except FileError Unit × FileSystem :=
  if path.isEmpty then (.ok (), fs)
  else
    match fs.createDirectory path, parents with
    | .ok fs, _ => (.ok (), fs)
    | .error .notFound, parent :: parents =>
      match fs.createWithParents parent parents with
      | (.error e, fs) => (.error e, fs)
      | (.ok _, fs) =>
        match fs.createDirectory path with
        | .ok fs => (.ok (), fs)
        | .error e => if fs.isDirectory path then (.ok (), fs) else (.error e, fs)
    | .error e, _ => if fs.isDirectory path then (.ok (), fs) else (.error e, fs)

def createDirectories (fs : FileSystem) (path : String) : Except FileError Unit × FileSystem :=
  fs.createWithParents path (Path.parents path)

/-- A working directory with the given files and the directories that they are in. -/
def ofFiles (files : List (String × List UInt8)) : FileSystem :=
  files.foldl (fun fs (path, content) =>
    let (_, fs) := fs.createDirectories (Path.ofPieces (Path.pieces path).dropLast)
    match fs.write path content with
    | .ok fs => fs
    | .error _ => fs) empty

/-- The path of a place from the working directory, if it is below it. -/
def pathOf? (place : Place) : Option String :=
  match place with
  | ⟨.above 0, names⟩ => some (Path.ofPieces names.reverse)
  | _ => none

/-- The files below the working directory. -/
def files (fs : FileSystem) : List (String × List UInt8) :=
  fs.entries.filterMap fun
    | (place, .file content) => (pathOf? place).map (·, content)
    | (_, .directory) => none

/-- The directories below the working directory. -/
def directories (fs : FileSystem) : List String :=
  fs.entries.filterMap fun
    | (place, .directory) => pathOf? place
    | (_, .file _) => none

end FileSystem

end BeanClass
