import BeanClass.Compile
import BeanClass.Files.FileSystem

/-! # Compiling files

The class file is written beside the source or into a directory of its own, which is created first.
-/

namespace BeanClass

/-- What compiling a file needs of a file system. -/
structure FileAccess (m : Type → Type) where
  read : String → m (Except FileError (List UInt8))
  createDirectories : String → m (Except FileError Unit)
  write : String → List UInt8 → m (Except FileError Unit)

/-- Access to a file system that is held as a value. -/
def FileSystem.access : FileAccess (StateM FileSystem) where
  read path fs := (fs.read path, fs)
  createDirectories path fs := fs.createDirectories path
  write path content fs :=
    match fs.write path content with
    | .ok fs => (.ok (), fs)
    | .error e => (.error e, fs)

def textOfBytes? (bytes : List UInt8) : Option String :=
  String.fromUTF8? ⟨bytes.toArray⟩

variable {m : Type → Type} [Monad m]

/-- Compiles one file to another, which is named in the answer. -/
def compileTo (files : FileAccess m) (path output : String) (config : Config) :
    m (Except Diagnostic String) := do
  match ← files.read path with
  | .error e => return .error (.file e)
  | .ok content =>
    match textOfBytes? content with
    | none => return .error (.file .invalidUtf8)
    | some source =>
      match compile source (Path.fileName? path) config with
      | .error d => return .error d
      | .ok bytes =>
        match ← files.write output bytes with
        | .error e => return .error (.file e)
        | .ok _ => return .ok output

/-- Writes the class file beside the source. -/
def compileFile (files : FileAccess m) (path : String) (config : Config) :
    m (Except Diagnostic String) :=
  compileTo files path (Path.withExtension path "class") config

/-- Writes the class file into a directory. -/
def compileFileInto (files : FileAccess m) (path directory : String) (config : Config) :
    m (Except Diagnostic String) :=
  match Path.fileName? path with
  | none => return .error (.config (.notFilePath path))
  | some name => do
    match ← files.createDirectories directory with
    | .error e => return .error (.file e)
    | .ok _ =>
      compileTo files path (Path.withExtension (Path.join directory name) "class") config

end BeanClass
