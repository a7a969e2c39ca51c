import BeanClass.Files.Compile
import BeanClass.Proofs.Files.FileSystem

/-! # What compiling a file changes

A class file that is written beside its source is all that changes, and nothing changes without one. The
directory for a class file is created before the source is read, so it stays there when the source does
not compile.
-/

namespace BeanClass.FileSystem

variable {fs : FileSystem} {path directory name : String} {config : Config}

/-- The file at a path compiles to these bytes, under its own name. -/
def Compiles (fs : FileSystem) (path : String) (config : Config) (bytes : List UInt8) : Prop :=
  ∃ content source, fs.read path = .ok content ∧ textOfBytes? content = some source ∧
    compile source (Path.fileName? path) config = .ok bytes

/-- Without an answer nothing changes, and with one the output alone, to what the file compiles to. -/
def Leaves (fs : FileSystem) (path output : String) (config : Config) :
    Except Diagnostic String × FileSystem → Prop
  | (.error _, fs') => fs' = fs
  | (.ok answer, fs') => answer = output ∧ ∃ bytes, fs.Compiles path config bytes ∧
      Writes output bytes fs fs' ∧ fs'.read output = .ok bytes

theorem leaves_compileTo (fs : FileSystem) (path output : String) (config : Config) :
    fs.Leaves path output config ((compileTo access path output config).run fs) := by
  unfold compileTo access
  simp only [bind, StateT.run, StateT.bind]
  cases hread : fs.read path with
  | error e => rfl
  | ok content =>
    dsimp only
    cases htext : textOfBytes? content with
    | none => rfl
    | some source =>
      dsimp only
      cases hcompile : compile source (Path.fileName? path) config with
      | error d => rfl
      | ok bytes =>
        dsimp only [StateT.bind]
        cases hwrite : fs.write output bytes with
        | error e => rfl
        | ok fs' =>
          have hwrites := writes_of_write hwrite
          exact ⟨rfl, bytes, ⟨content, source, hread, htext, hcompile⟩, hwrites, hwrites.read⟩

theorem compileFileInto_of_fileName?_eq_none (h : Path.fileName? path = none) :
    (compileFileInto access path directory config).run fs =
      (.error (.config (.notFilePath path)), fs) := by
  rw [compileFileInto, h]
  rfl

/-- What is there once the directory for a class file is created. -/
theorem leaves_compileFileInto (h : Path.fileName? path = some name) :
    (fs.createDirectories directory).2.Leaves path
      (Path.withExtension (Path.join directory name) "class") config
      ((compileFileInto access path directory config).run fs) := by
  rw [compileFileInto, h]
  simp only [bind, StateT.run, StateT.bind]
  rcases hcreate : fs.createDirectories directory with ⟨created, ready⟩
  have haccess : access.createDirectories directory fs = (created, ready) := hcreate
  rw [haccess]
  cases created with
  | error e => rfl
  | ok _ => exact leaves_compileTo ready path _ config

/-- Nothing changes without a class file, other than that its directory may be created. Where there is
one, its file is all that changes after that. -/
theorem leaves_compile (fs : FileSystem) (path directory : String) (config : Config) :
    fs.Leaves path (Path.withExtension path "class") config
        ((compileFile access path config).run fs) ∧
      (Path.fileName? path = none → (compileFileInto access path directory config).run fs =
        (.error (.config (.notFilePath path)), fs)) ∧
      ∀ name, Path.fileName? path = some name → ∃ ready,
        Grows (directory :: Path.parents directory) fs ready ∧
        (∀ place content, ready.find? place = some (.file content) ↔
          fs.find? place = some (.file content)) ∧
        (directory = "" ∨ fs.isDirectory directory = true → ready = fs) ∧
        ready.Leaves path (Path.withExtension (Path.join directory name) "class") config
          ((compileFileInto access path directory config).run fs) := by
  refine ⟨leaves_compileTo fs path _ config, compileFileInto_of_fileName?_eq_none, fun name h => ?_⟩
  have hgrows := grows_createWithParents fs directory (Path.parents directory)
  refine ⟨(fs.createDirectories directory).2, hgrows, hgrows.file_iff, ?_, leaves_compileFileInto h⟩
  rintro (rfl | hdirectory)
  · rw [createDirectories_empty]
  · rw [createDirectories_of_isDirectory hdirectory]

/-- A source and a directory for its class file. -/
def prepared : FileSystem :=
  ⟨[(⟨.above 0, ["out"]⟩, .directory), (⟨.above 0, ["A.gs"]⟩, .file [])]⟩

theorem leaves_compile_prepared : Path.fileName? "A.gs" = some "A.gs" ∧
    prepared.isDirectory "out" = true ∧ prepared.Leaves "A.gs" "out/A.class" {}
      ((compileFileInto access "A.gs" "out" {}).run prepared) := by
  have hname : Path.fileName? "A.gs" = some "A.gs" := by decide
  have hdirectory : prepared.isDirectory "out" = true := by decide
  have houtput : Path.withExtension (Path.join "out" "A.gs") "class" = "out/A.class" := by decide
  obtain ⟨ready, -, -, hready, hleaves⟩ := (leaves_compile prepared "A.gs" "out" {}).2.2 _ hname
  rw [houtput, hready (Or.inr hdirectory)] at hleaves
  exact ⟨hname, hdirectory, hleaves⟩

/-- The directory is created for a source that does not compile. -/
theorem exists_directory_of_failure : ∃ (fs fs' : FileSystem) (path directory source : String)
    (content : List UInt8) (d : Diagnostic) (place : Place),
    fs.read path = .ok content ∧ textOfBytes? content = some source ∧
    compile source (Path.fileName? path) {} = .error d ∧
    (compileFileInto access path directory {}).run fs = (.error d, fs') ∧
    fs.find? place = none ∧ fs'.find? place = some .directory :=
  ⟨⟨[(⟨.above 0, ["A.gs"]⟩, .file [])]⟩, _, "A.gs", "out", "", [], .source (.unexpectedEnd 0),
    ⟨.above 0, ["out"]⟩, rfl, rfl, rfl, rfl, rfl, rfl⟩

end BeanClass.FileSystem
