import BeanClass.CommandLine.Command
import BeanClass.CommandLine.Inspect
import BeanClass.Files.Compile
import BeanClass.Source.Outline

/-! # Running commands

A run ends with an exit code, what it printed, and a report if it failed.
-/

namespace BeanClass.CommandLine

/-- A failure and what caused it, the nearest cause first. -/
structure Report where
  message : String
  causes : List String
  deriving DecidableEq, Repr

namespace Report

/-- Lines after the first one are indented below it. -/
def indented (first rest text : String) : String :=
  first ++ String.ofList (text.toList.flatMap fun c => if c = '\n' then '\n' :: rest.toList else [c])

def numberedCause (n : Nat) (cause : String) : String :=
  "\n" ++ indented (Text.padLeft 5 (toString n) ++ ": ") "       " cause

/-- Several causes are numbered. -/
def render (r : Report) : String :=
  "Error: " ++ r.message ++ (match r.causes with
    | [] => ""
    | [cause] => "\n\nCaused by:\n" ++ indented "    " "    " cause
    | causes => "\n\nCaused by:" ++
      String.join (causes.zipIdx.map fun (cause, n) => numberedCause n cause)) ++ "\n"

end Report

structure Outcome where
  exitCode : Nat
  stdout : String
  report : Option Report
  deriving DecidableEq, Repr

def Outcome.success (stdout : String) : Outcome :=
  ⟨0, stdout, none⟩

def Outcome.failure (stdout message : String) (causes : List String) : Outcome :=
  ⟨1, stdout, some ⟨message, causes⟩⟩

/-- A failed file operation is reported with its own cause. -/
def causesOf : Diagnostic → List String
  | .file error => [(Diagnostic.file error).message, error.message]
  | d => [d.message]

def versionText : String := "gsc 0.1.0\n"

variable {m : Type → Type} [Monad m]

def configOf (environment : Option String) (options : CompileOptions) : Config :=
  let config := environment.elim {} (Config.addKnownTypes {})
  { config with
    major := options.target.getD config.major
    verify := !options.noVerify
    knownTypes := config.knownTypes ++ options.knownTypes }

def runCompile (files : FileAccess m) (environment : Option String) (input : String)
    (options : CompileOptions) : m Outcome := do
  let config := configOf environment options
  let started := if options.verbose then s!"Compiling {input}...\n" else ""
  let result ← match options.output with
    | some directory => compileFileInto files input directory config
    | none => compileFile files input config
  match result with
  | .error d => return .failure started s!"failed to compile {input}" (causesOf d)
  | .ok output =>
    let done := if options.verbose then s!"Compilation successful! Output: {output}\n" else ""
    return .success (started ++ done)

def parseOutcome (input : String) (detailed : Bool) : Except FileError (List UInt8) → Outcome
  | .error e => .failure "" s!"failed to read {input}" [e.message]
  | .ok content =>
    match textOfBytes? content with
    | none => .failure "" s!"failed to read {input}" [FileError.invalidUtf8.message]
    | some source =>
      match ClassSource.parse source with
      | .error e => .failure "" e.message []
      | .ok c => .success (if detailed then c.outline.render 0 ++ "\n" else c.listing)

def resolveOutcome (expr : String) (imports parameters : List String) : Outcome :=
  let scope : Scope := ⟨ImportTable.ofList imports, parameters, Catalog.platform.contains⟩
  match scope.resolve expr true with
  | .error e => .failure "" (Diagnostic.type 0 e).message []
  | .ok type =>
    let signature := type.signature.getD "(none)"
    .success s!"descriptor: {type.descriptor}\nsignature:  {signature}\n"

def inspectOutcome (input : String) (constants : Bool) : Except FileError (List UInt8) → Outcome
  | .error e => .failure "" s!"failed to read {input}" [e.message]
  | .ok content =>
    match ClassFile.decode content with
    | .error e => .failure "" s!"{input} is not a class file" [e.message]
    | .ok cf =>
      match Inspection.showClass cf constants "" with
      | .ok _ stdout => .success stdout
      | .error e stdout => .failure stdout e.message []

/-- Runs a command line; `environment` lists known types beside those of the options. -/
def run (files : FileAccess m) (environment : Option String) (arguments : List String) :
    m Outcome :=
  match Command.read arguments with
  | .error .version => return .success versionText
  | .error .help => return .success ""
  | .error .invalid => return ⟨2, "", none⟩
  | .ok (.compile input options) => runCompile files environment input options
  | .ok (.parse input detailed) => parseOutcome input detailed <$> files.read input
  | .ok (.resolve expr imports parameters) => return resolveOutcome expr imports parameters
  | .ok (.inspect input constants) => inspectOutcome input constants <$> files.read input

end BeanClass.CommandLine
