import BeanClass.Diagnostic
import BeanClass.Lowering.Class
import BeanClass.Model.Assembly
import BeanClass.Source.Parser

/-! # Compiling a class source

A source is parsed, its attributes are resolved and added to a class one after the other, and the
class is lowered, verified and encoded.
-/

namespace BeanClass

structure Config where
  major : UInt16 := 51
  /-- Whether the class file is verified before it is encoded. -/
  verify : Bool := true
  /-- Type names that are known beside those of the platform. -/
  knownTypes : List String := []
  deriving DecidableEq, Repr

namespace Config

def check (config : Config) : Except ConfigFault Unit :=
  if Verification.isSupportedMajor config.major then .ok () else .error (.unsupportedMajor config.major)

/-- Adds the names of a list that is separated by colons. -/
def addKnownTypes (config : Config) (list : String) : Config :=
  let names := ((list.toList.splitOn ':').map Text.trim).filter (!·.isEmpty)
  { config with knownTypes := config.knownTypes ++ names.map String.ofList }

def addKnownType (config : Config) (name : String) : Config :=
  { config with knownTypes := config.knownTypes ++ [name] }

end Config

/-- The class file of a model as bytes. -/
def ClassModel.encode (model : ClassModel) (config : Config) : Except EncodingFault (List UInt8) := do
  let cf ← (Lowering.classFile config.major model).mapError .lowering
  if config.verify then (Verification.verify cf).mapError .verification
  return cf.encode

namespace ClassSource

def scope (source : ClassSource) (config : Config) : Scope where
  imports := ImportTable.ofList (source.imports.map (·.name))
  parameters := source.header.parameters
  isKnown := (Catalog.platform.insertAll config.knownTypes).contains

/-- Resolves an attribute and adds it to the class. -/
def addAttribute (scope : Scope) (a : Assembly) (line : AttributeLine) :
    Except Diagnostic Assembly :=
  match scope.resolve line.typeText true with
  | .error e => .error ((Diagnostic.type 0 e).atLine line.line)
  | .ok type =>
    match a.add ⟨line.name, type.descriptor, type.signature, line.nullability⟩ with
    | .error fault => .error ((Diagnostic.source (.invalid 0 fault)).atLine line.line)
    | .ok a => .ok a

/-- The class that a source declares. -/
def assemble (source : ClassSource) (sourceName : Option String) (config : Config) :
    Except Diagnostic ClassModel := do
  let start := Assembly.start source.qualifiedName source.header.parameters sourceName
  let a ← source.attributes.foldlM (addAttribute (source.scope config)) start
  return a.finish

end ClassSource

/-- Compiles a source to the bytes of a class file, which names `sourceName` as its source. -/
def compile (source : String) (sourceName : Option String) (config : Config) :
    Except Diagnostic (List UInt8) := do
  config.check.mapError .config
  let parsed ← (ClassSource.parse source).mapError .source
  let model ← parsed.assemble sourceName config
  (model.encode config).mapError .encoding

end BeanClass
