import BeanClass.Source.Line

/-! # Declarations

A class source declares a package, imports, a class and its attributes, each on a line of its own.
-/

namespace BeanClass

/-- What an attribute says about null; both stricter forms make its setter refuse null. -/
inductive Nullability where
  | nullable
  | notNull
  | neverNull
  deriving DecidableEq, Repr

namespace Nullability

def operator : Nullability → String
  | nullable => ":"
  | notNull => "!"
  | neverNull => "!!"

def ofOperator? : String → Option Nullability
  | ":" => some nullable
  | "!" => some notNull
  | "!!" => some neverNull
  | _ => none

def rejectsNull : Nullability → Bool
  | nullable => false
  | _ => true

end Nullability

/-- The name is empty in the default package. -/
structure PackageLine where
  name : String
  line : Nat
  deriving DecidableEq, Repr

structure ImportLine where
  name : String
  line : Nat
  deriving DecidableEq, Repr

structure HeaderLine where
  name : String
  parameters : List String
  line : Nat
  deriving DecidableEq, Repr

structure AttributeLine where
  name : String
  typeText : String
  nullability : Nullability
  line : Nat
  deriving DecidableEq, Repr

structure ClassSource where
  package : PackageLine
  imports : List ImportLine
  header : HeaderLine
  attributes : List AttributeLine
  deriving DecidableEq, Repr

def PackageLine.render (p : PackageLine) : String :=
  ">> " ++ p.name

def ImportLine.render (i : ImportLine) : String :=
  "<< " ++ i.name

def HeaderLine.render (h : HeaderLine) : String :=
  if h.parameters.isEmpty then h.name
  else h.name ++ "<" ++ String.intercalate "," h.parameters ++ ">"

def AttributeLine.render (a : AttributeLine) : String :=
  a.name ++ " " ++ a.nullability.operator ++ " " ++ a.typeText

namespace ClassSource

/-- The class name with its package in front. -/
def qualifiedName (c : ClassSource) : String :=
  if c.package.name.isEmpty then c.header.name else c.package.name ++ "." ++ c.header.name

/-- The declarations in the order of the source, each with its line number. -/
def renderedLines (c : ClassSource) : List Line :=
  ⟨c.package.line, c.package.render⟩ :: c.imports.map (fun i => ⟨i.line, i.render⟩) ++
    ⟨c.header.line, c.header.render⟩ :: c.attributes.map (fun a => ⟨a.line, a.render⟩)

/-- The canonical text, one line for each declaration. -/
def render (c : ClassSource) : String :=
  String.join (c.renderedLines.map (·.text ++ "\n"))

def numbered (number : Nat) (text : String) : String :=
  Text.padLeft 4 (toString number) ++ " | " ++ text ++ "\n"

/-- The declarations under the line numbers they were read from, the attributes indented. -/
def listing (c : ClassSource) : String :=
  numbered c.package.line c.package.render ++
    String.join (c.imports.map fun i => numbered i.line i.render) ++
    numbered c.header.line c.header.render ++
    String.join (c.attributes.map fun a => numbered a.line ("  " ++ a.render))

end ClassSource

end BeanClass
