import BeanClass.Name
import BeanClass.Text.Blank
import BeanClass.Types.Platform

/-! # What a type name can refer to

Imports, the catalog of known types, and the type parameters of the class.
-/

namespace BeanClass

/-- Full names by the simple name they were imported under; no simple name occurs twice. -/
structure ImportTable where
  entries : List (String × String)
  deriving DecidableEq, Repr

namespace ImportTable

def empty : ImportTable := ⟨[]⟩

/-- A later import of the same simple name replaces the earlier one. -/
def add (t : ImportTable) (name : String) : ImportTable :=
  ⟨(Name.simple name, name) :: t.entries.filter (·.1 != Name.simple name)⟩

def ofList (names : List String) : ImportTable :=
  names.foldl add empty

def find? (t : ImportTable) (simple : String) : Option String :=
  t.entries.lookup simple

def size (t : ImportTable) : Nat :=
  t.entries.length

end ImportTable

/-- A set of dotted type names, each listed once. -/
structure Catalog where
  names : List String
  deriving DecidableEq, Repr

namespace Catalog

def empty : Catalog := ⟨[]⟩

def contains (c : Catalog) (name : String) : Bool :=
  c.names.contains name

def insert (c : Catalog) (name : String) : Catalog :=
  if c.contains name then c else ⟨name :: c.names⟩

def insertAll (c : Catalog) (names : List String) : Catalog :=
  names.foldl insert c

/-- A listing has one name on a line; blank lines and lines that start with `#` are skipped. -/
def ofListing (listing : String) : Catalog :=
  empty.insertAll <| ((Text.lines listing.toList).map Text.trim).filterMap fun text =>
    if text.isEmpty || text.head? == some '#' then none else some (String.ofList text)

def platform : Catalog :=
  empty.insertAll platformTypes

def size (c : Catalog) : Nat :=
  c.names.length

end Catalog

/-- What type names are resolved against. -/
structure Scope where
  imports : ImportTable
  parameters : List String
  isKnown : String → Bool

end BeanClass
