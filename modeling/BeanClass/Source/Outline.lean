import BeanClass.Source.Declaration
import BeanClass.Text.Quoted

/-! # Outlines

The structure of a class source, one value on a line and nested values indented.
-/

namespace BeanClass

inductive Outline where
  | atom (text : String)
  | record (name : String) (fields : List (String × Outline))
  | list (items : List Outline)
  | tagged (name : String) (item : Outline)

namespace Outline

def indentation (depth : Nat) : String :=
  String.ofList (List.replicate (4 * depth) ' ')

mutual

/-- The text of a value that starts at the given depth. -/
def render (depth : Nat) : Outline → String
  | atom text => text
  | record name fields =>
    name ++ " \x7b\n" ++ renderFields (depth + 1) fields ++ indentation depth ++ "\x7d"
  | list [] => "[]"
  | list items => "[\n" ++ renderItems (depth + 1) items ++ indentation depth ++ "]"
  | tagged name item =>
    name ++ "(\n" ++ indentation (depth + 1) ++ render (depth + 1) item ++ ",\n" ++
      indentation depth ++ ")"

def renderFields (depth : Nat) : List (String × Outline) → String
  | [] => ""
  | (name, value) :: fields =>
    indentation depth ++ name ++ ": " ++ render depth value ++ ",\n" ++ renderFields depth fields

def renderItems (depth : Nat) : List Outline → String
  | [] => ""
  | item :: items => indentation depth ++ render depth item ++ ",\n" ++ renderItems depth items

end

def quoted (s : String) : Outline :=
  atom (Text.quote s)

def number (n : Nat) : Outline :=
  atom (toString n)

end Outline

open Outline

def Nullability.outline : Nullability → Outline
  | nullable => atom "None"
  | notNull => tagged "Some" (atom "NotNull")
  | neverNull => tagged "Some" (atom "NeverNull")

def ClassSource.outline (c : ClassSource) : Outline :=
  record "CompilationUnit" [
    ("package", record "PackageDecl"
      [("name", quoted c.package.name), ("line", number c.package.line)]),
    ("imports", list (c.imports.map fun i =>
      record "ImportDecl" [("name", quoted i.name), ("line", number i.line)])),
    ("class", record "ClassHeader" [
      ("name", quoted c.header.name),
      ("type_params", list (c.header.parameters.map quoted)),
      ("line", number c.header.line)]),
    ("attributes", list (c.attributes.map fun a =>
      record "AttributeDecl" [
        ("name", quoted a.name),
        ("type_expr", quoted a.typeText),
        ("constraint", a.nullability.outline),
        ("line", number a.line)]))]

end BeanClass
