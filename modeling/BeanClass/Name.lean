import BeanClass.Text.Alphabetic
import BeanClass.Text.Numeric
import BeanClass.Text.Uppercase
import BeanClass.Text.Cut

/-! # Names

Identifiers, dotted names, and the names of the accessors of an attribute.
-/

namespace BeanClass

namespace Name

def isStart (c : Char) : Bool :=
  Text.isAlphabetic c || c == '_' || c == '$'

def isPart (c : Char) : Bool :=
  isStart c || Text.isNumeric c

def isIdentifier : List Char → Bool
  | [] => false
  | c :: s => isStart c && s.all isPart

/-- One identifier or several separated by dots. -/
def isQualified (s : List Char) : Bool :=
  (s.splitOn '.').all isIdentifier

/-- The dotted name with slashes in place of the dots. -/
def internal (name : String) : String :=
  String.ofList (Text.substitute '.' '/' name.toList)

/-- The last part of a dotted name. -/
def simple (name : String) : String :=
  String.ofList (Text.afterLast '.' name.toList)

/-- The first character is put into upper case, which may lengthen the name. -/
def capitalize (name : String) : String :=
  match name.toList with
  | [] => ""
  | c :: s => String.ofList (Text.uppercase c ++ s)

/-- A getter of a field with the descriptor of the truth values starts with `is`. -/
def getter (name descriptor : String) : String :=
  (if descriptor = "Z" then "is" else "get") ++ capitalize name

def setter (name : String) : String :=
  "set" ++ capitalize name

end Name

/-- The keywords of the primitive types with their descriptors. -/
def primitiveTypes : List (String × String) :=
  [("byte", "B"), ("char", "C"), ("double", "D"), ("float", "F"), ("int", "I"), ("long", "J"),
   ("short", "S"), ("boolean", "Z")]

def primitiveDescriptor? (keyword : String) : Option String :=
  primitiveTypes.lookup keyword

end BeanClass
