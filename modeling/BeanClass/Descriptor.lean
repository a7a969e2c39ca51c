import BeanClass.Text.Cut

/-! # Descriptors

A field descriptor spells a type; a method descriptor spells parameters and a result.
-/

namespace BeanClass

/-- How a value is held in local variables and on the operand stack. -/
inductive ValueKind where
  | int
  | long
  | float
  | double
  | reference
  deriving DecidableEq, Repr

namespace ValueKind

/-- Whatever is not spelled as a primitive type is held as a reference. -/
def ofDescriptor : String → ValueKind
  | "B" | "C" | "I" | "S" | "Z" => int
  | "J" => long
  | "F" => float
  | "D" => double
  | _ => reference

/-- The number of slots that a value takes. -/
def slots : ValueKind → UInt16
  | long | double => 2
  | _ => 1

end ValueKind

def isBaseType (c : Char) : Bool :=
  c == 'B' || c == 'C' || c == 'D' || c == 'F' || c == 'I' || c == 'J' || c == 'S' || c == 'Z'

/-- A part of an internal name is not empty and free of `.`, `;`, `[`, `<` and `>`. -/
def isSegment (s : List Char) : Bool :=
  !s.isEmpty && s.all fun c => !(c == '.' || c == ';' || c == '[' || c == '<' || c == '>')

/-- Segments separated by slashes. -/
def isInternalName (s : List Char) : Bool :=
  (s.splitOn '/').all isSegment

/-- A type other than an array. -/
def isElementDescriptor : List Char → Bool
  | [] => false
  | 'L' :: s => s.getLast? == some ';' && isInternalName s.dropLast
  | c :: s => isBaseType c && s.isEmpty

/-- At most 255 brackets and an element type. -/
def isFieldDescriptor (s : List Char) : Bool :=
  (s.takeWhile (· == '[')).length ≤ 255 && isElementDescriptor (s.dropWhile (· == '['))

structure MethodDescriptor where
  parameters : List String
  result : String
  deriving DecidableEq, Repr

inductive SplitError where
  | malformed
  /-- A parameter that starts with a character of several bytes would end inside it. -/
  | splitsCharacter
  deriving DecidableEq, Repr

namespace MethodDescriptor

def ofGetter (field : String) : String :=
  "()" ++ field

def ofSetter (field : String) : String :=
  "(" ++ field ++ ")V"

/-- Cuts parameters off a text: brackets, then a class up to its semicolon or one character.
`found` holds the parameters before, `piece` the characters of the current one, both in reverse
order, and `inClass` says whether the current one is a class. -/
def cutParameters :
    (found : List (List Char)) → (piece : List Char) → (inClass : Bool) → List Char →
      Except SplitError (List (List Char))
  | found, piece, inClass, [] =>
    if piece.isEmpty && !inClass then .ok found.reverse else .error .malformed
  | found, piece, true, c :: s =>
    if c = ';' then cutParameters ((c :: piece).reverse :: found) [] false s
    else cutParameters found (c :: piece) true s
  | found, piece, false, c :: s =>
    if c = '[' then cutParameters found (c :: piece) false s
    else if c = 'L' then cutParameters found (c :: piece) true s
    else if c.toNat < 0x80 then cutParameters ((c :: piece).reverse :: found) [] false s
    else .error .splitsCharacter

/-- The parameters end at the first closing parenthesis. -/
def split (descriptor : String) : Except SplitError MethodDescriptor :=
  match descriptor.toList with
  | '(' :: s =>
    match s.dropWhile (· != ')') with
    | _ :: result => do
      let parameters ← cutParameters [] [] false (s.takeWhile (· != ')'))
      if parameters.all isFieldDescriptor && (result == ['V'] || isFieldDescriptor result) then
        .ok ⟨parameters.map String.ofList, String.ofList result⟩
      else .error .malformed
    | [] => .error .malformed
  | _ => .error .malformed

end MethodDescriptor

end BeanClass
