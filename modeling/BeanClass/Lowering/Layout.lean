import BeanClass.Model.Class

/-! # Layout of a method body

The offsets of labels and frames in the code array that a body will have.
-/

namespace BeanClass

/-- The offsets of the labels, and those of the frames in the order of the body. -/
structure Layout where
  labels : List (UInt16 × Nat)
  frames : List Nat
  deriving DecidableEq, Repr

namespace Layout

def find? (layout : Layout) (label : UInt16) : Option Nat :=
  layout.labels.lookup label

/-- Lays out a body from offset `pc` on. `atLabel` says whether a label stands right before, and
labels and frames found before are given in reverse order. -/
def ofBodyFrom (method : String) :
    (pc : Nat) → (atLabel : Bool) → List (UInt16 × Nat) → List Nat → List Instruction →
      Except EncodeError Layout
  | _, _, labels, frames, [] => .ok ⟨labels.reverse, frames.reverse⟩
  | pc, atLabel, labels, frames, instruction :: body =>
    match instruction with
    | .label label =>
      if (labels.lookup label).isSome then .error (.duplicateLabel method label)
      else ofBodyFrom method pc true ((label, pc) :: labels) frames body
    | .frame _ _ =>
      if atLabel then ofBodyFrom method pc false labels (pc :: frames) body
      else .error (.frameWithoutLabel method)
    | instruction => ofBodyFrom method (pc + instruction.size) false labels frames body

/-- A label may be declared once, and a frame has to stand right behind a label. -/
def ofBody (method : String) (body : List Instruction) : Except EncodeError Layout :=
  ofBodyFrom method 0 false [] [] body

end Layout

end BeanClass
