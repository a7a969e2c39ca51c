import BeanClass.ClassFile.Pool
import BeanClass.Descriptor

/-! # Symbolic instructions

Instructions name classes and members by text and branch to labels; indices and offsets are chosen
when a method is lowered.
-/

namespace BeanClass

/-- The type of a frame entry, where `object` has an internal name or an array descriptor. -/
inductive FrameType where
  | integer
  | float
  | long
  | double
  | object (name : String)
  deriving DecidableEq, Repr

/-- The frame entry of a value with the given field descriptor. -/
def FrameType.ofDescriptor (descriptor : String) : FrameType :=
  match ValueKind.ofDescriptor descriptor with
  | .int => integer
  | .float => float
  | .long => long
  | .double => double
  | .reference =>
    match descriptor.toList with
    | 'L' :: s => if s.getLast? = some ';' then object (String.ofList s.dropLast) else object descriptor
    | _ => object descriptor

inductive Instruction where
  | load (kind : ValueKind) (slot : UInt16)
  | getField (field : MemberRef)
  | putField (field : MemberRef)
  /-- Returns nothing if no kind is given. -/
  | ret (kind : Option ValueKind)
  | dup
  | ifNonNull (label : UInt16)
  | new (className : String)
  | invokeSpecial (method : MemberRef)
  | athrow
  /-- Marks the position of the next instruction. -/
  | label (label : UInt16)
  /-- Describes local variables and operand stack at the label before it. -/
  | frame (locals stack : List FrameType)
  deriving DecidableEq, Repr

/-- The number of bytes in a code array. -/
def Instruction.size : Instruction → Nat
  | load _ slot => if slot ≤ 3 then 1 else 2
  | getField _ | putField _ | ifNonNull _ | new _ | invokeSpecial _ => 3
  | ret _ | dup | athrow => 1
  | label _ | frame _ _ => 0

end BeanClass
