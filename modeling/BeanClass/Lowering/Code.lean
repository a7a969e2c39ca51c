import BeanClass.ClassFile.Attribute
import BeanClass.ClassFile.StackMap
import BeanClass.Lowering.Layout
import BeanClass.Opcode

/-! # Lowering method bodies

A body becomes a `Code` attribute. Constants are added to the pool in the order of the instructions.
-/

namespace BeanClass.Lowering

open ConstantPool (PoolM)

/-- The longest code array. -/
def maxCode : Nat := 65535

/-- A named attribute; its name is added to the pool after its payload is known. -/
def named (name : String) (info : List UInt8) : PoolM RawAttribute := do
  if 0x100000000 ≤ info.length then throw (.attributeTooLarge info.length)
  let nameIndex ← ConstantPool.addUtf8 name
  return ⟨nameIndex, info⟩

/-- An attribute that consists of one text. -/
def textAttribute (name text : String) : PoolM RawAttribute := do
  let index ← ConstantPool.addUtf8 text
  named name (be16 index)

/-- The bytes of one instruction at offset `pc`. -/
def emit (method : String) (layout : Layout) (pc : Nat) : Instruction → PoolM (List UInt8)
  | .load kind slot => do
    if 255 < slot then throw (.localOutOfBounds slot)
    let (opcode, operand) := Opcode.loadOf kind slot
    return opcode.toByte :: operand.toList
  | .getField field => do
    let index ← ConstantPool.addFieldRef field
    return Opcode.getField.toByte :: be16 index
  | .putField field => do
    let index ← ConstantPool.addFieldRef field
    return Opcode.putField.toByte :: be16 index
  | .ret kind => return [(Opcode.ret kind).toByte]
  | .dup => return [Opcode.dup.toByte]
  | .ifNonNull label =>
    match layout.find? label with
    | none => throw (.undefinedLabel method label)
    | some target => do
      let offset : Int := target - pc
      if offset < -32768 ∨ 32767 < offset then throw (.branchTooFar method offset)
      return Opcode.ifNonNull.toByte :: be16 (Int16.ofInt offset).toUInt16
  | .new className => do
    let index ← ConstantPool.addClass className
    return Opcode.new.toByte :: be16 index
  | .invokeSpecial target => do
    let index ← ConstantPool.addMethodRef target
    return Opcode.invokeSpecial.toByte :: be16 index
  | .athrow => return [Opcode.athrow.toByte]
  | .label _ | .frame _ _ => return []

/-- The bytes of a body from offset `pc` on; those of the instructions before are given in reverse
order. -/
def emitAll (method : String) (layout : Layout) :
    (pc : Nat) → (emitted : List (List UInt8)) → List Instruction → PoolM (List UInt8)
  | _, emitted, [], pool => .ok emitted.reverse.flatten pool
  | pc, emitted, instruction :: body, pool =>
    match emit method layout pc instruction pool with
    | .ok bytes pool => emitAll method layout (pc + bytes.length) (bytes :: emitted) body pool
    | .error e pool => .error e pool

def slotType : FrameType → PoolM SlotType
  | .integer => return .integer
  | .float => return .float
  | .long => return .long
  | .double => return .double
  | .object name => do
    let index ← ConstantPool.addClass name
    return .object index

/-- The frames of a body, in order. -/
def framesOf (body : List Instruction) : List (List FrameType × List FrameType) :=
  body.filterMap fun
    | .frame locals stack => some (locals, stack)
    | _ => none

/-- Full frames at the given offsets, of which the first may be `least`. Two frames at one offset
cannot be told apart by a distance and are refused. -/
def stackFrames (method : String) :
    (least : Nat) → List (Nat × List FrameType × List FrameType) → PoolM (List StackFrame)
  | _, [] => return []
  | least, (offset, locals, stack) :: frames => do
    if offset < least ∨ 65535 < offset - least then throw (.frameWithoutLabel method)
    let locals ← locals.mapM slotType
    let stack ← stack.mapM slotType
    let rest ← stackFrames method (offset + 1) frames
    return .full (UInt16.ofNat (offset - least)) locals stack :: rest

/-- The stack map of a body that has frames. -/
def stackMapAttributes (method : String) (frames : List (Nat × List FrameType × List FrameType)) :
    PoolM (List RawAttribute) :=
  if frames.isEmpty then return []
  else do
    let frames ← stackFrames method 0 frames
    let table ← named "StackMapTable" (StackMap.mk frames).encode
    return [table]

/-- The `Code` attribute of a method. -/
def codeAttribute (method : MethodModel) : PoolM RawAttribute :=
  match Layout.ofBody method.name method.body with
  | .error e => throw e
  | .ok layout => do
    let code ← emitAll method.name layout 0 [] method.body
    if maxCode < code.length then throw (.codeTooLarge method.name code.length)
    let attributes ← stackMapAttributes method.name (layout.frames.zip (framesOf method.body))
    named "Code" (CodeAttribute.mk method.maxStack method.maxLocals code [] attributes).encode

end BeanClass.Lowering
