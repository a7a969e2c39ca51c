import BeanClass.ClassFile.StackMap
import BeanClass.Proofs.Code.Lines
import BeanClass.Proofs.Descriptors
import BeanClass.Verification.Code

/-! # Executing code by stack depths

A state of execution is an offset with the depth of the operand stack there. What a line does to the
depth, where control goes from it and when it may be run is said here in natural numbers, apart from
any table or order of visits.
-/

namespace BeanClass

/-- The slots that the parameters take. -/
def MethodDescriptor.parameterSum (d : MethodDescriptor) : Nat :=
  (d.parameters.map fun p => (ValueKind.ofDescriptor p).slots.toNat).sum

/-- The slots that a frame has on the operand stack. -/
def StackFrame.stackSum : StackFrame → Nat
  | full _ _ stack => (stack.map fun type => type.slots.toNat).sum
  | sameLocals _ type => type.slots.toNat
  | _ => 0

/-- The offsets of the frames with the depths that they declare. -/
def StackMap.declared (stackMap : Option StackMap) : List (Nat × Nat) :=
  stackMap.elim [] fun t => t.offsets.zip (t.frames.map StackFrame.stackSum)

namespace CodeLine

/-- The kind of the field that the operand refers to. -/
def field? (pool : ConstantPool) (line : CodeLine) : Option ValueKind :=
  match pool.get? line.operand with
  | some (.fieldRef _ _) =>
    (pool.memberRef? line.operand).map fun member => .ofDescriptor member.descriptor
  | _ => none

/-- The descriptor of the method that the operand refers to. -/
def invoked? (pool : ConstantPool) (line : CodeLine) : Option MethodDescriptor :=
  match pool.get? line.operand with
  | some (.methodRef _ _) | some (.interfaceMethodRef _ _) =>
    (pool.memberRef? line.operand).bind fun member =>
      (MethodDescriptor.split member.descriptor).toOption
  | _ => none

/-- The slots that the line takes off the operand stack and those that it then puts on it, if the
pool has what the operand needs. -/
def effect? (pool : ConstantPool) (line : CodeLine) : Option (Nat × Nat) :=
  match line.opcode with
  | .load kind | .loadAt kind _ => some (0, kind.slots.toNat)
  | .dup => some (1, 2)
  | .new => (pool.className? line.operand).map fun _ => (0, 1)
  | .athrow | .ifNonNull => some (1, 0)
  | .ret kind => some (kind.elim 0 fun kind => kind.slots.toNat, 0)
  | .getField => (line.field? pool).map fun kind => (1, kind.slots.toNat)
  | .putField => (line.field? pool).map fun kind => (1 + kind.slots.toNat, 0)
  | .invokeSpecial => (line.invoked? pool).map fun d =>
    (1 + d.parameterSum, (Verification.resultKind d.result).elim 0 fun kind => kind.slots.toNat)

/-- Control does not go on behind the line. -/
def ends (line : CodeLine) : Bool :=
  match line.opcode with
  | .ret _ | .athrow => true
  | _ => false

end CodeLine

/-- A method body with the bounds that it declares. -/
structure Machine where
  pool : ConstantPool
  lines : List CodeLine
  /-- Offsets and the depths that are declared there. -/
  frames : List (Nat × Nat)
  maxStack : Nat
  maxLocals : Nat
  /-- The kind of the result. -/
  result : Option ValueKind

namespace Machine

variable {m : Machine}

/-- The line at an offset takes one depth to another without underflow. -/
def Runs (m : Machine) (line : CodeLine) (pc depth after : Nat) : Prop :=
  line ∈ m.lines ∧ line.pc = pc ∧
    ∃ pop push, line.effect? m.pool = some (pop, push) ∧ pop ≤ depth ∧ after = depth - pop + push

/-- Where control goes from a state: behind the line, or to the target of a branch. -/
inductive Step (m : Machine) : Nat × Nat → Nat × Nat → Prop
  | next {line : CodeLine} {pc depth after : Nat} : m.Runs line pc depth after →
    line.ends = false → Step m (pc, depth) (pc + line.size, after)
  | branch {line : CodeLine} {pc depth after target : Nat} : m.Runs line pc depth after →
    line.opcode = .ifNonNull → line.target = target → Step m (pc, depth) (target, after)

/-- The states of all executions, which start at offset 0 with an empty stack. -/
def Reaches (m : Machine) (pc depth : Nat) : Prop :=
  Relation.ReflTransGen m.Step (0, 0) (pc, depth)

/-- What the bounds, the result and the frames ask of a line. -/
structure Allows (m : Machine) (line : CodeLine) (depth after : Nat) : Prop where
  depth_le : depth ≤ m.maxStack
  after_le : after ≤ m.maxStack
  locals : ∀ kind slot, line.loaded? = some (kind, slot) →
    slot.toNat + kind.slots.toNat ≤ m.maxLocals
  result : ∀ kind, line.opcode = .ret kind → kind = m.result
  target : line.opcode = .ifNonNull → ∃ offset declared, line.target = (offset : Nat) ∧
    (offset, declared) ∈ m.frames
  frame : ∀ declared, (line.pc, declared) ∈ m.frames → declared = depth

/-- A state on a line that can be run and is allowed. -/
def Safe (m : Machine) (pc depth : Nat) : Prop :=
  ∃ line after, m.Runs line pc depth after ∧ m.Allows line depth after

/-- Every execution is safe, and paths that meet agree about the depth. -/
structure Accepted (m : Machine) : Prop where
  safe : ∀ {pc depth}, m.Reaches pc depth → m.Safe pc depth
  unique : ∀ {pc depth other}, m.Reaches pc depth → m.Reaches pc other → depth = other

/-- What holds at the start and along every step holds of all executions. -/
theorem Reaches.of_closed {pc depth : Nat} {inv : Nat → Nat → Prop} (hstart : inv 0 0)
    (hstep : ∀ {pc depth pc' depth'}, inv pc depth → m.Step (pc, depth) (pc', depth') →
      inv pc' depth') (h : m.Reaches pc depth) : inv pc depth := by
  unfold Reaches at h
  generalize hs : (pc, depth) = s at h
  induction h generalizing pc depth with
  | refl => cases hs; exact hstart
  | tail _ hlast ih =>
    subst hs
    exact hstep (ih rfl) hlast

/-- It is enough to give one depth for each offset, such that steps go from depths to depths. -/
theorem accepted_of_closed (inv : Nat → Nat → Prop) (hstart : inv 0 0)
    (hunique : ∀ {pc depth other}, inv pc depth → inv pc other → depth = other)
    (hsafe : ∀ {pc depth}, inv pc depth → m.Safe pc depth)
    (hstep : ∀ {pc depth pc' depth'}, inv pc depth → m.Step (pc, depth) (pc', depth') →
      inv pc' depth') : m.Accepted where
  safe h := hsafe (h.of_closed hstart hstep)
  unique h h' := hunique (h.of_closed hstart hstep) (h'.of_closed hstart hstep)

end Machine

end BeanClass
