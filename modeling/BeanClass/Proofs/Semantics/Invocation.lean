import BeanClass.Model.Assembly
import Mathlib

/-! # Invoking methods

The meaning of symbolic instructions: an activation has local variables, an operand stack and the heap
of all objects, and each step runs the instruction at its position. A step for which an instruction has
no meaning is stuck, and so is one that outgrows the stack that the method declares.
-/

namespace BeanClass

/-- The smaller integral types are held as `int`, and objects are known by their address. -/
inductive Value where
  | int (value : Int32)
  | long (value : Int64)
  | float (bits : UInt32)
  | double (bits : UInt64)
  | null
  | object (address : Nat)
  deriving DecidableEq, Repr

namespace Value

def kind : Value → ValueKind
  | int _ => .int
  | long _ => .long
  | float _ => .float
  | double _ => .double
  | null | object _ => .reference

def slots (v : Value) : Nat :=
  v.kind.slots.toNat

@[simp] theorem slots_null : null.slots = 1 := rfl

@[simp] theorem slots_object (address : Nat) : (object address).slots = 1 := rfl

/-- The local variables that an argument fills; behind a wide value one is left without a value. -/
def locals (v : Value) : List (Option Value) :=
  some v :: List.replicate (v.slots - 1) none

end Value

/-- The fields of an object are told apart by owner, name and descriptor. -/
structure Object where
  className : String
  fields : MemberRef → Option Value

/-- Objects by their address. -/
abbrev Heap := List Object

namespace Heap

def field? (heap : Heap) (address : Nat) (field : MemberRef) : Option Value :=
  heap[address]?.bind (·.fields field)

def store (heap : Heap) (address : Nat) (field : MemberRef) (v : Value) : Heap :=
  heap.modify address fun o => { o with fields := Function.update o.fields field (some v) }

end Heap

/-- The classes that are not assembled here: what their new objects hold, and what their constructors
do. A constructor may fill the fields of its receiver and create further objects, and leaves all other
objects as they are. -/
structure Platform where
  create : String → Object
  construct : (constructor : MemberRef) → (receiver : Nat) → (args : List Value) → Heap → Heap
  className_create : ∀ name, (create name).className = name
  className_construct : ∀ constructor receiver args heap o, heap[receiver]? = some o →
    ∃ p, (construct constructor receiver args heap)[receiver]? = some p ∧ p.className = o.className
  others_construct : ∀ constructor receiver args heap address o, address ≠ receiver →
    heap[address]? = some o → (construct constructor receiver args heap)[address]? = some o

/-- An exception leaves a method as the object that was thrown. -/
inductive Outcome where
  | returned (value : Option Value) (heap : Heap)
  | thrown (address : Nat) (heap : Heap)
  | stuck
  /-- The steps that were allowed did not suffice. -/
  | unfinished

structure Activation where
  /-- The number of instructions in front of the next one. -/
  position : Nat
  /-- The variables by slot. -/
  locals : List (Option Value)
  /-- The top comes first. -/
  stack : List Value
  heap : Heap

namespace Activation

section

variable (platform : Platform) (m : MethodModel)

/-- Goes on behind the instruction, if the stack does not outgrow its bound. -/
def next (a : Activation) (stack : List Value) (heap : Heap) : Activation ⊕ Outcome :=
  if (stack.map Value.slots).sum ≤ m.maxStack.toNat then
    .inl { a with position := a.position + 1, stack, heap }
  else .inr .stuck

/-- Takes the arguments for the given parameters, last to first, off the stack. -/
def takeArguments : List String → List Value → Option (List Value × List Value)
  | [], stack => some ([], stack)
  | parameter :: parameters, v :: stack =>
    if v.kind = .ofDescriptor parameter then
      (takeArguments parameters stack).map fun (args, stack) => (args ++ [v], stack)
    else none
  | _ :: _, [] => none

/-- The machine throws a new exception where an instruction needs an object and finds null. -/
def throwNull (heap : Heap) : Activation ⊕ Outcome :=
  .inr (.thrown heap.length (heap ++ [platform.create nullFailure]))

/-- Only constructors of other classes can be invoked. -/
def invoke (a : Activation) (method : MemberRef) : Activation ⊕ Outcome :=
  match MethodDescriptor.split method.descriptor with
  | .error _ => .inr .stuck
  | .ok d =>
    match takeArguments d.parameters.reverse a.stack with
    | some (args, .object address :: stack) =>
      if method.name = constructorName ∧ d.result = "V" then
        a.next m stack (platform.construct method address args a.heap)
      else .inr .stuck
    | some (_, .null :: _) => throwNull platform a.heap
    | _ => .inr .stuck

/-- Runs one instruction. -/
def step (a : Activation) : Activation ⊕ Outcome :=
  match m.body[a.position]?, a.stack with
  | some (.load kind slot), stack =>
    match a.locals[slot.toNat]? with
    | some (some v) => if v.kind = kind then a.next m (v :: stack) a.heap else .inr .stuck
    | _ => .inr .stuck
  | some (.getField field), .object address :: stack =>
    match a.heap.field? address field with
    | some v => a.next m (v :: stack) a.heap
    | none => .inr .stuck
  | some (.getField _), .null :: _ => throwNull platform a.heap
  | some (.putField field), v :: .object address :: stack =>
    if v.kind = .ofDescriptor field.descriptor ∧ (a.heap.field? address field).isSome then
      a.next m stack (a.heap.store address field v)
    else .inr .stuck
  | some (.putField _), _ :: .null :: _ => throwNull platform a.heap
  | some (.ret none), _ => .inr (.returned none a.heap)
  | some (.ret (some kind)), v :: _ =>
    if v.kind = kind then .inr (.returned (some v) a.heap) else .inr .stuck
  | some .dup, v :: stack => if v.slots = 1 then a.next m (v :: v :: stack) a.heap else .inr .stuck
  | some (.ifNonNull _), .null :: stack => a.next m stack a.heap
  | some (.ifNonNull label), .object _ :: stack =>
    match m.body.idxOf? (.label label) with
    | some position => .inl { a with position, stack }
    | none => .inr .stuck
  | some (.new className), stack =>
    a.next m (.object a.heap.length :: stack) (a.heap ++ [platform.create className])
  | some (.invokeSpecial method), _ => a.invoke platform m method
  | some .athrow, .object address :: _ => .inr (.thrown address a.heap)
  | some .athrow, .null :: _ => throwNull platform a.heap
  | some (.label _), stack | some (.frame _ _), stack => a.next m stack a.heap
  | _, _ => .inr .stuck

def run : (steps : Nat) → Activation → Outcome
  | 0, _ => .unfinished
  | steps + 1, a =>
    match a.step platform m with
    | .inl b => run steps b
    | .inr outcome => outcome

end

variable {platform : Platform} {m : MethodModel} {position address steps : Nat} {v : Value}
  {locals : List (Option Value)} {stack rest : List Value} {heap heap' : Heap}

/-- An instruction that goes on with a stack inside the bound takes one step. -/
theorem run_of_step
    (hstep : step platform m ⟨position, locals, stack, heap⟩ =
      next m ⟨position, locals, stack, heap⟩ rest heap')
    (hfits : (rest.map Value.slots).sum ≤ m.maxStack.toNat) :
    run platform m (steps + 1) ⟨position, locals, stack, heap⟩ =
      run platform m steps ⟨position + 1, locals, rest, heap'⟩ := by
  rw [run, hstep, next, if_pos hfits]

theorem run_load {kind : ValueKind} {slot : UInt16}
    (hbody : m.body[position]? = some (.load kind slot)) (hlocal : locals[slot.toNat]? = some (some v))
    (hkind : v.kind = kind) (hfits : ((v :: stack).map Value.slots).sum ≤ m.maxStack.toNat) :
    run platform m (steps + 1) ⟨position, locals, stack, heap⟩ =
      run platform m steps ⟨position + 1, locals, v :: stack, heap⟩ := by
  refine run_of_step ?_ hfits
  simp only [step, hbody, hlocal, if_pos hkind]

theorem run_getField {field : MemberRef} (hbody : m.body[position]? = some (.getField field))
    (hfield : heap.field? address field = some v)
    (hfits : ((v :: stack).map Value.slots).sum ≤ m.maxStack.toNat) :
    run platform m (steps + 1) ⟨position, locals, .object address :: stack, heap⟩ =
      run platform m steps ⟨position + 1, locals, v :: stack, heap⟩ := by
  refine run_of_step ?_ hfits
  simp only [step, hbody, hfield]

theorem run_putField {field : MemberRef} (hbody : m.body[position]? = some (.putField field))
    (hkind : v.kind = .ofDescriptor field.descriptor) (hfield : (heap.field? address field).isSome)
    (hfits : (stack.map Value.slots).sum ≤ m.maxStack.toNat) :
    run platform m (steps + 1) ⟨position, locals, v :: .object address :: stack, heap⟩ =
      run platform m steps ⟨position + 1, locals, stack, heap.store address field v⟩ := by
  refine run_of_step ?_ hfits
  simp only [step, hbody, if_pos (And.intro hkind hfield)]

theorem run_ret (hbody : m.body[position]? = some (.ret none)) :
    run platform m (steps + 1) ⟨position, locals, stack, heap⟩ = .returned none heap := by
  simp only [run, step, hbody]

theorem run_ret_value {kind : ValueKind} (hbody : m.body[position]? = some (.ret (some kind)))
    (hkind : v.kind = kind) :
    run platform m (steps + 1) ⟨position, locals, v :: stack, heap⟩ = .returned (some v) heap := by
  simp only [run, step, hbody, if_pos hkind]

theorem run_dup (hbody : m.body[position]? = some .dup) (hslots : v.slots = 1)
    (hfits : ((v :: v :: stack).map Value.slots).sum ≤ m.maxStack.toNat) :
    run platform m (steps + 1) ⟨position, locals, v :: stack, heap⟩ =
      run platform m steps ⟨position + 1, locals, v :: v :: stack, heap⟩ := by
  refine run_of_step ?_ hfits
  simp only [step, hbody, if_pos hslots]

theorem run_ifNonNull_null {label : UInt16} (hbody : m.body[position]? = some (.ifNonNull label))
    (hfits : (stack.map Value.slots).sum ≤ m.maxStack.toNat) :
    run platform m (steps + 1) ⟨position, locals, .null :: stack, heap⟩ =
      run platform m steps ⟨position + 1, locals, stack, heap⟩ := by
  refine run_of_step ?_ hfits
  simp only [step, hbody]

theorem run_ifNonNull_object {label : UInt16} {target : Nat}
    (hbody : m.body[position]? = some (.ifNonNull label))
    (htarget : m.body.idxOf? (.label label) = some target) :
    run platform m (steps + 1) ⟨position, locals, .object address :: stack, heap⟩ =
      run platform m steps ⟨target, locals, stack, heap⟩ := by
  simp only [run, step, hbody, htarget]

theorem run_new {className : String} (hbody : m.body[position]? = some (.new className))
    (hfits : ((Value.object heap.length :: stack).map Value.slots).sum ≤ m.maxStack.toNat) :
    run platform m (steps + 1) ⟨position, locals, stack, heap⟩ =
      run platform m steps ⟨position + 1, locals, .object heap.length :: stack,
        heap ++ [platform.create className]⟩ := by
  refine run_of_step ?_ hfits
  simp only [step, hbody]

theorem run_plainConstructor {owner : String}
    (hbody : m.body[position]? = some (.invokeSpecial (plainConstructor owner)))
    (hfits : (stack.map Value.slots).sum ≤ m.maxStack.toNat) :
    run platform m (steps + 1) ⟨position, locals, .object address :: stack, heap⟩ =
      run platform m steps ⟨position + 1, locals, stack,
        platform.construct (plainConstructor owner) address [] heap⟩ := by
  refine run_of_step ?_ hfits
  have hsplit : MethodDescriptor.split "()V" = .ok ⟨[], "V"⟩ := by decide
  simp only [step, hbody, invoke, plainConstructor, hsplit, List.reverse_nil, takeArguments]
  rfl

theorem run_athrow (hbody : m.body[position]? = some .athrow) :
    run platform m (steps + 1) ⟨position, locals, .object address :: stack, heap⟩ =
      .thrown address heap := by
  simp only [run, step, hbody]

theorem run_label {label : UInt16} (hbody : m.body[position]? = some (.label label))
    (hfits : (stack.map Value.slots).sum ≤ m.maxStack.toNat) :
    run platform m (steps + 1) ⟨position, locals, stack, heap⟩ =
      run platform m steps ⟨position + 1, locals, stack, heap⟩ := by
  refine run_of_step ?_ hfits
  simp only [step, hbody]

theorem run_frame {types stackTypes : List FrameType}
    (hbody : m.body[position]? = some (.frame types stackTypes))
    (hfits : (stack.map Value.slots).sum ≤ m.maxStack.toNat) :
    run platform m (steps + 1) ⟨position, locals, stack, heap⟩ =
      run platform m steps ⟨position + 1, locals, stack, heap⟩ := by
  refine run_of_step ?_ hfits
  simp only [step, hbody]

end Activation

/-- Invokes a method with arguments, the receiver first, which have to fit its local variables. -/
def MethodModel.invoke (platform : Platform) (m : MethodModel) (args : List Value) (heap : Heap)
    (steps : Nat) : Outcome :=
  if (args.map Value.slots).sum ≤ m.maxLocals.toNat then
    Activation.run platform m steps ⟨0, args.flatMap Value.locals, [], heap⟩
  else .stuck

end BeanClass
