import BeanClass.ClassFile.StackMap
import BeanClass.Opcode
import BeanClass.Verification.Pool

/-! # Verifying code

Every reachable instruction is visited once with the depth of the operand stack in front of it. The
depths have to agree wherever paths meet, and with the stack map.
-/

namespace BeanClass.Verification

/-- What ends verification without a verdict. -/
inductive Crash where
  /-- A method descriptor cannot be cut between characters. -/
  | splitsCharacter
  /-- A number of slots does not fit into 16 bits. -/
  | slotOverflow
  deriving DecidableEq, Repr

def Crash.message : Crash → String
  | splitsCharacter => "A method descriptor has a parameter that ends inside a character"
  | slotOverflow => "A number of slots exceeds 65535"

inductive CodeError where
  | pool (error : PoolError)
  | emptyCode
  | unsupportedOpcode (pc : Nat) (opcode : UInt8)
  | truncated (pc : Nat)
  | invalidDescriptor (descriptor : String)
  | badBranchTarget (pc : Nat) (target : Int)
  | stackUnderflow (pc : Nat)
  | stackOverflow (pc : Nat) (depth maxStack : UInt16)
  | localOutOfRange (pc : Nat) (index maxLocals : UInt16)
  | parametersExceedLocals (needed maxLocals : UInt16)
  | inconsistentStack (pc : Nat) (expected found : UInt16)
  | fallsOffEnd
  | returnMismatch (pc : Nat) (expected found : Opcode)
  | missingFrame (pc : Nat)
  | frameNotAtInstruction (offset : Nat)
  | frameStackMismatch (offset : Nat) (declared simulated : UInt16)
  | crash (cause : Crash)
  deriving DecidableEq, Repr

def CodeError.message : CodeError → String
  | pool error => error.message
  | emptyCode => "Empty code array"
  | unsupportedOpcode pc opcode => s!"Unsupported opcode 0x{Text.hex 2 opcode.toNat} at {pc}"
  | truncated pc => s!"Truncated instruction at {pc}"
  | invalidDescriptor descriptor => s!"Invalid method descriptor '{descriptor}'"
  | badBranchTarget pc target =>
    s!"Branch at {pc} targets {target}, which is not an instruction"
  | stackUnderflow pc => s!"Operand stack underflow at {pc}"
  | stackOverflow pc depth maxStack =>
    s!"Operand stack depth {depth} at {pc} exceeds max_stack {maxStack}"
  | localOutOfRange pc index maxLocals =>
    s!"Local {index} used at {pc} is outside max_locals {maxLocals}"
  | parametersExceedLocals needed maxLocals =>
    s!"Parameters need {needed} locals but max_locals is {maxLocals}"
  | inconsistentStack pc expected found =>
    s!"Stack depth at {pc} is {found} on one path and {expected} on another"
  | fallsOffEnd => "Execution falls off the end of the code"
  | returnMismatch pc expected found =>
    s!"Return at {pc} is {found.mnemonic}, descriptor needs {expected.mnemonic}"
  | missingFrame pc => s!"Branch target {pc} has no stack map frame"
  | frameNotAtInstruction offset =>
    s!"Stack map frame at {offset} is not on an instruction boundary"
  | frameStackMismatch offset declared simulated =>
    s!"Stack map frame at {offset} declares {declared} stack slots, simulation has {simulated}"
  | crash cause => cause.message

/-- The crash that is passed off as an error, if it is one. -/
def CodeError.crash? : CodeError → Option Crash
  | crash cause => some cause
  | _ => none

/-- Adds slots, which are counted in 16 bits. -/
def addSlots (m n : UInt16) : Except CodeError UInt16 :=
  if m.toNat + n.toNat < 0x10000 then .ok (m + n) else .error (.crash .slotOverflow)

def sumSlots (slots : List UInt16) : Except CodeError UInt16 :=
  slots.foldlM addSlots 0

/-- A decoded instruction; an operand that it does not have is 0. -/
structure Insn where
  opcode : Opcode
  operand : UInt16
  target : Option Nat
  deriving DecidableEq, Repr

def Insn.length (insn : Insn) : Nat :=
  1 + insn.opcode.operandCount

/-- The instruction that starts at each offset of a code array, if one does. -/
abbrev CodeTable := Array (Option Insn)

/-- Decodes instructions from offset `pc` on behind those found before. -/
def decodeFrom : (pc : Nat) → CodeTable → List UInt8 → Except CodeError CodeTable
  | _, table, [] => .ok table
  | pc, table, byte :: rest =>
    match Opcode.ofByte? byte with
    | none => .error (.unsupportedOpcode pc byte)
    | some opcode =>
      match opcode.operandCount, rest with
      | 0, rest => decodeFrom (pc + 1) (table.push (some ⟨opcode, 0, none⟩)) rest
      | 1, a :: rest =>
        decodeFrom (pc + 2) ((table.push (some ⟨opcode, a.toUInt16, none⟩)).push none) rest
      | 2, a :: b :: rest =>
        let operand := join16 a b
        let target : Int := pc + operand.toInt16.toInt
        if opcode = .ifNonNull ∧ target < 0 then .error (.badBranchTarget pc target)
        else
          let target := if opcode = .ifNonNull then some target.toNat else none
          decodeFrom (pc + 3)
            (((table.push (some ⟨opcode, operand, target⟩)).push none).push none) rest
      | _, _ => .error (.truncated pc)

def CodeTable.hasInsn (table : CodeTable) (pc : Nat) : Bool :=
  match table[pc]? with
  | some (some _) => true
  | _ => false

/-- The first instruction whose branch does not go to an instruction. -/
def badBranch? (table : CodeTable) : Option (Nat × Nat) :=
  table.toList.zipIdx.findSome? fun (slot, pc) => do
    let insn ← slot
    let target ← insn.target
    if table.hasInsn target then none else some (pc, target)

def decodeCode (code : List UInt8) : Except CodeError CodeTable :=
  if code.isEmpty then .error .emptyCode
  else do
    let table ← decodeFrom 0 #[] code
    match badBranch? table with
    | some (pc, target) => .error (.badBranchTarget pc target)
    | none => .ok table

/-- The depth of the operand stack that frames declare, by offset. -/
abbrev FrameDepths := Array (Option UInt16)

/-- The slots that a frame has on the operand stack. -/
def frameSlots : StackFrame → Except CodeError UInt16
  | .full _ _ stack => sumSlots (stack.map SlotType.slots)
  | .sameLocals _ type => .ok type.slots
  | _ => .ok 0

/-- Enters frames at their offsets, each of which has to start an instruction. -/
def enterFrames (table : CodeTable) :
    FrameDepths → List (Nat × StackFrame) → Except CodeError FrameDepths
  | depths, [] => .ok depths
  | depths, (offset, frame) :: frames =>
    if table.hasInsn offset then
      match frameSlots frame with
      | .ok slots => enterFrames table (depths.setIfInBounds offset (some slots)) frames
      | .error e => .error e
    else .error (.frameNotAtInstruction offset)

def frameDepths (table : CodeTable) (stackMap : Option StackMap) : Except CodeError FrameDepths :=
  let empty := Array.replicate table.size none
  match stackMap with
  | none => .ok empty
  | some t => enterFrames table empty (t.offsets.zip t.frames)

/-- What a method body is verified against. -/
structure CodeContext where
  pool : ConstantPool
  maxStack : UInt16
  maxLocals : UInt16
  /-- The kind of the result. -/
  result : Option ValueKind
  table : CodeTable
  frames : FrameDepths

/-- The slots that parameters take. -/
def parameterSlots (parameters : List String) : Except CodeError UInt16 :=
  sumSlots (parameters.map fun p => (ValueKind.ofDescriptor p).slots)

/-- The local variables that a method needs for its parameters and its receiver, if it has one. -/
def neededSlots (d : MethodDescriptor) (isStatic : Bool) : Except CodeError UInt16 := do
  addSlots (← parameterSlots d.parameters) (if isStatic then 0 else 1)

/-- The slots that a call takes off the operand stack, the one of the object included. -/
def calledSlots (d : MethodDescriptor) : Except CodeError UInt16 := do
  addSlots 1 (← parameterSlots d.parameters)

def resultKind (descriptor : String) : Option ValueKind :=
  if descriptor = "V" then none else some (ValueKind.ofDescriptor descriptor)

def splitDescriptor (descriptor : String) : Except CodeError MethodDescriptor :=
  match MethodDescriptor.split descriptor with
  | .ok d => .ok d
  | .error .malformed => .error (.invalidDescriptor descriptor)
  | .error .splitsCharacter => .error (.crash .splitsCharacter)

/-- The descriptor of the member that a constant of the right kind refers to. -/
def memberDescriptor (pool : ConstantPool) (index : UInt16) (isKind : Constant → Bool) :
    Except CodeError String :=
  let found := pool.get? index
  if found.any isKind then
    match pool.memberRef? index with
    | some member => .ok member.descriptor
    | none => .error (.pool (.invalidKind index))
  else .error (.pool (.at index found))

def isFieldRef : Constant → Bool
  | .fieldRef _ _ => true
  | _ => false

def isMethodRef : Constant → Bool
  | .methodRef _ _ | .interfaceMethodRef _ _ => true
  | _ => false

namespace CodeContext

def loadEffect (ctx : CodeContext) (pc : Nat) (kind : ValueKind) (index : UInt16) :
    Except CodeError (UInt16 × UInt16) := do
  let top ← addSlots index kind.slots
  if ctx.maxLocals < top then .error (.localOutOfRange pc index ctx.maxLocals)
  else .ok (0, kind.slots)

/-- The slots that an instruction takes off the operand stack and those that it then puts on it. -/
def effect (ctx : CodeContext) (pc : Nat) (insn : Insn) : Except CodeError (UInt16 × UInt16) :=
  match insn.opcode with
  | .load kind => ctx.loadEffect pc kind insn.operand
  | .loadAt kind slot => ctx.loadEffect pc kind (UInt16.ofNat slot)
  | .dup => .ok (1, 2)
  | .new =>
    match classAt ctx.pool insn.operand with
    | .ok _ => .ok (0, 1)
    | .error e => .error (.pool e)
  | .athrow | .ifNonNull => .ok (1, 0)
  | .ret none => .ok (0, 0)
  | .ret (some kind) => .ok (kind.slots, 0)
  | .getField => do
    let descriptor ← memberDescriptor ctx.pool insn.operand isFieldRef
    .ok (1, (ValueKind.ofDescriptor descriptor).slots)
  | .putField => do
    let descriptor ← memberDescriptor ctx.pool insn.operand isFieldRef
    .ok (1 + (ValueKind.ofDescriptor descriptor).slots, 0)
  | .invokeSpecial => do
    let descriptor ← memberDescriptor ctx.pool insn.operand isMethodRef
    let d ← splitDescriptor descriptor
    let pop ← calledSlots d
    .ok (pop, (resultKind d.result).elim 0 ValueKind.slots)

/-- The depth behind an instruction, if the stack is deep enough for it and never too deep. -/
def depthAfter (ctx : CodeContext) (pc : Nat) (depth : UInt16) (insn : Insn) :
    Except CodeError UInt16 := do
  let (pop, push) ← ctx.effect pc insn
  if depth < pop then .error (.stackUnderflow pc)
  else
    let after ← addSlots (depth - pop) push
    if ctx.maxStack < after ∨ ctx.maxStack < depth then
      .error (.stackOverflow pc (max after depth) ctx.maxStack)
    else .ok after

/-- The offsets that control reaches from an instruction, the following one first, each with the
depth there. -/
def successors (ctx : CodeContext) (pc : Nat) (insn : Insn) (after : UInt16) :
    Except CodeError (List (Nat × UInt16)) :=
  match insn.opcode with
  | .ret kind =>
    if kind = ctx.result then .ok []
    else .error (.returnMismatch pc (.ret ctx.result) (.ret kind))
  | .athrow => .ok []
  | _ =>
    match insn.target with
    | none => .ok [(pc + insn.length, after)]
    | some target =>
      match ctx.frames[target]? with
      | some (some _) => .ok [(pc + insn.length, after), (target, after)]
      | _ => .error (.missingFrame target)

/-- Runs the instruction at an offset that is reached with the given depth. -/
def step (ctx : CodeContext) (pc : Nat) (depth : UInt16) :
    Except CodeError (List (Nat × UInt16)) :=
  match ctx.frames[pc]?.join, ctx.table[pc]?.join with
  | _, none => .error .fallsOffEnd
  | none, some insn => ctx.depthAfter pc depth insn >>= ctx.successors pc insn
  | some declared, some insn =>
    if declared = depth then ctx.depthAfter pc depth insn >>= ctx.successors pc insn
    else .error (.frameStackMismatch pc declared depth)

theorem length_successors_le {ctx : CodeContext} {pc : Nat} {insn : Insn} {after : UInt16}
    {next : List (Nat × UInt16)} (h : ctx.successors pc insn after = .ok next) :
    next.length ≤ 2 := by
  unfold successors at h
  grind

theorem length_step_le {ctx : CodeContext} {pc : Nat} {depth : UInt16} {next : List (Nat × UInt16)}
    (h : ctx.step pc depth = .ok next) : next.length ≤ 2 := by
  have run : ∀ insn, (ctx.depthAfter pc depth insn >>= ctx.successors pc insn) = .ok next →
      next.length ≤ 2 := by
    intro insn h
    cases hd : ctx.depthAfter pc depth insn with
    | error e => rw [hd] at h; cases h
    | ok after => rw [hd] at h; exact length_successors_le h
  unfold step at h
  split at h
  · cases h
  · exact run _ h
  · split at h
    · exact run _ h
    · cases h

/-- Visits what is left to do, the head of the list first. `depths` holds the depth at every offset
that was visited before. -/
def walk (ctx : CodeContext) (depths : Array (Option UInt16)) (work : List (Nat × UInt16)) :
    Except CodeError Unit :=
  match work with
  | [] => .ok ()
  | (pc, depth) :: work =>
    if h : pc < depths.size then
      match _hseen : depths[pc] with
      | some seen =>
        if seen = depth then walk ctx depths work
        else .error (.inconsistentStack pc seen depth)
      | none =>
        match _hstep : ctx.step pc depth with
        | .error e => .error e
        | .ok next => walk ctx (depths.set pc (some depth)) (next ++ work)
    else .error .fallsOffEnd
termination_by 2 * depths.countP Option.isNone + work.length
decreasing_by
  · simp
  · have hlen := length_step_le _hstep
    have hcount := Array.boole_getElem_le_countP (p := Option.isNone) h
    simp only [Array.countP_set, _hseen, Option.isNone_none, Option.isNone_some,
      List.length_append, List.length_cons, if_true] at *
    grind

end CodeContext

/-- Verifies the body of a method. -/
def checkCode (pool : ConstantPool) (code : CodeAttribute) (descriptor : String) (isStatic : Bool)
    (stackMap : Option StackMap) : Except CodeError Unit := do
  let d ← splitDescriptor descriptor
  let needed ← neededSlots d isStatic
  if code.maxLocals < needed then .error (.parametersExceedLocals needed code.maxLocals)
  else
    let table ← decodeCode code.code
    let frames ← frameDepths table stackMap
    let ctx : CodeContext :=
      { pool, maxStack := code.maxStack, maxLocals := code.maxLocals,
        result := resultKind d.result, table, frames }
    ctx.walk (Array.replicate table.size none) [(0, 0)]

end BeanClass.Verification
