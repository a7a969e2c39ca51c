import BeanClass.Proofs.Lowering.Code
import BeanClass.Proofs.Outcomes
import BeanClass.Proofs.Verification.Walk
import BeanClass.Verification.Method

/-! # Verifying lowered bodies

A symbolic body flows if each of its operations can run at a given depth and leaves the depth of what
comes next. The body is then accepted after it was lowered, whatever indices the pool chose.
-/

namespace BeanClass

open Instruction Lowering Verification

variable {pool : ConstantPool} {body : List Instruction} {line : CodeLine}
  {instruction : Instruction}

/-- The slots that a value with a frame entry takes. -/
def FrameType.slots : FrameType → Nat
  | long | double => 2
  | _ => 1

namespace Instruction

/-- The slots taken off the operand stack and those then put on it. -/
def effect? : Instruction → Option (Nat × Nat)
  | load kind _ => some (0, kind.slots.toNat)
  | getField field => some (1, (ValueKind.ofDescriptor field.descriptor).slots.toNat)
  | putField field => some (1 + (ValueKind.ofDescriptor field.descriptor).slots.toNat, 0)
  | ret kind => some (kind.elim 0 fun kind => kind.slots.toNat, 0)
  | dup => some (1, 2)
  | new _ => some (0, 1)
  | athrow | ifNonNull _ => some (1, 0)
  | invokeSpecial method => (MethodDescriptor.split method.descriptor).toOption.map fun d =>
    (1 + d.parameterSum, (resultKind d.result).elim 0 fun kind => kind.slots.toNat)
  | label _ | frame _ _ => none

/-- Control does not go on behind the instruction. -/
def ends : Instruction → Bool
  | ret _ | athrow => true
  | _ => false

end Instruction

namespace CodeLine

theorem opcode_of_loaded? {kind : ValueKind} {slot : UInt16}
    (h : line.loaded? = some (kind, slot)) :
    line.opcode = .load kind ∨ ∃ n, line.opcode = .loadAt kind n := by
  unfold loaded? at h
  split at h
  · cases h
    exact Or.inl ‹_›
  · cases h
    exact Or.inr ⟨_, ‹_›⟩
  · cases h

theorem Spells.effect?_eq (h : line.Spells pool body instruction) :
    line.effect? pool = instruction.effect? := by
  cases instruction with
  | load kind slot =>
    rcases opcode_of_loaded? h with h | ⟨n, h⟩
    · simp [effect?, h, Instruction.effect?]
    · simp [effect?, h, Instruction.effect?]
  | getField | putField =>
    obtain ⟨hopcode, ⟨i, j, hget⟩, hmember⟩ := h
    simp [effect?, hopcode, field?, hget, hmember, Instruction.effect?]
  | invokeSpecial =>
    obtain ⟨hopcode, ⟨i, j, hget⟩, hmember⟩ := h
    simp [effect?, hopcode, invoked?, hget, hmember, Instruction.effect?]
  | new =>
    obtain ⟨hopcode, hname⟩ := h
    simp [effect?, hopcode, hname, Instruction.effect?]
  | ifNonNull => simp [effect?, h.1, Instruction.effect?]
  | label | frame => cases h
  | _ =>
    simp only [Spells] at h
    simp [effect?, h, Instruction.effect?]

theorem Spells.ends_eq (h : line.Spells pool body instruction) : line.ends = instruction.ends := by
  cases instruction with
  | load kind slot =>
    rcases opcode_of_loaded? h with h | ⟨n, h⟩
    · simp [ends, h, Instruction.ends]
    · simp [ends, h, Instruction.ends]
  | label | frame => cases h
  | getField | putField | invokeSpecial | new | ifNonNull => simp [ends, h.1, Instruction.ends]
  | _ =>
    simp only [Spells] at h
    simp [ends, h, Instruction.ends]

/-- The instructions that lines with operands of their own or with an end of control stand for. -/
theorem Spells.shape (h : line.Spells pool body instruction) :
    match line.opcode with
    | .load kind | .loadAt kind _ => ∃ slot, instruction = .load kind slot
    | .ret kind => instruction = .ret kind
    | .ifNonNull => ∃ name, instruction = .ifNonNull name
    | _ => True := by
  cases instruction with
  | load kind slot =>
    rcases opcode_of_loaded? h with h | ⟨n, h⟩
    · simp [h]
    · simp [h]
  | label | frame => cases h
  | getField | putField | invokeSpecial | new | ifNonNull => simp [h.1]
  | _ =>
    simp only [Spells] at h
    simp [h]

theorem Spells.eq_load {kind : ValueKind} {slot : UInt16} (h : line.Spells pool body instruction)
    (hloaded : line.loaded? = some (kind, slot)) : instruction = .load kind slot := by
  have hload : ∃ slot, instruction = .load kind slot := by
    have hshape := h.shape
    rcases opcode_of_loaded? hloaded with hopcode | ⟨n, hopcode⟩
    · rwa [hopcode] at hshape
    · rwa [hopcode] at hshape
  obtain ⟨other, rfl⟩ := hload
  simp only [Spells, hloaded, Option.some_inj, Prod.mk.injEq, true_and] at h
  rw [h]

end CodeLine

/-- What a method declares about the executions of its body. -/
structure Limits where
  maxStack : Nat
  maxLocals : Nat
  /-- The kind of the result. -/
  result : Option ValueKind
  /-- The offsets of the labels. -/
  labels : List (UInt16 × Nat)
  /-- The offsets of the frames with the depths that they declare. -/
  frames : List (Nat × Nat)

namespace Limits

/-- What the limits ask of an instruction that leaves the depth `after`. -/
def Permits (l : Limits) (after : Nat) : Instruction → Prop
  | .load kind slot => slot.toNat + kind.slots.toNat ≤ l.maxLocals
  | .ret kind => kind = l.result
  | .ifNonNull name => ∃ offset, (name, offset) ∈ l.labels ∧ (offset, after) ∈ l.frames
  | _ => True

/-- The instruction at an offset can run at the given depth and leaves that of the next line. -/
def FlowsAt (l : Limits) (pc depth : Nat) (next : Option Nat) (instruction : Instruction) : Prop :=
  ∃ pop push, instruction.effect? = some (pop, push) ∧ pop ≤ depth ∧ depth ≤ l.maxStack ∧
    depth - pop + push ≤ l.maxStack ∧
    (instruction.ends = false → next = some (depth - pop + push)) ∧
    (∀ n, (pc, n) ∈ l.frames → n = depth) ∧ l.Permits (depth - pop + push) instruction

/-- Each operation flows, where operations start at offset `pc` and have the given depths. -/
def FlowsFrom (l : Limits) : (pc : Nat) → (depths : List Nat) → List Instruction → Prop
  | _, [], [] => True
  | pc, depth :: depths, instruction :: rest =>
    l.FlowsAt pc depth depths.head? instruction ∧ l.FlowsFrom (pc + instruction.size) depths rest
  | _, _, _ => False

variable {l : Limits} {depths : List Nat}

theorem FlowsFrom.length_eq {pc : Nat} {rest : List Instruction}
    (h : l.FlowsFrom pc depths rest) : depths.length = rest.length := by
  fun_induction FlowsFrom l pc depths rest with
  | case1 => rfl
  | case2 pc depth depths instruction rest ih => rw [List.length_cons, List.length_cons, ih h.2]
  | case3 => cases h

theorem FlowsFrom.at {pc k depth : Nat} {rest : List Instruction}
    (h : l.FlowsFrom pc depths rest) (hk : rest[k]? = some instruction)
    (hdepth : depths[k]? = some depth) :
    l.FlowsAt (pc + offsetAt rest k) depth depths[k + 1]? instruction := by
  fun_induction FlowsFrom l pc depths rest generalizing k with
  | case1 => cases hk
  | case2 pc first depths op rest ih =>
    cases k with
    | zero =>
      cases hk
      cases hdepth
      simpa [List.head?_eq_getElem?] using h.1
    | succ k =>
      have hlater := ih h.2 hk hdepth
      rwa [Nat.add_assoc, ← offsetAt_succ] at hlater
  | case3 => cases h

end Limits

namespace MethodModel

/-- The offsets of the frames with the depths that they declare. -/
def declared (m : MethodModel) : List (Nat × Nat) :=
  (placedFrames m.body).map fun f => (f.1, (f.2.2.map FrameType.slots).sum)

def limits (m : MethodModel) (d : MethodDescriptor) : Limits where
  maxStack := m.maxStack.toNat
  maxLocals := m.maxLocals.toNat
  result := resultKind d.result
  labels := (placed 0 m.body).filterMap declared?
  frames := m.declared

/-- An instance method whose operations flow with the given depths, and whose frames stand at
operations. -/
structure Flows (m : MethodModel) (d : MethodDescriptor) (depths : List Nat) : Prop where
  access : AccessFlag.isStatic.isIn m.access = false
  split : MethodDescriptor.split m.descriptor = .ok d
  parameters : d.parameterSum + 1 ≤ m.maxLocals.toNat
  start : depths.head? = some 0
  flows : (m.limits d).FlowsFrom 0 depths (operations m.body)
  frames : ∀ f ∈ m.declared, f.1 ∈ (placed 0 (operations m.body)).map Prod.fst
  fits : (placedFrames m.body).length < 0x10000 ∧
    ∀ f ∈ placedFrames m.body, f.2.1.length < 0x10000 ∧ f.2.2.length < 0x10000

variable {m : MethodModel} {d : MethodDescriptor} {depths : List Nat}

/-- One of the lines starts at the offset and has the depth. -/
def DepthAt (lines : List CodeLine) (depths : List Nat) (pc depth : Nat) : Prop :=
  ∃ (k : Nat) (line : CodeLine), lines[k]? = some line ∧ line.pc = pc ∧ depths[k]? = some depth

variable {a : RawAttribute} {c : CodeAttribute} {lines : List CodeLine} {stackMap : Option StackMap}

theorem Flows.exists_line (hf : m.Flows d depths) (h : Lowers pool a m c lines) {k : Nat}
    (hk : k < depths.length) : ∃ line, lines[k]? = some line := by
  rw [hf.flows.length_eq, ← h.spells.length_eq] at hk
  exact ⟨_, List.getElem?_eq_getElem hk⟩

theorem Flows.lt_length (hf : m.Flows d depths) (h : Lowers pool a m c lines) {k : Nat}
    (hline : lines[k]? = some line) : k < depths.length := by
  rw [hf.flows.length_eq, ← h.spells.length_eq]
  exact (List.getElem?_eq_some_iff.mp hline).1

theorem Flows.at_line (hf : m.Flows d depths) (h : Lowers pool a m c lines) {k depth : Nat}
    (hline : lines[k]? = some line) (hdepth : depths[k]? = some depth) :
    ∃ instruction, line.Spells pool m.body instruction ∧
      (m.limits d).FlowsAt line.pc depth depths[k + 1]? instruction := by
  obtain ⟨instruction, hinstruction, hspells⟩ := exists_related_at h.spells hline
  have hflows := hf.flows.at hinstruction hdepth
  rw [Nat.zero_add, ← h.pcs k line hline] at hflows
  exact ⟨instruction, hspells, hflows⟩

theorem Flows.depthAt_start (hf : m.Flows d depths) (h : Lowers pool a m c lines) :
    DepthAt lines depths 0 0 := by
  have hstart := hf.start
  rw [List.head?_eq_getElem?] at hstart
  obtain ⟨line, hline⟩ := hf.exists_line h (List.getElem?_eq_some_iff.mp hstart).1
  exact ⟨0, line, hline, h.pcs 0 line hline, hstart⟩

theorem Flows.depthAt_next (hf : m.Flows d depths) (h : Lowers pool a m c lines) {k after : Nat}
    (hline : lines[k]? = some line) (hafter : depths[k + 1]? = some after) :
    DepthAt lines depths (line.pc + line.size) after := by
  obtain ⟨next, hnext⟩ := hf.exists_line h (List.getElem?_eq_some_iff.mp hafter).1
  refine ⟨k + 1, next, hnext, ?_, hafter⟩
  have hsize := congrArg (·[k]?) h.sizes
  simp only [List.getElem?_map, hline, Option.map_some] at hsize
  rw [h.pcs _ next hnext, h.pcs _ line hline, offsetAt, offsetAt, List.take_add_one, List.map_append,
    List.sum_append, Nat.add_left_cancel_iff]
  cases hop : (operations m.body)[k]? with
  | none => rw [hop] at hsize; cases hsize
  | some op =>
    rw [hop, Option.map_some, Option.some_inj] at hsize
    simp [hsize]

/-- The depth that a frame declares is that of the line where it stands. -/
theorem Flows.depthAt_declared (hf : m.Flows d depths) (h : Lowers pool a m c lines)
    {offset n : Nat} (hn : (offset, n) ∈ m.declared) : DepthAt lines depths offset n := by
  obtain ⟨placed, hplaced, rfl⟩ := List.mem_map.mp (hf.frames _ hn)
  obtain ⟨k, hk⟩ := List.mem_iff_getElem?.mp hplaced
  rw [getElem?_placed, Option.map_eq_some_iff] at hk
  obtain ⟨instruction, hk, rfl⟩ := hk
  have hlt : k < depths.length := hf.flows.length_eq ▸ (List.getElem?_eq_some_iff.mp hk).1
  have hdepth := List.getElem?_eq_getElem hlt
  obtain ⟨line, hline⟩ := hf.exists_line h hlt
  have hpc := h.pcs k line hline
  obtain ⟨_, -, _, _, -, -, -, -, -, hframe, -⟩ := hf.at_line h hline hdepth
  rw [Nat.zero_add, ← hpc] at hn
  rw [Nat.zero_add, ← hpc, hframe n hn]
  exact ⟨k, line, hline, rfl, hdepth⟩

theorem target_of_mem {name : UInt16} {offset : Nat}
    (h : line.Spells pool m.body (.ifNonNull name))
    (hoffset : (name, offset) ∈ (placed 0 m.body).filterMap declared?) : line.target = offset := by
  obtain ⟨k, hk, rfl⟩ := mem_declared.mp hoffset
  exact h.2.2 k hk

theorem depthAt_unique (h : Lowers pool a m c lines) {pc depth other : Nat}
    (hdepth : DepthAt lines depths pc depth) (hother : DepthAt lines depths pc other) :
    depth = other := by
  obtain ⟨k, line, hline, rfl, hdepth⟩ := hdepth
  obtain ⟨j, line', hline', hpc, hother⟩ := hother
  have hsame : (lines.map CodeLine.pc)[k]? = (lines.map CodeLine.pc)[j]? := by
    rw [List.getElem?_map, List.getElem?_map, hline, hline', Option.map_some, Option.map_some, hpc]
  have hlt : k < (lines.map CodeLine.pc).length := by
    rw [List.length_map]
    exact (List.getElem?_eq_some_iff.mp hline).1
  have hkj : k = j := (List.getElem?_inj hlt (CodeLine.nodup_pcs h.scan)).mp hsame
  rw [← hkj, hdepth, Option.some_inj] at hother
  exact hother

theorem Flows.safe (hf : m.Flows d depths) (h : Lowers pool a m c lines)
    (hmap : StackMap.declared stackMap = m.declared) {pc depth : Nat}
    (hdepth : DepthAt lines depths pc depth) : (machineOf pool c stackMap d lines).Safe pc depth := by
  obtain ⟨k, line, hline, rfl, hdepth⟩ := hdepth
  obtain ⟨instruction, hspells, pop, push, heffect, hpop, hle, hafter, -, hframe, hpermits⟩ :=
    hf.at_line h hline hdepth
  have hframes : (m.limits d).frames = StackMap.declared stackMap := hmap.symm
  rw [limits, ← h.maxStack] at hle hafter
  have hshape := hspells.shape
  refine ⟨line, depth - pop + push, ⟨List.mem_of_getElem? hline, rfl, pop, push, ?_, hpop, rfl⟩,
    ⟨hle, hafter, fun kind slot hloaded => ?_, fun kind hret => ?_,
      fun hbranch => ?_, fun n hn => hframe n (hframes ▸ hn)⟩⟩
  · exact hspells.effect?_eq.trans heffect
  · rw [hspells.eq_load hloaded] at hpermits
    rwa [Limits.Permits, limits, ← h.maxLocals] at hpermits
  · rw [hret] at hshape
    subst hshape
    exact hpermits
  · rw [hbranch] at hshape
    obtain ⟨name, rfl⟩ := hshape
    obtain ⟨offset, hoffset, hdeclared⟩ := hpermits
    exact ⟨offset, _, target_of_mem hspells hoffset, hframes ▸ hdeclared⟩

theorem Flows.step (hf : m.Flows d depths) (h : Lowers pool a m c lines) {pc depth pc' depth' : Nat}
    (hdepth : DepthAt lines depths pc depth)
    (hstep : (machineOf pool c stackMap d lines).Step (pc, depth) (pc', depth')) :
    DepthAt lines depths pc' depth' := by
  obtain ⟨k, line, hline, rfl, hdepth⟩ := hdepth
  obtain ⟨instruction, hspells, pop, push, heffect, -, -, -, hnext, -, hpermits⟩ :=
    hf.at_line h hline hdepth
  -- the line that a step runs is the one that starts at the offset
  have hruns : ∀ {other after}, (machineOf pool c stackMap d lines).Runs other line.pc depth after →
      other = line ∧ after = depth - pop + push := by
    rintro other after ⟨hmem, hpc, pop', push', heffect', -, rfl⟩
    obtain rfl := CodeLine.eq_of_pc_eq h.scan hmem (List.mem_of_getElem? hline) hpc
    cases (hspells.effect?_eq.trans heffect).symm.trans heffect'
    exact ⟨rfl, rfl⟩
  cases hstep with
  | next hrun hends =>
    obtain ⟨rfl, rfl⟩ := hruns hrun
    exact hf.depthAt_next h hline (hnext (hspells.ends_eq ▸ hends))
  | branch hrun hbranch htarget =>
    obtain ⟨rfl, rfl⟩ := hruns hrun
    have hshape := hspells.shape
    rw [hbranch] at hshape
    obtain ⟨name, rfl⟩ := hshape
    obtain ⟨offset, hoffset, hdeclared⟩ := hpermits
    have hsame : offset = pc' := Int.ofNat_inj.mp ((target_of_mem hspells hoffset).symm.trans htarget)
    exact hsame ▸ hf.depthAt_declared h hdeclared

/-- A body that flows is safe in every execution. -/
theorem Flows.accepted (hf : m.Flows d depths) (h : Lowers pool a m c lines)
    (hmap : StackMap.declared stackMap = m.declared) :
    (machineOf pool c stackMap d lines).Accepted :=
  Machine.accepted_of_closed (DepthAt lines depths) (hf.depthAt_start h) (depthAt_unique h)
    (hf.safe h hmap) (hf.step h)

end MethodModel

namespace Lowering

theorem SlotShows.slots_eq {slot : SlotType} {type : FrameType} (h : SlotShows pool slot type) :
    slot.slots.toNat = type.slots := by
  unfold SlotShows at h
  split at h
  · rfl
  · rfl
  · rfl
  · rfl
  · rfl
  · cases h

theorem FrameShows.stackSum_eq {frame : StackFrame} {types : List FrameType × List FrameType}
    (h : FrameShows pool frame types) : frame.stackSum = (types.2.map FrameType.slots).sum := by
  obtain ⟨delta, locals, stack, rfl, -, hstack⟩ := h
  exact congrArg List.sum (map_eq_map_of_related hstack fun _ _ h => h.slots_eq)

/-- The stack map of a lowered body is found, and it declares the depths of the frames. -/
theorem stackMapOf_ok {c : CodeAttribute} {frames : List (Nat × List FrameType × List FrameType)}
    (h : MapShows pool c.attributes frames) (hlength : frames.length < 0x10000)
    (hfits : ∀ f ∈ frames, f.2.1.length < 0x10000 ∧ f.2.2.length < 0x10000) :
    ∃ stackMap, stackMapOf pool c = .ok stackMap ∧
      StackMap.declared stackMap = frames.map fun f => (f.1, (f.2.2.map FrameType.slots).sum) := by
  rcases h.decode hlength hfits with ⟨rfl, hattributes⟩ |
    ⟨table, t, -, hattributes, hname, hdecode, hoffsets, hframes⟩
  · exact ⟨none, by simp [stackMapOf, hattributes], rfl⟩
  · have hsums : t.frames.map StackFrame.stackSum =
        frames.map fun f => (f.2.2.map FrameType.slots).sum := by
      rw [map_eq_map_of_related hframes fun _ _ h => h.stackSum_eq, List.map_map]
      rfl
    refine ⟨some t, ?_, ?_⟩
    · simp [stackMapOf, hattributes, hname, hdecode, Except.mapError, bind, Except.bind]
    · rw [StackMap.declared, Option.elim_some, hoffsets, hsums]
      exact List.zip_map'

end Lowering

namespace MethodModel

variable {m : MethodModel} {d : MethodDescriptor} {depths : List Nat} {a : RawAttribute}
  {c : CodeAttribute} {lines : List CodeLine} {stackMap : Option StackMap}

theorem Flows.le_maxStack (hf : m.Flows d depths) (h : Lowers pool a m c lines) {pc depth : Nat}
    (hdepth : DepthAt lines depths pc depth) : depth ≤ m.maxStack.toNat := by
  obtain ⟨k, line, hline, -, hdepth⟩ := hdepth
  obtain ⟨-, -, -, -, -, -, hle, -⟩ := hf.at_line h hline hdepth
  exact hle

theorem Flows.exists_target (hf : m.Flows d depths) (h : Lowers pool a m c lines)
    (hline : line ∈ lines) (hbranch : line.opcode = .ifNonNull) :
    ∃ other ∈ lines, line.target = other.pc := by
  obtain ⟨k, hk⟩ := List.mem_iff_getElem?.mp hline
  obtain ⟨_, hspells, pop, push, -, -, -, -, -, -, hpermits⟩ :=
    hf.at_line h hk (List.getElem?_eq_getElem (hf.lt_length h hk))
  have hshape := hspells.shape
  rw [hbranch] at hshape
  obtain ⟨name, rfl⟩ := hshape
  obtain ⟨offset, hoffset, hdeclared⟩ := hpermits
  obtain ⟨j, other, hother, rfl, -⟩ := hf.depthAt_declared h hdeclared
  exact ⟨other, List.mem_of_getElem? hother, target_of_mem hspells hoffset⟩

theorem Flows.acceptsCode (hf : m.Flows d depths) (h : Lowers pool a m c lines)
    (hmap : StackMap.declared stackMap = m.declared) :
    AcceptsCode pool c m.descriptor (AccessFlag.isStatic.isIn m.access) stackMap := by
  refine ⟨d, lines, hf.split, ?_, ?_, h.scan, fun line hline hbranch => hf.exists_target h hline hbranch,
    fun offset n hn => ?_, hf.accepted h hmap⟩
  · rw [hf.access, h.maxLocals]
    exact hf.parameters
  · intro hnil
    have hscan := h.scan
    rw [hnil, CodeLine.scan_nil, Option.some_inj] at hscan
    obtain ⟨k, line, hline, -, -⟩ := hf.depthAt_start h
    rw [← hscan] at hline
    cases hline
  · rw [hmap] at hn
    obtain ⟨k, line, hline, hpc, -⟩ := hf.depthAt_declared h hn
    exact ⟨line, List.mem_of_getElem? hline, hpc⟩

/-- A body that flows is verified after it was lowered. -/
theorem Flows.checkBody_ok (hf : m.Flows d depths) (h : Lowers pool a m c lines) :
    checkBody pool m.access m.name m.descriptor a.info = .ok () := by
  obtain ⟨stackMap, hfound, hmap⟩ := stackMapOf_ok h.attributes hf.fits.1 hf.fits.2
  have hdeclared : ∀ offset n, (offset, n) ∈ StackMap.declared stackMap → n < 0x10000 := by
    intro offset n hn
    have hle := hf.le_maxStack h (hf.depthAt_declared h (hmap ▸ hn))
    exact Nat.lt_of_le_of_lt hle m.maxStack.toNat_lt
  rw [checkBody, h.decode]
  simp only [bind, Except.bind, Except.mapError, hfound,
    checkCode_eq_ok_iff_fits.mpr ⟨hf.acceptsCode h hmap, hdeclared⟩]

end MethodModel

end BeanClass
