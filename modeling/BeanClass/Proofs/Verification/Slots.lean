import BeanClass.Proofs.Verification.Visits

/-! # Sums of slots

The sums of slots that verification takes on a method body, as natural numbers. The index of a local
variable with its slots always fits into 16 bits. Every other sum fits as well if descriptors, operand
stacks of frames and the declared stack are somewhat smaller than a class file may have them.
-/

namespace BeanClass

theorem SlotType.slots_le_two (type : SlotType) : type.slots.toNat ≤ 2 := by
  unfold slots
  split <;> decide

namespace Verification

/-- An instruction of a method body is run in a state. -/
structure Executes (pool : ConstantPool) (code : CodeAttribute) (descriptor : String)
    (stackMap : Option StackMap) (ctx : CodeContext) (pc : Nat) (depth : UInt16) (insn : Insn) :
    Prop where
  context : ∃ d table frames, MethodDescriptor.split descriptor = .ok d ∧
    decodeCode code.code = .ok table ∧ frameDepths table stackMap = .ok frames ∧
    ctx = ⟨pool, code.maxStack, code.maxLocals, resultKind d.result, table, frames⟩
  visits : Visits ctx pc depth
  insn : ctx.table[pc]?.join = some insn

/-- The sums of slots that verification takes for an instruction that is run: those of a local variable
that it loads, of a call, and of the operand stack behind it. -/
inductive Insn.Counts (ctx : CodeContext) (pc : Nat) (depth : UInt16) (insn : Insn) : Nat → Prop
  | loaded {kind : ValueKind} {index : UInt16} : insn.loaded? = some (kind, index) →
    insn.Counts ctx pc depth (index.toNat + kind.slots.toNat)
  | called {text : String} {d : MethodDescriptor} : insn.opcode = .invokeSpecial →
    memberDescriptor ctx.pool insn.operand isMethodRef = .ok text →
    MethodDescriptor.split text = .ok d → insn.Counts ctx pc depth (1 + d.parameterSum)
  | pushed {pop push : UInt16} : ctx.effect pc insn = .ok (pop, push) → pop ≤ depth →
    insn.Counts ctx pc depth (depth.toNat - pop.toNat + push.toNat)

/-- The sums of slots that verification takes on a method body: those of the parameters with the
receiver, of the operand stack of a frame, and of the instructions that are run. -/
inductive BodyCounts (pool : ConstantPool) (code : CodeAttribute) (descriptor : String)
    (isStatic : Bool) (stackMap : Option StackMap) : Nat → Prop
  | needed {d : MethodDescriptor} : MethodDescriptor.split descriptor = .ok d →
    BodyCounts pool code descriptor isStatic stackMap (d.parameterSum + if isStatic then 0 else 1)
  | declared {t : StackMap} {frame : StackFrame} : t ∈ stackMap → frame ∈ t.frames →
    BodyCounts pool code descriptor isStatic stackMap frame.stackSum
  | run {ctx : CodeContext} {pc : Nat} {depth : UInt16} {insn : Insn} {n : Nat} :
    Executes pool code descriptor stackMap ctx pc depth insn → insn.Counts ctx pc depth n →
    BodyCounts pool code descriptor isStatic stackMap n

/-- Lengths for which no number of slots needs more than 16 bits. -/
structure Bounded (pool : ConstantPool) (code : CodeAttribute) (descriptor : String)
    (stackMap : Option StackMap) : Prop where
  maxStack : code.maxStack.toNat ≤ 65533
  descriptor : descriptor.toList.length ≤ 32770
  invoked : ∀ index text, memberDescriptor pool index isMethodRef = .ok text →
    text.toList.length ≤ 32770
  frames : ∀ t ∈ stackMap, ∀ delta locals stack, .full delta locals stack ∈ t.frames →
    stack.length ≤ 32767

variable {pool : ConstantPool} {code : CodeAttribute} {descriptor : String} {isStatic : Bool}
  {stackMap : Option StackMap} {ctx : CodeContext} {pc : Nat} {depth : UInt16} {insn : Insn}

theorem sum_slots_le {α : Type} {f : α → Nat} {l : List α} (h : ∀ a ∈ l, f a ≤ 2) :
    (l.map f).sum ≤ 2 * l.length := by
  have hle := List.sum_le_card_nsmul (l.map f) 2 (by simpa using h)
  rwa [List.length_map, smul_eq_mul, Nat.mul_comm] at hle

theorem length_le_flatten {ps : List (List Char)} (h : ∀ p ∈ ps, p ≠ []) :
    ps.length ≤ ps.flatten.length := by
  have hone : ∀ n ∈ ps.map List.length, 1 ≤ n := by
    intro n hn
    obtain ⟨p, hp, rfl⟩ := List.mem_map.mp hn
    exact List.length_pos_iff.mpr (h p hp)
  have hle := List.length_le_sum_of_one_le _ hone
  rwa [List.length_map, ← List.length_flatten] at hle

/-- A parameter takes at most two slots and at least one character. -/
theorem parameterSum_le {d : MethodDescriptor} (h : MethodDescriptor.split descriptor = .ok d) :
    d.parameterSum + 6 ≤ 2 * descriptor.toList.length := by
  obtain ⟨parameters, result, rfl, htext, hparameters, hresult⟩ := MethodDescriptor.split_eq_ok h
  have hne : ∀ s : List Char, isFieldDescriptor s = true → s ≠ [] := by
    rintro s hs rfl
    exact absurd hs (by decide)
  have hresultne : result ≠ [] := by
    rcases hresult with rfl | hresult
    · exact List.cons_ne_nil _ _
    · exact hne _ hresult
  have hflatten := length_le_flatten fun p hp => hne p (hparameters p hp).1
  have hsum := sum_slots_le (f := fun p => (ValueKind.ofDescriptor p).slots.toNat)
    (l := parameters.map String.ofList) fun p _ => ValueKind.slots_le_two _
  have hpos := List.length_pos_iff.mpr hresultne
  rw [List.length_map] at hsum
  rw [htext]
  simp only [List.length_cons, List.length_append, MethodDescriptor.parameterSum]
  omega

theorem stackSum_lt {t : StackMap} {frame : StackFrame} (hframe : frame ∈ t.frames)
    (h : ∀ delta locals stack, .full delta locals stack ∈ t.frames → stack.length ≤ 32767) :
    frame.stackSum < 0x10000 := by
  cases frame with
  | full delta locals stack =>
    have hlength := h delta locals stack hframe
    have hsum := sum_slots_le (f := fun type : SlotType => type.slots.toNat) (l := stack)
      fun type _ => type.slots_le_two
    simp only [StackFrame.stackSum]
    omega
  | sameLocals delta type =>
    have hslots := type.slots_le_two
    simp only [StackFrame.stackSum]
    omega
  | _ => exact Nat.zero_lt_succ _

theorem Executes.pool_eq (h : Executes pool code descriptor stackMap ctx pc depth insn) :
    ctx.pool = pool := by
  obtain ⟨d, table, frames, -, -, -, rfl⟩ := h.context
  rfl

theorem Executes.maxStack_eq (h : Executes pool code descriptor stackMap ctx pc depth insn) :
    ctx.maxStack = code.maxStack := by
  obtain ⟨d, table, frames, -, -, -, rfl⟩ := h.context
  rfl

/-- No local variable has an index of more than one byte. -/
theorem Executes.loaded_le {kind : ValueKind} {index : UInt16}
    (h : Executes pool code descriptor stackMap ctx pc depth insn)
    (hloaded : insn.loaded? = some (kind, index)) : index.toNat + kind.slots.toNat ≤ 257 := by
  have hinsn := h.insn
  obtain ⟨d, table, frames, -, htable, -, rfl⟩ := h.context
  exact Nat.add_le_add (index_le htable hinsn hloaded) kind.slots_le_two

theorem effect_of_loaded {kind : ValueKind} {index : UInt16} (pc : Nat)
    (h : insn.loaded? = some (kind, index)) : ctx.effect pc insn = ctx.loadEffect pc kind index := by
  obtain ⟨opcode, operand, target⟩ := insn
  cases opcode with
  | load | loadAt =>
    cases h
    rfl
  | _ => cases h

/-- An instruction succeeds only if its sums fit into 16 bits. -/
theorem Insn.Counts.lt {n : Nat} {after : UInt16} (hn : insn.Counts ctx pc depth n)
    (h : ctx.depthAfter pc depth insn = .ok after) : n < 0x10000 := by
  obtain ⟨pop, push, heffect, -, hafter, -⟩ := depthAfter_eq_ok_iff_effect.mp h
  cases hn with
  | loaded hloaded =>
    rw [effect_of_loaded pc hloaded, CodeContext.loadEffect, addSlots_eq] at heffect
    obtain ⟨top, htop, -⟩ := bind_ok_iff.mp heffect
    exact exists_countSlots.mp ⟨top, htop⟩
  | called hopcode htext hd =>
    obtain ⟨opcode, operand, target⟩ := insn
    subst hopcode
    obtain ⟨text, htext', heffect⟩ := bind_ok_iff.mp heffect
    rw [htext] at htext'
    cases htext'
    rw [splitDescriptor_eq_ok.mpr hd, ok_bind, calledSlots_eq] at heffect
    obtain ⟨n, hn, -⟩ := bind_ok_iff.mp heffect
    exact exists_countSlots.mp ⟨n, hn⟩
  | pushed hpair =>
    rw [heffect] at hpair
    cases hpair
    rw [← hafter]
    exact after.toNat_lt

/-- The sums that verification takes on a body that it accepts fit into 16 bits. -/
theorem counts_lt_of_checkCode (h : checkCode pool code descriptor isStatic stackMap = .ok ()) {n : Nat}
    (hn : BodyCounts pool code descriptor isStatic stackMap n) : n < 0x10000 := by
  cases hn with
  | needed hd =>
    obtain ⟨hlocals, -⟩ := (checkCode_eq_ok_iff_walk hd).mp h
    exact Nat.lt_of_le_of_lt hlocals code.maxLocals.toNat_lt
  | declared ht hframe =>
    obtain ⟨-, hfits⟩ := checkCode_eq_ok_iff_fits.mp h
    cases ht
    obtain ⟨offset, hoffset⟩ := exists_declared hframe
    exact hfits offset _ hoffset
  | run hrun hn =>
    obtain ⟨⟨d, table, frames, hd, htable, hframes, rfl⟩, hvisits, hinsn⟩ := hrun
    obtain ⟨-, table', htable', frames', hframes', hwalk⟩ := (checkCode_eq_ok_iff_walk hd).mp h
    rw [htable] at htable'
    cases htable'
    rw [hframes] at hframes'
    cases hframes'
    obtain ⟨depths, hclosed⟩ := walk_start_eq_ok.mp hwalk
    obtain ⟨next, hnext, -⟩ := hclosed.2 _ _ (hvisits.eq_some hclosed)
    obtain ⟨found, hfound, -, after, hafter, -⟩ := step_eq_ok_iff_insn.mp hnext
    rw [hinsn] at hfound
    cases hfound
    exact hn.lt hafter

theorem Bounded.lt_of_counts (h : Bounded pool code descriptor stackMap) {n : Nat}
    (hn : BodyCounts pool code descriptor isStatic stackMap n) : n < 0x10000 := by
  cases hn with
  | needed hd =>
    have hsum := parameterSum_le hd
    have hlength := h.descriptor
    cases isStatic <;> simp <;> omega
  | declared ht hframe => exact stackSum_lt hframe (h.frames _ ht)
  | run hrun hn =>
    cases hn with
    | loaded hloaded => exact Nat.lt_of_le_of_lt (hrun.loaded_le hloaded) (by decide)
    | called _ htext hd =>
      have hsum := parameterSum_le hd
      have hlength := h.invoked _ _ (hrun.pool_eq ▸ htext)
      omega
    | pushed heffect hpop =>
      have hpush := push_le_two heffect
      have hdepth := UInt16.le_iff_toNat_le.mp hrun.visits.le_maxStack
      have hmax := h.maxStack
      rw [hrun.maxStack_eq] at hdepth
      omega

end Verification

end BeanClass
