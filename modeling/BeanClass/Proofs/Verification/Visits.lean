import BeanClass.Proofs.Verification.Walk

/-! # Visited states

A walk runs instructions in the states that steps lead to, and in no others. What these have on the
operand stack is within its bound, and no instruction puts more than two slots on it.
-/

namespace BeanClass.Verification

open CodeLine

variable {ctx : CodeContext} {pc : Nat} {depth pop push : UInt16} {insn : Insn}

/-- The local variable that an instruction loads from, with the kind of its value. -/
def Insn.loaded? (insn : Insn) : Option (ValueKind × UInt16) :=
  match insn.opcode with
  | .load kind => some (kind, insn.operand)
  | .loadAt kind slot => some (kind, UInt16.ofNat slot)
  | _ => none

/-- The states in which instructions are run: the start, and what steps lead to. -/
inductive Visits (ctx : CodeContext) : Nat → UInt16 → Prop
  | start : Visits ctx 0 0
  | step {pc : Nat} {depth : UInt16} {next : List (Nat × UInt16)} {s : Nat × UInt16} :
    Visits ctx pc depth → ctx.step pc depth = .ok next → s ∈ next → Visits ctx s.1 s.2

theorem index_le {code : List UInt8} {table : CodeTable} {kind : ValueKind} {index : UInt16}
    (hdecode : decodeCode code = .ok table) (hinsn : table[pc]?.join = some insn)
    (hloaded : insn.loaded? = some (kind, index)) : index.toNat ≤ 255 := by
  obtain ⟨-, lines, hscan, -, hcells⟩ := decodeCode_eq_ok.mp hdecode
  obtain ⟨line, hline, -, rfl⟩ := (tabulates_of_cells hscan hcells pc insn).mp hinsn
  have hlength := ((scan_eq_some hscan).1 line hline).2
  obtain ⟨pc, opcode, operands⟩ := line
  cases opcode with
  | load =>
    obtain ⟨a, rfl⟩ := List.length_eq_one_iff.mp hlength
    cases hloaded
    exact Nat.le_of_lt_succ a.toNat_lt
  | loadAt kind slot =>
    cases hloaded
    rw [UInt16.toNat_ofNat']
    omega
  | _ => cases hloaded

theorem push_le_two (h : ctx.effect pc insn = .ok (pop, push)) : push.toNat ≤ 2 := by
  obtain ⟨opcode, operand, target⟩ := insn
  have hload : ∀ kind index, ctx.loadEffect pc kind index = .ok (pop, push) → push.toNat ≤ 2 := by
    intro kind index h
    obtain ⟨top, -, h⟩ := bind_ok_iff.mp h
    obtain ⟨-, h⟩ := ite_error_ok_iff.mp h
    cases h
    exact kind.slots_le_two
  cases opcode with
  | load | loadAt => exact hload _ _ h
  | dup | athrow | ifNonNull =>
    cases h
    decide
  | ret kind =>
    cases kind <;> (cases h; exact Nat.zero_le _)
  | new =>
    simp only [CodeContext.effect] at h
    split at h
    · cases h
      decide
    · cases h
  | getField =>
    obtain ⟨text, -, h⟩ := bind_ok_iff.mp h
    cases h
    exact ValueKind.slots_le_two _
  | putField =>
    obtain ⟨text, -, h⟩ := bind_ok_iff.mp h
    cases h
    decide
  | invokeSpecial =>
    obtain ⟨text, -, h⟩ := bind_ok_iff.mp h
    obtain ⟨d, -, h⟩ := bind_ok_iff.mp h
    obtain ⟨n, -, h⟩ := bind_ok_iff.mp h
    cases h
    cases resultKind d.result with
    | none => decide
    | some kind => exact kind.slots_le_two

/-- Every state that control goes to has the depth behind the instruction. -/
theorem snd_of_mem_successors {after : UInt16} {next : List (Nat × UInt16)} {s : Nat × UInt16}
    (h : ctx.successors pc insn after = .ok next) (hs : s ∈ next) : s.2 = after := by
  unfold CodeContext.successors at h
  split at h
  · split at h <;> cases h
    cases hs
  · cases h
    cases hs
  · split at h
    · cases h
      cases List.mem_singleton.mp hs
      rfl
    · split at h <;> cases h
      simp only [List.mem_cons, List.not_mem_nil, or_false] at hs
      rcases hs with rfl | rfl <;> rfl

theorem depthAfter_le {after : UInt16} (h : ctx.depthAfter pc depth insn = .ok after) :
    after ≤ ctx.maxStack := by
  obtain ⟨pop, push, -, -, -, -, hbound⟩ := depthAfter_eq_ok_iff_effect.mp h
  exact UInt16.le_iff_toNat_le.mpr hbound

theorem Visits.le_maxStack (h : Visits ctx pc depth) : depth ≤ ctx.maxStack := by
  cases h with
  | start => exact UInt16.zero_le
  | step _ hstep hmem =>
    obtain ⟨insn, -, -, after, hafter, hnext⟩ := step_eq_ok_iff_insn.mp hstep
    rw [snd_of_mem_successors hnext hmem]
    exact depthAfter_le hafter

/-- What is visited has the depths that a walk leaves, if it succeeds. -/
theorem Visits.eq_some (h : Visits ctx pc depth) {depths : Nat → Option UInt16}
    (hclosed : Closed ctx depths) : depths pc = some depth := by
  induction h with
  | start => exact hclosed.1
  | step _ hstep hmem ih =>
    obtain ⟨next, hnext, hall⟩ := hclosed.2 _ _ ih
    rw [hstep] at hnext
    cases hnext
    exact hall _ hmem

/-- If a walk fails, then paths disagree, or it runs into the end of the code, or a step fails in a
state that it visits. -/
theorem failsAs_walk {kind : CodeError → Prop} {visited : Array (Option UInt16)}
    {work : List (Nat × UInt16)} (hseen : ∀ pc seen found, kind (.inconsistentStack pc seen found))
    (hend : kind .fallsOffEnd)
    (hstep : ∀ pc depth, Visits ctx pc depth → FailsAs kind (ctx.step pc depth))
    (hwork : ∀ s ∈ work, Visits ctx s.1 s.2) : FailsAs kind (ctx.walk visited work) := by
  fun_induction CodeContext.walk ctx visited work with
  | case1 => exact failsAs_ok kind ()
  | case2 visited pc work hpc seen _ ih => exact ih fun s hs => hwork s (List.mem_cons_of_mem _ hs)
  | case3 => exact failsAs_error (hseen _ _ _)
  | case4 visited pc depth work hpc hnew e he =>
    exact failsAs_error (hstep pc depth (hwork _ List.mem_cons_self) e he)
  | case5 visited pc depth work hpc hnew next hnext ih =>
    refine ih fun s hs => ?_
    rcases List.mem_append.mp hs with hs | hs
    · exact (hwork _ List.mem_cons_self).step hnext hs
    · exact hwork s (List.mem_cons_of_mem _ hs)
  | case6 => exact failsAs_error hend

end BeanClass.Verification
