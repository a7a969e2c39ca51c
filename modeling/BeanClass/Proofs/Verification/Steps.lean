import BeanClass.Proofs.Verification.Table

/-! # Verified steps

Running an instruction of a code table succeeds exactly in safe states, and gives the states that
control goes to from there.
-/

namespace BeanClass

open Verification

variable {ctx : CodeContext} {line : CodeLine} {pc : Nat}

namespace ConstantPool

variable {pool : ConstantPool} {i : UInt16}

theorem textAt_eq_ok {text : String} : textAt pool i = .ok text ↔ pool.utf8? i = some text := by
  unfold textAt utf8?
  split <;> simp_all

theorem classAt_eq_ok {name : String} : classAt pool i = .ok name ↔ pool.className? i = some name := by
  unfold classAt className?
  cases pool.get? i with
  | none => simp
  | some c =>
    cases c with
    | classRef => exact textAt_eq_ok
    | _ => simp

theorem memberDescriptor_eq_ok {isKind : Constant → Bool} {descriptor : String} :
    memberDescriptor pool i isKind = .ok descriptor ↔
      (pool.get? i).any isKind = true ∧ (pool.memberRef? i).map (·.descriptor) = some descriptor := by
  unfold memberDescriptor
  dsimp only
  split
  · rename_i hkind
    cases pool.memberRef? i <;> simp [hkind]
  · rename_i hkind
    simp [hkind]

end ConstantPool

open ConstantPool

theorem splitDescriptor_eq_ok {descriptor : String} {d : MethodDescriptor} :
    splitDescriptor descriptor = .ok d ↔ MethodDescriptor.split descriptor = .ok d := by
  unfold splitDescriptor
  rcases MethodDescriptor.split descriptor with (_ | _) | _ <;> simp

namespace CodeLine

theorem field?_eq_some {pool : ConstantPool} {kind : ValueKind} :
    line.field? pool = some kind ↔ ∃ descriptor,
      memberDescriptor pool line.operand isFieldRef = .ok descriptor ∧
        ValueKind.ofDescriptor descriptor = kind := by
  simp only [memberDescriptor_eq_ok]
  unfold field?
  split
  · rename_i hget
    simp [hget, isFieldRef]
  · rename_i hget
    have hkind : (pool.get? line.operand).any isFieldRef = false := by
      rw [Option.any_eq_false]
      intro c hc
      cases c with
      | fieldRef i j => exact absurd hc (hget i j)
      | _ => rfl
    simp [hkind]

theorem invoked?_eq_some {pool : ConstantPool} {d : MethodDescriptor} :
    line.invoked? pool = some d ↔ ∃ descriptor,
      memberDescriptor pool line.operand isMethodRef = .ok descriptor ∧
        MethodDescriptor.split descriptor = .ok d := by
  have hoption : ∀ x : Except SplitError MethodDescriptor, x.toOption = some d ↔ x = .ok d := by
    intro x
    cases x <;> simp [Except.toOption]
  simp only [memberDescriptor_eq_ok]
  unfold invoked?
  split
  · rename_i hget
    simp [hget, isMethodRef, Option.bind_eq_some_iff, hoption]
  · rename_i hget
    simp [hget, isMethodRef, Option.bind_eq_some_iff, hoption]
  · rename_i hmethod hinterface
    have hkind : (pool.get? line.operand).any isMethodRef = false := by
      rw [Option.any_eq_false]
      intro c hc
      cases c with
      | methodRef i j => exact absurd hc (hmethod i j)
      | interfaceMethodRef i j => exact absurd hc (hinterface i j)
      | _ => rfl
    simp [hkind]

/-- An instruction pushes at most one value. -/
theorem push_le {pool : ConstantPool} {pop push : Nat} (h : line.effect? pool = some (pop, push)) :
    push ≤ 2 := by
  have helim : ∀ kind : Option ValueKind, kind.elim 0 (fun kind => kind.slots.toNat) ≤ 2 := by
    intro kind
    cases kind with
    | none => decide
    | some kind => exact kind.slots_le_two
  obtain ⟨pc, opcode, operands⟩ := line
  cases opcode with
  | load kind | loadAt kind => cases h; exact kind.slots_le_two
  | dup | athrow | ifNonNull | ret => cases h; decide
  | new | putField =>
    obtain ⟨_, -, heq⟩ := Option.map_eq_some_iff.mp h
    cases heq
    decide
  | getField =>
    obtain ⟨kind, -, heq⟩ := Option.map_eq_some_iff.mp h
    cases heq
    exact kind.slots_le_two
  | invokeSpecial =>
    obtain ⟨d, -, heq⟩ := Option.map_eq_some_iff.mp h
    cases heq
    exact helim _

end CodeLine

namespace Verification

/-- The bound on local variables that a line asks for. -/
def LocalsFit (maxLocals : Nat) (line : CodeLine) : Prop :=
  ∀ kind slot, line.loaded? = some (kind, slot) → slot.toNat + kind.slots.toNat ≤ maxLocals

variable {pop push : UInt16}

theorem ok_pair_iff {a b : UInt16} :
    (Except.ok (a, b) : Except CodeError (UInt16 × UInt16)) = .ok (pop, push) ↔
      some (a.toNat, b.toNat) = some (pop.toNat, push.toNat) := by
  rw [Except.ok.injEq, Option.some_inj, Prod.mk.injEq, Prod.mk.injEq, UInt16.toNat_inj,
    UInt16.toNat_inj]

theorem loadEffect_eq_ok {kind : ValueKind} {index : UInt16} :
    ctx.loadEffect pc kind index = .ok (pop, push) ↔
      some (0, kind.slots.toNat) = some (pop.toNat, push.toNat) ∧
        index.toNat + kind.slots.toNat ≤ ctx.maxLocals.toNat := by
  simp only [CodeContext.loadEffect, addSlots_eq, bind_ok_iff, countSlots_eq_ok, ite_error_ok_iff,
    UInt16.not_lt, UInt16.le_iff_toNat_le]
  constructor
  · rintro ⟨top, htop, hle, h⟩
    exact ⟨ok_pair_iff.mp h, htop ▸ hle⟩
  · rintro ⟨h, hle⟩
    obtain ⟨top, htop⟩ := exists_toNat_eq (Nat.lt_of_le_of_lt hle ctx.maxLocals.toNat_lt)
    exact ⟨top, htop, htop ▸ hle, ok_pair_iff.mpr h⟩

theorem newEffect_eq_ok {pool : ConstantPool} {i : UInt16} :
    (match classAt pool i with
      | .ok _ => .ok (0, 1)
      | .error e => .error (.pool e) : Except CodeError (UInt16 × UInt16)) = .ok (pop, push) ↔
      ((pool.className? i).map fun _ => (0, 1)) = some (pop.toNat, push.toNat) := by
  cases hname : pool.className? i with
  | some name =>
    rw [classAt_eq_ok.mpr hname]
    exact ok_pair_iff
  | none =>
    split
    · rename_i hclass
      rw [classAt_eq_ok.mp hclass] at hname
      cases hname
    · simp

/-- An access to a field, whose effect is a function of the kind of the field. -/
theorem fieldEffect_eq_ok {pool : ConstantPool} {f : ValueKind → UInt16 × UInt16} :
    (memberDescriptor pool line.operand isFieldRef >>= fun descriptor =>
      Except.ok (f (.ofDescriptor descriptor))) = .ok (pop, push) ↔
      ((line.field? pool).map fun kind => ((f kind).1.toNat, (f kind).2.toNat)) =
        some (pop.toNat, push.toNat) := by
  simp only [bind_ok_iff, Option.map_eq_some_iff, CodeLine.field?_eq_some]
  constructor
  · rintro ⟨d, hd, h⟩
    exact ⟨_, ⟨d, hd, rfl⟩, Option.some_inj.mp (ok_pair_iff.mp h)⟩
  · rintro ⟨_, ⟨d, hd, rfl⟩, h⟩
    exact ⟨d, hd, ok_pair_iff.mpr (congrArg some h)⟩

/-- A call, which takes the arguments and the object off the stack. -/
theorem invokeEffect_eq_ok {pool : ConstantPool} :
    (memberDescriptor pool line.operand isMethodRef >>= fun descriptor =>
      splitDescriptor descriptor >>= fun d => calledSlots d >>= fun pop =>
        Except.ok (pop, (resultKind d.result).elim 0 ValueKind.slots)) = .ok (pop, push) ↔
      ((line.invoked? pool).map fun d => (1 + d.parameterSum,
        (resultKind d.result).elim 0 fun kind => kind.slots.toNat)) =
          some (pop.toNat, push.toNat) := by
  have hresult : ∀ kind : Option ValueKind,
      kind.elim 0 (fun kind => kind.slots.toNat) = (kind.elim 0 ValueKind.slots).toNat := by
    intro kind
    cases kind <;> rfl
  simp only [calledSlots_eq, bind_ok_iff, countSlots_eq_ok, Option.map_eq_some_iff, hresult]
  constructor
  · rintro ⟨descriptor, hdescriptor, d, hd, _, hn, h⟩
    cases h
    exact ⟨d, CodeLine.invoked?_eq_some.mpr ⟨descriptor, hdescriptor, splitDescriptor_eq_ok.mp hd⟩,
      Prod.ext hn.symm rfl⟩
  · rintro ⟨d, hinvoked, h⟩
    obtain ⟨descriptor, hdescriptor, hd⟩ := CodeLine.invoked?_eq_some.mp hinvoked
    obtain ⟨hpop, hpush⟩ := Prod.mk.inj h
    refine ⟨descriptor, hdescriptor, d, splitDescriptor_eq_ok.mpr hd, pop, hpop.symm, ?_⟩
    rw [UInt16.toNat_inj.mp hpush]

theorem effect_eq_ok (hlength : line.operands.length = line.opcode.operandCount) :
    ctx.effect pc line.insn = .ok (pop, push) ↔
      line.effect? ctx.pool = some (pop.toNat, push.toNat) ∧ LocalsFit ctx.maxLocals.toNat line := by
  have hnone : line.loaded? = none → LocalsFit ctx.maxLocals.toNat line := by
    intro h kind slot hsome
    rw [h] at hsome
    cases hsome
  obtain ⟨pc', opcode, operands⟩ := line
  cases opcode with
  | load kind =>
    obtain ⟨a, rfl⟩ := List.length_eq_one_iff.mp hlength
    refine loadEffect_eq_ok.trans (and_congr Iff.rfl ?_)
    simp [LocalsFit, CodeLine.loaded?, CodeLine.insn, CodeLine.operand]
  | loadAt kind slot =>
    obtain rfl := List.length_eq_zero_iff.mp hlength
    exact loadEffect_eq_ok.trans (and_congr Iff.rfl (by simp [LocalsFit, CodeLine.loaded?]))
  | dup | athrow | ifNonNull => exact ok_pair_iff.trans (and_iff_left (hnone rfl)).symm
  | ret kind =>
    refine Iff.trans ?_ (and_iff_left (hnone rfl)).symm
    cases kind <;> exact ok_pair_iff
  | new => exact newEffect_eq_ok.trans (and_iff_left (hnone rfl)).symm
  | getField =>
    exact (fieldEffect_eq_ok (f := fun kind => (1, kind.slots))).trans (and_iff_left (hnone rfl)).symm
  | putField =>
    have hsum : ∀ kind : ValueKind, 1 + kind.slots.toNat = (1 + kind.slots).toNat := by
      intro kind
      cases kind <;> rfl
    refine Iff.trans ?_ (and_iff_left (hnone rfl)).symm
    simp only [CodeLine.effect?, hsum]
    exact fieldEffect_eq_ok (f := fun kind => (1 + kind.slots, 0))
  | invokeSpecial =>
    exact invokeEffect_eq_ok.trans (and_iff_left (hnone rfl)).symm

/-- The context and the machine are about the same body. -/
structure Describes (ctx : CodeContext) (m : Machine) : Prop where
  pool : m.pool = ctx.pool
  maxStack : m.maxStack = ctx.maxStack.toNat
  maxLocals : m.maxLocals = ctx.maxLocals.toNat
  result : m.result = ctx.result
  table : Tabulates ctx.table m.lines
  frames : ∀ k d, ctx.frames[k]?.join = some d ↔ (k, d.toNat) ∈ m.frames
  frames_lt : ∀ k n, (k, n) ∈ m.frames → n < 0x10000
  scan : ∃ code, CodeLine.scan 0 code = some m.lines
  targets : ∀ line ∈ m.lines, line.opcode = .ifNonNull → 0 ≤ line.target

/-- The states that control goes to from a line, the following one first. -/
def nexts (line : CodeLine) (after : UInt16) : List (Nat × UInt16) :=
  if line.ends then []
  else (line.pc + line.size, after) ::
    if line.opcode = .ifNonNull then [(line.target.toNat, after)] else []

variable {m : Machine} {depth after : UInt16} {next : List (Nat × UInt16)}

/-- An instruction leaves the depth that its effect gives. -/
theorem depthAfter_eq_ok_iff_effect {insn : Insn} :
    ctx.depthAfter pc depth insn = .ok after ↔ ∃ pop push, ctx.effect pc insn = .ok (pop, push) ∧
      pop.toNat ≤ depth.toNat ∧ after.toNat = depth.toNat - pop.toNat + push.toNat ∧
      depth.toNat ≤ ctx.maxStack.toNat ∧ after.toNat ≤ ctx.maxStack.toNat := by
  have hsub : ∀ pop : UInt16, pop.toNat ≤ depth.toNat →
      (depth - pop).toNat = depth.toNat - pop.toNat := by
    intro pop hpop
    exact UInt16.toNat_sub_of_le _ _ (UInt16.le_iff_toNat_le.mpr hpop)
  simp only [CodeContext.depthAfter, addSlots_eq, bind_ok_iff, Prod.exists, ite_error_ok_iff,
    countSlots_eq_ok, not_or, UInt16.not_lt, UInt16.le_iff_toNat_le]
  constructor
  · rintro ⟨pop, push, heffect, hpop, _, hafter, ⟨hbound, hdepth⟩, heq⟩
    cases heq
    rw [hsub pop hpop] at hafter
    exact ⟨pop, push, heffect, hpop, hafter, hdepth, hbound⟩
  · rintro ⟨pop, push, heffect, hpop, hafter, hdepth, hbound⟩
    rw [← hsub pop hpop] at hafter
    exact ⟨pop, push, heffect, hpop, after, hafter, ⟨hbound, hdepth⟩, rfl⟩

theorem depthAfter_eq_ok (h : Describes ctx m) (hline : line ∈ m.lines) :
    ctx.depthAfter pc depth line.insn = .ok after ↔
      m.Runs line line.pc depth.toNat after.toNat ∧ depth.toNat ≤ m.maxStack ∧
        after.toNat ≤ m.maxStack ∧ LocalsFit m.maxLocals line := by
  obtain ⟨code, hscan⟩ := h.scan
  have hlength := ((CodeLine.scan_eq_some hscan).1 line hline).2
  simp only [depthAfter_eq_ok_iff_effect, effect_eq_ok hlength, h.maxStack, h.maxLocals]
  rw [← h.pool]
  constructor
  · rintro ⟨pop, push, ⟨heff, hlocals⟩, hpop, hafter, hdepth, hbound⟩
    exact ⟨⟨hline, rfl, _, _, heff, hpop, hafter⟩, hdepth, hbound, hlocals⟩
  · rintro ⟨⟨-, -, pop, push, heff, hpop, hafter⟩, hdepth, hbound, hlocals⟩
    have hpush := CodeLine.push_le heff
    obtain ⟨pop, rfl⟩ := exists_toNat_eq (Nat.lt_of_le_of_lt hpop depth.toNat_lt)
    obtain ⟨push, rfl⟩ := exists_toNat_eq (Nat.lt_of_le_of_lt hpush (by decide))
    exact ⟨pop, push, ⟨heff, hlocals⟩, hpop, hafter, hdepth, hbound⟩

theorem successors_eq_ok :
    ctx.successors line.pc line.insn after = .ok next ↔
      (∀ kind, line.opcode = .ret kind → kind = ctx.result) ∧
      (line.opcode = .ifNonNull → ∃ d, ctx.frames[line.target.toNat]?.join = some d) ∧
      next = nexts line after := by
  obtain ⟨pc, opcode, operands⟩ := line
  cases opcode with
  | ret kind =>
    simp only [CodeContext.successors, CodeLine.insn, nexts, CodeLine.ends]
    split <;> simp_all [eq_comm]
  | athrow => simp [CodeContext.successors, CodeLine.insn, nexts, CodeLine.ends, eq_comm]
  | ifNonNull =>
    simp only [CodeContext.successors, CodeLine.insn, nexts, CodeLine.ends, CodeLine.size,
      Insn.length, if_true]
    rcases ctx.frames[(CodeLine.target ⟨pc, .ifNonNull, operands⟩).toNat]? with _ | _ | d <;>
      simp [eq_comm]
  | _ =>
    simp [CodeContext.successors, CodeLine.insn, nexts, CodeLine.ends, CodeLine.size, Insn.length,
      eq_comm]

theorem step_eq_ok_iff_insn :
    ctx.step pc depth = .ok next ↔ ∃ insn, ctx.table[pc]?.join = some insn ∧
      (∀ declared, ctx.frames[pc]?.join = some declared → declared = depth) ∧
      ∃ after, ctx.depthAfter pc depth insn = .ok after ∧ ctx.successors pc insn after = .ok next := by
  unfold CodeContext.step
  split
  · rename_i hinsn
    simp [hinsn]
  · rename_i insn hframe hinsn
    simp [hframe, hinsn, bind_ok_iff]
  · rename_i declared insn hframe hinsn
    split
    · rename_i heq
      simp [hframe, hinsn, heq, bind_ok_iff]
    · rename_i hne
      simp [hframe, hinsn, hne]

/-- A step succeeds on the line of a safe state and gives the states behind it. -/
theorem step_eq_ok (h : Describes ctx m) :
    ctx.step pc depth = .ok next ↔ ∃ line after, m.Runs line pc depth.toNat (UInt16.toNat after) ∧
      m.Allows line depth.toNat after.toNat ∧ next = nexts line after := by
  rw [step_eq_ok_iff_insn]
  constructor
  · rintro ⟨insn, hinsn, hframe, after, hafter, hnext⟩
    obtain ⟨line, hline, rfl, rfl⟩ := (h.table pc insn).mp hinsn
    obtain ⟨hruns, hdepth, hbound, hlocals⟩ := (depthAfter_eq_ok h hline).mp hafter
    obtain ⟨hresult, htarget, rfl⟩ := successors_eq_ok.mp hnext
    refine ⟨line, after, hruns, ?_, rfl⟩
    exact {
      depth_le := hdepth
      after_le := hbound
      locals := hlocals
      result := fun kind hkind => (hresult kind hkind).trans h.result.symm
      target := fun hbranch => by
        obtain ⟨d, hd⟩ := htarget hbranch
        exact ⟨_, _, (Int.toNat_of_nonneg (h.targets line hline hbranch)).symm, (h.frames _ _).mp hd⟩
      frame := fun n hn => by
        obtain ⟨declared, rfl⟩ := exists_toNat_eq (h.frames_lt _ _ hn)
        rw [hframe declared ((h.frames _ _).mpr hn)] }
  · rintro ⟨line, after, hruns, hallows, rfl⟩
    have ⟨hline, hpc, _⟩ := hruns
    subst hpc
    refine ⟨line.insn, (h.table _ _).mpr ⟨line, hline, rfl, rfl⟩, fun declared hd => ?_, after, ?_, ?_⟩
    · exact UInt16.toNat_inj.mp (hallows.frame _ ((h.frames _ _).mp hd))
    · exact (depthAfter_eq_ok h hline).mpr
        ⟨hruns, hallows.depth_le, hallows.after_le, hallows.locals⟩
    · refine successors_eq_ok.mpr ⟨fun kind hkind => ?_, fun hbranch => ?_, rfl⟩
      · exact (hallows.result kind hkind).trans h.result
      · obtain ⟨offset, n, htarget, hn⟩ := hallows.target hbranch
        obtain ⟨declared, rfl⟩ := exists_toNat_eq (h.frames_lt _ _ hn)
        refine ⟨declared, (h.frames _ _).mpr ?_⟩
        rwa [htarget]

theorem runs_unique (h : Describes ctx m) {other : CodeLine} {d n n' : Nat} (hruns : m.Runs line pc d n)
    (hother : m.Runs other pc d n') : line = other ∧ n = n' := by
  obtain ⟨code, hscan⟩ := h.scan
  obtain ⟨hline, rfl, pop, push, heffect, -, rfl⟩ := hruns
  obtain ⟨hmem, hpc, pop', push', heffect', -, rfl⟩ := hother
  obtain rfl := CodeLine.eq_of_pc_eq hscan hmem hline hpc
  rw [heffect] at heffect'
  cases heffect'
  exact ⟨rfl, rfl⟩

/-- The states that a verified step gives are those that control goes to. -/
theorem mem_nexts (h : Describes ctx m) (hruns : m.Runs line pc depth.toNat after.toNat)
    {pc' depth' : Nat} : m.Step (pc, depth.toNat) (pc', depth') ↔
      ∃ d, (pc', d) ∈ nexts line after ∧ d.toNat = depth' := by
  have ⟨hline, hpc, _⟩ := hruns
  subst hpc
  constructor
  · intro hstep
    cases hstep with
    | next hother hends =>
      obtain ⟨rfl, rfl⟩ := runs_unique h hruns hother
      exact ⟨after, by simp [nexts, hends], rfl⟩
    | branch hother hbranch htarget =>
      obtain ⟨rfl, rfl⟩ := runs_unique h hruns hother
      exact ⟨after, by simp [nexts, CodeLine.ends, hbranch, htarget], rfl⟩
  · rintro ⟨d, hd, rfl⟩
    unfold nexts at hd
    split at hd
    · cases hd
    · rename_i hends
      rcases List.mem_cons.mp hd with heq | hd
      · cases heq
        exact .next hruns (Bool.eq_false_iff.mpr hends)
      · split at hd
        · rename_i hbranch
          cases List.mem_singleton.mp hd
          exact .branch hruns hbranch (Int.toNat_of_nonneg (h.targets line hline hbranch)).symm
        · cases hd

end Verification

end BeanClass
