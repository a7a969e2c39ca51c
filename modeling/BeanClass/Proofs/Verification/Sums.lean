import BeanClass.Proofs.Outcomes
import BeanClass.Proofs.Verification.Execution

/-! # Counting slots

Numbers of slots are added up in 16 bits. A sum is the one in natural numbers, or verification crashes
because that one does not fit.
-/

namespace BeanClass.Verification

variable {total : Nat} {m n : UInt16} {e : CodeError}

/-- A number of slots in 16 bits, if it fits. -/
def countSlots (total : Nat) : Except CodeError UInt16 :=
  if total < 0x10000 then .ok (UInt16.ofNat total) else .error (.crash .slotOverflow)

theorem countSlots_eq_ok : countSlots total = .ok n ↔ n.toNat = total := by
  unfold countSlots
  split
  · rename_i hlt
    rw [Except.ok.injEq, ← UInt16.toNat_inj, UInt16.toNat_ofNat_of_lt' hlt, eq_comm]
  · have hn := n.toNat_lt
    simp only [reduceCtorEq, false_iff]
    omega

theorem countSlots_eq_error :
    countSlots total = .error e ↔ e = .crash .slotOverflow ∧ 0x10000 ≤ total := by
  unfold countSlots
  split
  · rename_i hlt
    simp [hlt]
  · rename_i hle
    simp [Nat.le_of_not_lt hle, eq_comm]

theorem countSlots_toNat (n : UInt16) : countSlots n.toNat = .ok n :=
  countSlots_eq_ok.mpr rfl

theorem exists_toNat_eq (h : total < 0x10000) : ∃ n : UInt16, n.toNat = total :=
  ⟨UInt16.ofNat total, UInt16.toNat_ofNat_of_lt' h⟩

theorem exists_countSlots : (∃ n, countSlots total = .ok n) ↔ total < 0x10000 := by
  simp only [countSlots_eq_ok]
  constructor
  · rintro ⟨n, rfl⟩
    exact n.toNat_lt
  · exact exists_toNat_eq

theorem addSlots_eq (m n : UInt16) : addSlots m n = countSlots (m.toNat + n.toNat) := by
  unfold addSlots countSlots
  rw [UInt16.ofNat_add, UInt16.ofNat_toNat, UInt16.ofNat_toNat]

/-- What is added to a number that does not fit does not fit either. -/
theorem countSlots_bind {f : UInt16 → Except CodeError UInt16} {k : Nat}
    (hf : ∀ m, f m = countSlots (m.toNat + k)) : (countSlots total >>= f) = countSlots (total + k) := by
  cases h : countSlots total with
  | ok m =>
    rw [ok_bind, hf, countSlots_eq_ok.mp h]
  | error e =>
    obtain ⟨rfl, hle⟩ := countSlots_eq_error.mp h
    exact (countSlots_eq_error.mpr ⟨rfl, Nat.le_add_right_of_le hle⟩).symm

theorem foldlM_addSlots (slots : List UInt16) (start : UInt16) :
    slots.foldlM addSlots start = countSlots (start.toNat + (slots.map UInt16.toNat).sum) := by
  induction slots generalizing start with
  | nil => exact (countSlots_toNat start).symm
  | cons n slots ih =>
    rw [List.foldlM_cons, addSlots_eq, countSlots_bind ih, List.map_cons, List.sum_cons, Nat.add_assoc]

theorem sumSlots_eq (slots : List UInt16) :
    sumSlots slots = countSlots (slots.map UInt16.toNat).sum := by
  rw [sumSlots, foldlM_addSlots, UInt16.toNat_zero, Nat.zero_add]

theorem frameSlots_eq (frame : StackFrame) : frameSlots frame = countSlots frame.stackSum := by
  cases frame with
  | full delta locals stack =>
    rw [frameSlots, sumSlots_eq, List.map_map]
    rfl
  | sameLocals delta type => exact (countSlots_toNat type.slots).symm
  | _ => rfl

theorem parameterSlots_eq (d : MethodDescriptor) :
    parameterSlots d.parameters = countSlots d.parameterSum := by
  rw [parameterSlots, sumSlots_eq, List.map_map]
  rfl

theorem neededSlots_eq (d : MethodDescriptor) (isStatic : Bool) :
    neededSlots d isStatic = countSlots (d.parameterSum + if isStatic then 0 else 1) := by
  rw [neededSlots, parameterSlots_eq]
  refine countSlots_bind fun n => ?_
  rw [addSlots_eq]
  cases isStatic <;> rfl

theorem calledSlots_eq (d : MethodDescriptor) : calledSlots d = countSlots (1 + d.parameterSum) := by
  rw [calledSlots, parameterSlots_eq, Nat.add_comm 1]
  refine countSlots_bind fun n => ?_
  rw [addSlots_eq, Nat.add_comm]
  rfl

end BeanClass.Verification
