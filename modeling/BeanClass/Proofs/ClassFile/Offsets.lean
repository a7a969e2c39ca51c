import BeanClass.ClassFile.StackMap

/-! # Offsets of frames

Every frame stands behind the one before it, at most 65536 bytes further. The offsets can be added up
in 32 bits as well, and this gives them if all of them fit.
-/

namespace BeanClass.StackMap

variable {least offset : Nat} {frames : List StackFrame} {previous : Option UInt32}

@[simp] theorem length_offsetsFrom (least : Nat) (frames : List StackFrame) :
    (offsetsFrom least frames).length = frames.length := by
  induction frames generalizing least with
  | nil => rfl
  | cons frame frames ih => simp only [offsetsFrom, List.length_cons, ih]

theorem le_of_mem_offsetsFrom (h : offset ∈ offsetsFrom least frames) : least ≤ offset := by
  induction frames generalizing least with
  | nil => cases h
  | cons frame frames ih =>
    rcases List.mem_cons.mp h with rfl | h
    · exact Nat.le_add_right _ _
    · have hlater := ih h
      omega

theorem pairwise_offsetsFrom (least : Nat) (frames : List StackFrame) :
    (offsetsFrom least frames).Pairwise (· < ·) := by
  induction frames generalizing least with
  | nil => exact .nil
  | cons frame frames ih => exact .cons (fun _ h => le_of_mem_offsetsFrom h) (ih _)

/-- Each frame has 65536 offsets to choose from. -/
theorem lt_of_mem_offsetsFrom (h : offset ∈ offsetsFrom least frames) :
    offset < least + frames.length * 0x10000 := by
  induction frames generalizing least with
  | nil => cases h
  | cons frame frames ih =>
    have hdelta := frame.delta.toNat_lt
    rw [List.length_cons]
    rcases List.mem_cons.mp h with rfl | h
    · omega
    · have hlater := ih h
      omega

/-- Frames with the greatest distance, 65535, reach the last of these. -/
theorem mem_offsetsFrom_replicate (least n : Nat) (frame : StackFrame) :
    least + n * (frame.delta.toNat + 1) + frame.delta.toNat ∈
      offsetsFrom least (List.replicate (n + 1) frame) := by
  induction n generalizing least with
  | zero => simp [offsetsFrom]
  | succ n ih =>
    have hlater := ih (least + frame.delta.toNat + 1)
    have hsum : least + frame.delta.toNat + 1 + n * (frame.delta.toNat + 1) + frame.delta.toNat =
        least + (n + 1) * (frame.delta.toNat + 1) + frame.delta.toNat := by
      rw [Nat.succ_mul]
      omega
    rw [hsum] at hlater
    exact List.mem_cons_of_mem _ hlater

theorem map_fst_zip_offsets (t : StackMap) : (t.offsets.zip t.frames).map Prod.fst = t.offsets :=
  List.map_fst_zip (Nat.le_of_eq (length_offsetsFrom 0 t.frames))

theorem map_snd_zip_offsets (t : StackMap) : (t.offsets.zip t.frames).map Prod.snd = t.frames :=
  List.map_snd_zip (Nat.le_of_eq (length_offsetsFrom 0 t.frames).symm)

/-! ### Sums in 32 bits -/

/-- The sum, if it fits in 32 bits. -/
def sum32? (m n : UInt32) : Option UInt32 :=
  if m.toNat + n.toNat < 0x100000000 then some (m + n) else none

/-- The offset of a frame behind another one; the first frame stands at its distance. -/
def offset32? (delta : UInt16) : (previous : Option UInt32) → Option UInt32
  | none => some delta.toUInt32
  | some previous => do sum32? (← sum32? previous delta.toUInt32) 1

/-- The offsets of frames, each sum on the way to them taken in 32 bits. -/
def offsets32From? : (previous : Option UInt32) → List StackFrame → Option (List UInt32)
  | _, [] => some []
  | previous, frame :: frames => do
    let offset ← offset32? frame.delta previous
    return offset :: (← offsets32From? (some offset) frames)

def offsets32? (t : StackMap) : Option (List UInt32) :=
  offsets32From? none t.frames

/-- Where a frame may stand behind another one. -/
def leastBehind (previous : Option UInt32) : Nat :=
  previous.elim 0 fun offset => offset.toNat + 1

theorem sum32?_eq_some {m n sum : UInt32} : sum32? m n = some sum ↔ sum.toNat = m.toNat + n.toNat := by
  have hsum := sum.toNat_lt
  unfold sum32?
  split
  · have hexact : (m + n).toNat = m.toNat + n.toNat := by
      rw [UInt32.toNat_add]
      omega
    rw [Option.some_inj, ← UInt32.toNat_inj, hexact, eq_comm]
  · simp only [reduceCtorEq, false_iff]
    omega

theorem offset32?_eq_some {delta : UInt16} {offset : UInt32} :
    offset32? delta previous = some offset ↔ offset.toNat = leastBehind previous + delta.toNat := by
  cases previous with
  | none =>
    rw [offset32?, Option.some_inj, ← UInt32.toNat_inj, UInt16.toNat_toUInt32, eq_comm, leastBehind]
    simp
  | some previous =>
    simp only [offset32?, Option.bind_eq_bind, Option.bind_eq_some_iff, sum32?_eq_some,
      UInt16.toNat_toUInt32, leastBehind, Option.elim_some]
    constructor
    · rintro ⟨sum, hsum, hoffset⟩
      rw [hoffset, hsum]
      exact Nat.add_right_comm _ _ _
    · intro hoffset
      -- the sum without the last 1 is smaller than the offset, so that it fits as well
      have hlt := offset.toNat_lt
      have hsum : (UInt32.ofNat (previous.toNat + delta.toNat)).toNat =
          previous.toNat + delta.toNat :=
        UInt32.toNat_ofNat_of_lt' (show previous.toNat + delta.toNat < 0x100000000 by omega)
      refine ⟨_, hsum, ?_⟩
      rw [hsum, hoffset]
      exact Nat.add_right_comm _ _ _

theorem offsets32From?_eq_some {offsets : List UInt32} :
    offsets32From? previous frames = some offsets ↔
      offsets.map UInt32.toNat = offsetsFrom (leastBehind previous) frames := by
  induction frames generalizing previous offsets with
  | nil => simp [offsets32From?, offsetsFrom, eq_comm]
  | cons frame frames ih =>
    have hnext : ∀ offset : UInt32, leastBehind (some offset) = offset.toNat + 1 := fun _ => rfl
    simp only [offsets32From?, Option.bind_eq_bind, Option.bind_eq_some_iff, offset32?_eq_some, ih,
      hnext, offsetsFrom, pure, Option.some_inj]
    constructor
    · rintro ⟨offset, hoffset, later, hlater, rfl⟩
      rw [List.map_cons, hlater, hoffset]
    · intro h
      obtain ⟨offset, later, rfl, hoffset, hlater⟩ := List.map_eq_cons_iff.mp h
      exact ⟨offset, hoffset, later, by rw [hlater, hoffset], rfl⟩

/-- The sums in 32 bits are the offsets. -/
theorem offsets32?_eq_some {t : StackMap} {offsets : List UInt32} :
    t.offsets32? = some offsets ↔ offsets.map UInt32.toNat = t.offsets :=
  offsets32From?_eq_some

/-- No sum overflows if the offsets fit. -/
theorem exists_offsets32? {t : StackMap} (h : ∀ offset ∈ t.offsets, offset < 0x100000000) :
    ∃ offsets, t.offsets32? = some offsets ∧ offsets.map UInt32.toNat = t.offsets := by
  have hexact : (t.offsets.map UInt32.ofNat).map UInt32.toNat = t.offsets := by
    have hsame : ∀ offset ∈ t.offsets, (UInt32.toNat ∘ UInt32.ofNat) offset = id offset :=
      fun offset hoffset => UInt32.toNat_ofNat_of_lt' (h offset hoffset)
    rw [List.map_map, List.map_congr_left hsame, List.map_id]
  exact ⟨_, offsets32?_eq_some.mpr hexact, hexact⟩

end BeanClass.StackMap
