import Mathlib
import BeanClass.ClassFile.Pool

/-! # How a constant pool grows

Pushing a constant fills one new index and leaves all others as they were. The table of a pool that
grew by pushes gives the smallest index of every constant, and the pool never outgrows its count.
-/

namespace BeanClass.ConstantPool

variable {p q r : ConstantPool} {c d : Constant} {i j : UInt16}

theorem push_eq_ok (h : push c p = .ok i q) :
    p.count + c.width ≤ maxCount ∧ i = UInt16.ofNat p.count ∧
      q.slots = (if c.isWide then (p.slots.push (some c)).push none else p.slots.push (some c)) ∧
      q.lookup = p.lookup.insertIfNew c i := by
  unfold push at h
  split at h
  · cases h
  · injection h with hi hq
    subst hi hq
    exact ⟨Nat.le_of_not_lt ‹_›, rfl, rfl, rfl⟩

theorem one_le_width (c : Constant) : 1 ≤ c.width := by
  unfold Constant.width
  split <;> decide

theorem toNat_push (h : push c p = .ok i q) : i.toNat = p.count := by
  obtain ⟨hcount, rfl, -, -⟩ := push_eq_ok h
  have hwidth := one_le_width c
  refine UInt16.toNat_ofNat_of_lt' ?_
  unfold maxCount at hcount
  unfold UInt16.size
  omega

theorem count_push (h : push c p = .ok i q) : q.count = p.count + c.width := by
  obtain ⟨-, -, hslots, -⟩ := push_eq_ok h
  unfold count Constant.width
  rw [hslots]
  split <;> simp

theorem mem_slots_push (h : push c p = .ok i q) : some d ∈ q.slots ↔ some d ∈ p.slots ∨ d = c := by
  obtain ⟨-, -, hslots, -⟩ := push_eq_ok h
  rw [hslots]
  split <;> simp

theorem get?_eq_none (h : p.count ≤ i.toNat) : p.get? i = none := by
  unfold get?
  split
  · rfl
  · rename_i hi
    have hpos : 0 < i.toNat := Nat.pos_of_ne_zero fun h => hi (UInt16.toNat_inj.mp h)
    have hout : p.slots.size ≤ i.toNat - 1 := by unfold count at h; omega
    rw [Array.getElem?_eq_none hout]
    rfl

theorem toNat_lt_count (h : p.get? i = some c) : i.toNat < p.count := by
  apply Nat.lt_of_not_le
  intro hle
  rw [get?_eq_none hle] at h
  cases h

/-- A push changes what the pool holds at the new index only. -/
theorem get?_push (h : push c p = .ok i q) (j : UInt16) :
    q.get? j = if j = i then some c else p.get? j := by
  have hi := toNat_push h
  obtain ⟨-, -, hslots, -⟩ := push_eq_ok h
  unfold count at hi
  have hslot : q.slots[j.toNat - 1]?.join =
      if j.toNat - 1 = p.slots.size then some c else p.slots[j.toNat - 1]?.join := by
    rw [hslots]
    split <;> simp only [Array.getElem?_push, Array.size_push] <;> grind
  unfold get?
  rw [hslot]
  by_cases hj : j = 0
  · subst hj
    have hne : (0 : UInt16) ≠ i := fun h => by rw [← h] at hi; simp at hi
    simp [hne]
  · have hpos : 0 < j.toNat := Nat.pos_of_ne_zero fun h => hj (UInt16.toNat_inj.mp h)
    have hiff : j.toNat - 1 = p.slots.size ↔ j = i := by
      rw [← UInt16.toNat_inj, hi]
      omega
    simp only [hj, hiff, if_false]

/-- The index is the smallest one that holds the constant. -/
def IsFirst (p : ConstantPool) (c : Constant) (i : UInt16) : Prop :=
  p.get? i = some c ∧ ∀ j < i, p.get? j ≠ some c

theorem exists_isFirst (h : p.get? i = some c) : ∃ j, p.IsFirst c j := by
  induction hn : i.toNat using Nat.strongRecOn generalizing i with
  | _ n ih =>
    by_cases hsmaller : ∃ j < i, p.get? j = some c
    · obtain ⟨j, hlt, hj⟩ := hsmaller
      rw [UInt16.lt_iff_toNat_lt, hn] at hlt
      exact ih j.toNat hlt hj rfl
    · exact ⟨i, h, fun j hlt hj => hsmaller ⟨j, hlt, hj⟩⟩

theorem IsFirst.unique (hi : p.IsFirst c i) (hj : p.IsFirst c j) : i = j := by
  rcases Nat.lt_trichotomy i.toNat j.toNat with h | h | h
  · exact absurd hi.1 (hj.2 i (UInt16.lt_iff_toNat_lt.mpr h))
  · exact UInt16.toNat_inj.mp h
  · exact absurd hj.1 (hi.2 j (UInt16.lt_iff_toNat_lt.mpr h))

/-- What holds of every pool that grew from the empty one. -/
structure Sound (p : ConstantPool) : Prop where
  count_le : p.count ≤ maxCount
  lookup_iff : ∀ c i, p.lookup[c]? = some i ↔ p.IsFirst c i

theorem get?_empty (i : UInt16) : empty.get? i = none := by
  unfold get? empty
  split <;> simp

theorem sound_empty : empty.Sound where
  count_le := by decide
  lookup_iff c i := by
    rw [IsFirst, get?_empty]
    simp [empty]

theorem Sound.mem_lookup (hp : p.Sound) : c ∈ p.lookup ↔ ∃ j, p.get? j = some c := by
  rw [Std.ExtHashMap.mem_iff_isSome_getElem?, Option.isSome_iff_exists]
  constructor
  · rintro ⟨j, hj⟩
    exact ⟨j, ((hp.lookup_iff c j).mp hj).1⟩
  · rintro ⟨j, hj⟩
    obtain ⟨k, hk⟩ := exists_isFirst hj
    exact ⟨k, (hp.lookup_iff c k).mpr hk⟩

theorem isFirst_push_of_mem (h : push c p = .ok i q) (hd : p.IsFirst d j) : q.IsFirst d j := by
  have hlt : j < i := by
    rw [UInt16.lt_iff_toNat_lt, toNat_push h]
    exact toNat_lt_count hd.1
  constructor
  · rw [get?_push h, if_neg (UInt16.ne_of_lt hlt)]
    exact hd.1
  · intro k hk
    rw [get?_push h, if_neg (UInt16.ne_of_lt (UInt16.lt_trans hk hlt))]
    exact hd.2 k hk

theorem isFirst_push_of_not_mem (h : push c p = .ok i q) (hc : ∀ j, p.get? j ≠ some c) :
    q.IsFirst c i := by
  constructor
  · rw [get?_push h, if_pos rfl]
  · intro k hk
    rw [get?_push h, if_neg (UInt16.ne_of_lt hk)]
    exact hc k

theorem Sound.push (hp : p.Sound) (h : push c p = .ok i q) : q.Sound := by
  obtain ⟨hcount, -, -, hlookup⟩ := push_eq_ok h
  refine ⟨(count_push h).symm ▸ hcount, fun d j => ?_⟩
  rw [hlookup, Std.ExtHashMap.getElem?_insertIfNew]
  simp only [beq_iff_eq]
  split
  · -- the first occurrence of the constant is the new one
    rename_i hnew
    obtain ⟨rfl, hnone⟩ := hnew
    rw [hp.mem_lookup] at hnone
    have hi := isFirst_push_of_not_mem h fun k hk => hnone ⟨k, hk⟩
    rw [Option.some_inj]
    exact ⟨fun hij => hij ▸ hi, hi.unique⟩
  · rename_i hold
    rw [hp.lookup_iff]
    refine ⟨isFirst_push_of_mem h, fun hj => ?_⟩
    have hmem : p.get? j = some d ∨ (j = i ∧ c = d) := by
      have hget := hj.1
      rw [get?_push h] at hget
      split at hget
      · exact Or.inr ⟨‹_›, Option.some_inj.mp hget⟩
      · exact Or.inl hget
    obtain ⟨k, hk⟩ : ∃ k, p.IsFirst d k := by
      rcases hmem with hget | ⟨-, rfl⟩
      · exact exists_isFirst hget
      · have hc : c ∈ p.lookup := Classical.byContradiction fun hnone => hold ⟨rfl, hnone⟩
        obtain ⟨k, hk⟩ := hp.mem_lookup.mp hc
        exact exists_isFirst hk
    rw [hj.unique (isFirst_push_of_mem h hk)]
    exact hk

/-- `q` is `p` after pushes, where each constant satisfies `ok` in the pool that it is pushed on. -/
inductive Grows (ok : ConstantPool → Constant → Prop) (p : ConstantPool) : ConstantPool → Prop
  | refl : Grows ok p p
  | push {q r : ConstantPool} {c : Constant} {i : UInt16} :
    Grows ok p q → ok q c → push c q = .ok i r → Grows ok p r

variable {ok ok' : ConstantPool → Constant → Prop}

theorem Grows.trans (h : Grows ok p q) (h' : Grows ok q r) : Grows ok p r := by
  induction h' with
  | refl => exact h
  | push _ hc hpush ih => exact ih.push hc hpush

theorem Grows.mono (hok : ∀ q c, ok q c → ok' q c) (h : Grows ok p q) : Grows ok' p q := by
  induction h with
  | refl => exact .refl
  | push _ hc hpush ih => exact ih.push (hok _ _ hc) hpush

theorem Grows.sound (h : Grows ok p q) (hp : p.Sound) : q.Sound := by
  induction h with
  | refl => exact hp
  | push _ _ hpush ih => exact ih.push hpush

theorem Grows.count_le (h : Grows ok p q) : p.count ≤ q.count := by
  induction h with
  | refl => exact le_rfl
  | push _ _ hpush ih =>
    rw [count_push hpush]
    exact ih.trans (Nat.le_add_right _ _)

/-- Growth changes nothing at an index that is in use, even where the pool holds nothing. -/
theorem Grows.get?_of_lt (h : Grows ok p q) (hi : i.toNat < p.count) : q.get? i = p.get? i := by
  induction h with
  | refl => rfl
  | push hgrows _ hpush ih =>
    rw [get?_push hpush, if_neg, ih]
    rintro rfl
    rw [toNat_push hpush] at hi
    exact absurd hgrows.count_le (Nat.not_le_of_lt hi)

/-- Whatever a pool holds it holds after every growth. -/
theorem Grows.get? (h : Grows ok p q) (hi : p.get? i = some c) : q.get? i = some c :=
  (h.get?_of_lt (toNat_lt_count hi)).trans hi

theorem Grows.isFirst (h : Grows ok p q) (hi : p.IsFirst c i) : q.IsFirst c i := by
  induction h with
  | refl => exact hi
  | push _ _ hpush ih => exact isFirst_push_of_mem hpush ih

theorem toNat_succ (hp : p.count ≤ maxCount) (hi : i.toNat + 1 < p.count) :
    (i + 1).toNat = i.toNat + 1 := by
  rw [UInt16.toNat_add]
  refine Nat.mod_eq_of_lt (b := 65536) ?_
  change i.toNat + 1 < 65536
  unfold maxCount at hp
  omega

/-- The index behind a wide constant is in use and holds nothing. -/
theorem Grows.get?_behind_wide (h : Grows ok empty p) (hi : p.get? i = some c)
    (hwide : c.isWide = true) : i.toNat + 1 < p.count ∧ p.get? (i + 1) = none := by
  induction h with
  | refl =>
    rw [get?_empty] at hi
    cases hi
  | @push q r d j hgrows hd hpush ih =>
    have hcount := count_push hpush
    have hle : r.count ≤ maxCount := (hgrows.push hd hpush |>.sound sound_empty).count_le
    have hj := toNat_push hpush
    rw [get?_push hpush] at hi
    split at hi
    · rename_i heq
      cases hi
      subst heq
      have hlt : i.toNat + 1 < r.count := by rw [hcount, Constant.width, if_pos hwide]; omega
      have hnext := toNat_succ hle hlt
      refine ⟨hlt, ?_⟩
      rw [get?_push hpush, if_neg fun heq => ?_, get?_eq_none (by omega)]
      rw [heq] at hnext
      omega
    · obtain ⟨hlt, hnone⟩ := ih hi
      have hnext := toNat_succ (i := i) hle (by omega)
      refine ⟨by omega, ?_⟩
      rw [get?_push hpush, if_neg fun heq => ?_, hnone]
      rw [heq] at hnext
      omega

/-- An index that is in use and holds nothing stands behind a wide constant. -/
theorem Grows.exists_wide (h : Grows ok empty p) (hi : i ≠ 0) (hlt : i.toNat < p.count)
    (hnone : p.get? i = none) :
    ∃ j c, j.toNat + 1 = i.toNat ∧ p.get? j = some c ∧ c.isWide = true := by
  have hpos : 0 < i.toNat := Nat.pos_of_ne_zero fun h => hi (UInt16.toNat_inj.mp h)
  induction h with
  | refl => exact absurd hlt (Nat.not_lt_of_le hpos)
  | @push q r d j _ hd hpush ih =>
    have hstep : Grows ok q r := Grows.refl.push hd hpush
    by_cases hold : i.toNat < q.count
    · rw [hstep.get?_of_lt hold] at hnone
      obtain ⟨k, c, hk, hget, hwide⟩ := ih hold hnone
      exact ⟨k, c, hk, hstep.get? hget, hwide⟩
    · -- the last constant takes this index, but does not stand at it
      have hj := toNat_push hpush
      have hget : r.get? j = some d := by rw [get?_push hpush, if_pos rfl]
      have hne : i.toNat ≠ j.toNat := by
        intro heq
        rw [UInt16.toNat_inj.mp heq, hget] at hnone
        cases hnone
      rw [count_push hpush, Constant.width] at hlt
      split at hlt
      · exact ⟨j, d, by omega, hget, ‹_›⟩
      · omega

/-- Growth by constants that all satisfy what every constant of the final pool does. -/
theorem Grows.of_mem {good : Constant → Prop} (h : Grows ok p q)
    (hq : ∀ c, some c ∈ q.slots → good c) : Grows (fun _ c => good c) p q := by
  induction h with
  | refl => exact .refl
  | @push q r d j hgrows hd hpush ih =>
    refine (ih fun c hc => hq c ((mem_slots_push hpush).mpr (Or.inl hc))).push ?_ hpush
    exact hq d ((mem_slots_push hpush).mpr (Or.inr rfl))

theorem Grows.utf8? {text : String} (h : Grows ok p q) (hi : p.utf8? i = some text) :
    q.utf8? i = some text := by
  unfold ConstantPool.utf8? at hi ⊢
  split at hi
  · rename_i hget
    rw [h.get? hget]
    exact hi
  · cases hi

theorem Grows.className? {name : String} (h : Grows ok p q) (hi : p.className? i = some name) :
    q.className? i = some name := by
  unfold ConstantPool.className? at hi ⊢
  split at hi
  · rename_i hget
    rw [h.get? hget]
    exact h.utf8? hi
  · cases hi

theorem Grows.nameAndType? {names : String × String} (h : Grows ok p q)
    (hi : p.nameAndType? i = some names) : q.nameAndType? i = some names := by
  unfold ConstantPool.nameAndType? at hi ⊢
  split at hi
  · rename_i hget
    rw [h.get? hget]
    simp only [Option.bind_eq_bind, Option.bind_eq_some_iff] at hi ⊢
    obtain ⟨name, hname, descriptor, hdescriptor, hnames⟩ := hi
    exact ⟨name, h.utf8? hname, descriptor, h.utf8? hdescriptor, hnames⟩
  · cases hi

theorem Grows.memberRef? {member : MemberRef} (h : Grows ok p q)
    (hi : p.memberRef? i = some member) : q.memberRef? i = some member := by
  unfold ConstantPool.memberRef? at hi ⊢
  split at hi
  case h_4 => cases hi
  all_goals
    rename_i hget
    rw [h.get? hget]
    simp only [Option.bind_eq_bind, Option.bind_eq_some_iff] at hi ⊢
    obtain ⟨owner, howner, names, hnames, hmember⟩ := hi
    exact ⟨owner, h.className? howner, names, h.nameAndType? hnames, hmember⟩

end BeanClass.ConstantPool
