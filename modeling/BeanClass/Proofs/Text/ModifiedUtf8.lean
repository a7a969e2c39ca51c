import Mathlib
import BeanClass.Text.ModifiedUtf8

/-! # Modified UTF-8 is read back

Each byte group gives the unit that it was written for, and the units of each character spell that
character, so decoding undoes encoding.
-/

namespace BeanClass.Text

/-- The groups that are read as a unit, overlong ones included. -/
inductive IsGroup : List UInt8 → Nat → Prop
  | one {b : UInt8} : 0 < b.toNat ∧ b.toNat < 0x80 → IsGroup [b] b.toNat
  | two {b b₂ : UInt8} : 0xC0 ≤ b.toNat ∧ b.toNat < 0xE0 → isContinuation b₂ = true →
    IsGroup [b, b₂] ((b.toNat - 0xC0) * 0x40 + (b₂.toNat - 0x80))
  | three {b b₂ b₃ : UInt8} : 0xE0 ≤ b.toNat ∧ b.toNat < 0xF0 → isContinuation b₂ = true →
    isContinuation b₃ = true →
    IsGroup [b, b₂, b₃] ((b.toNat - 0xE0) * 0x1000 + (b₂.toNat - 0x80) * 0x40 + (b₃.toNat - 0x80))

variable {found : List Nat} {bytes rest : List UInt8} {b b₂ b₃ : UInt8} {u : Nat}

theorem readUnits_one (h : 0 < b.toNat ∧ b.toNat < 0x80) :
    readUnits found (b :: rest) = readUnits (b.toNat :: found) rest := by
  rw [readUnits.eq_def]
  exact if_pos h

theorem readUnits_two (h : 0xC0 ≤ b.toNat ∧ b.toNat < 0xE0) (h₂ : isContinuation b₂ = true) :
    readUnits found (b :: b₂ :: rest) =
      readUnits (((b.toNat - 0xC0) * 0x40 + (b₂.toNat - 0x80)) :: found) rest := by
  rw [readUnits.eq_def]
  dsimp only
  rw [if_neg (by omega), if_pos h, if_pos h₂]

theorem readUnits_three (h : 0xE0 ≤ b.toNat ∧ b.toNat < 0xF0) (h₂ : isContinuation b₂ = true)
    (h₃ : isContinuation b₃ = true) :
    readUnits found (b :: b₂ :: b₃ :: rest) =
      readUnits (((b.toNat - 0xE0) * 0x1000 + (b₂.toNat - 0x80) * 0x40 + (b₃.toNat - 0x80)) :: found)
        rest := by
  rw [readUnits.eq_def]
  dsimp only
  rw [if_neg (by omega), if_neg (by omega), if_pos h, if_pos (by simp [h₂, h₃])]

theorem isContinuation_ofNat {n : Nat} (h : n < 0x40) :
    isContinuation (UInt8.ofNat (0x80 + n)) = true := by
  simp only [isContinuation, UInt8.toNat_ofNat_of_lt' (show 0x80 + n < 0x100 by omega), Bool.and_eq_true,
    decide_eq_true_eq]
  omega

/-- The shortest group of a unit. -/
theorem isGroup_unitBytes (hu : u < 0x10000) : IsGroup (unitBytes u) u := by
  unfold unitBytes
  split
  · rename_i h
    have hb := UInt8.toNat_ofNat_of_lt' (show u < 0x100 by omega)
    have hgroup := IsGroup.one (b := UInt8.ofNat u) (by rwa [hb])
    rwa [hb] at hgroup
  split
  · have hb := UInt8.toNat_ofNat_of_lt' (show 0xC0 + u / 0x40 < 0x100 by omega)
    have hb₂ := UInt8.toNat_ofNat_of_lt' (show 0x80 + u % 0x40 < 0x100 by omega)
    have hjoin : (0xC0 + u / 0x40 - 0xC0) * 0x40 + (0x80 + u % 0x40 - 0x80) = u := by omega
    have hgroup := @IsGroup.two (UInt8.ofNat (0xC0 + u / 0x40)) (UInt8.ofNat (0x80 + u % 0x40))
      (by rw [hb]; omega) (isContinuation_ofNat (by omega))
    rwa [hb, hb₂, hjoin] at hgroup
  · have hb := UInt8.toNat_ofNat_of_lt' (show 0xE0 + u / 0x1000 < 0x100 by omega)
    have hb₂ := UInt8.toNat_ofNat_of_lt' (show 0x80 + u / 0x40 % 0x40 < 0x100 by omega)
    have hb₃ := UInt8.toNat_ofNat_of_lt' (show 0x80 + u % 0x40 < 0x100 by omega)
    have hjoin : (0xE0 + u / 0x1000 - 0xE0) * 0x1000 + (0x80 + u / 0x40 % 0x40 - 0x80) * 0x40 +
        (0x80 + u % 0x40 - 0x80) = u := by omega
    have hgroup := @IsGroup.three (UInt8.ofNat (0xE0 + u / 0x1000))
      (UInt8.ofNat (0x80 + u / 0x40 % 0x40)) (UInt8.ofNat (0x80 + u % 0x40))
      (by rw [hb]; omega) (isContinuation_ofNat (by omega)) (isContinuation_ofNat (by omega))
    rwa [hb, hb₂, hb₃, hjoin] at hgroup

theorem IsGroup.readUnits_append (h : IsGroup bytes u) :
    readUnits found (bytes ++ rest) = readUnits (u :: found) rest := by
  cases h with
  | one h => exact readUnits_one h
  | two h h₂ => exact readUnits_two h h₂
  | three h h₂ h₃ => exact readUnits_three h h₂ h₃

theorem readUnits_groups (found : List Nat) (rest : List UInt8) {groups : List (List UInt8 × Nat)}
    (h : ∀ g ∈ groups, IsGroup g.1 g.2) :
    readUnits found (groups.flatMap (·.1) ++ rest) =
      readUnits ((groups.map (·.2)).reverse ++ found) rest := by
  induction groups generalizing found with
  | nil => rfl
  | cons g groups ih =>
    obtain ⟨hg, hgroups⟩ := List.forall_mem_cons.mp h
    rw [List.flatMap_cons, List.append_assoc, hg.readUnits_append, ih _ hgroups]
    simp

/-- A character is a code point that is no surrogate. -/
theorem toNat_bounds (c : Char) :
    c.toNat < 0xD800 ∨ (0xDFFF < c.toNat ∧ c.toNat < 0x110000) := c.valid

theorem lt_of_mem_units {c : Char} {u : Nat} (h : u ∈ units c) : u < 0x10000 := by
  have hc := toNat_bounds c
  simp only [units] at h
  split at h
  · rw [List.mem_singleton] at h
    omega
  · simp only [List.mem_cons, List.not_mem_nil, or_false] at h
    omega

/-- The groups in which a text is written, each with its unit. -/
def groupsOf (s : List Char) : List (List UInt8 × Nat) :=
  (s.flatMap units).map fun u => (unitBytes u, u)

theorem isGroup_of_mem_groupsOf {s : List Char} {g : List UInt8 × Nat} (h : g ∈ groupsOf s) :
    IsGroup g.1 g.2 := by
  obtain ⟨u, hu, rfl⟩ := List.mem_map.mp h
  obtain ⟨c, -, hc⟩ := List.mem_flatMap.mp hu
  exact isGroup_unitBytes (lt_of_mem_units hc)

theorem encode_eq_groups (s : List Char) : encode s = (groupsOf s).flatMap (·.1) := by
  rw [encode, groupsOf, List.flatMap_map, List.flatMap_assoc]

theorem map_groupsOf (s : List Char) : (groupsOf s).map (·.2) = s.flatMap units := by
  rw [groupsOf, List.map_map]
  exact List.map_id _

theorem spell_units (c : Char) (s : List Char) (us : List Nat) :
    spell s ((units c).reverse ++ us) = spell (c :: s) us := by
  have hc := toNat_bounds c
  simp only [units]
  split
  · have hlow : isLowUnit c.toNat = false := by simp [isLowUnit]; omega
    have hhigh : isHighUnit c.toNat = false := by simp [isHighUnit]; omega
    simp only [List.reverse_singleton, List.cons_append, List.nil_append]
    rw [spell.eq_def]
    simp only [hlow, hhigh, Bool.false_eq_true, if_false, Char.ofNat_toNat]
  · have hlow : isLowUnit (0xDC00 + (c.toNat - 0x10000) % 0x400) = true := by
      simp [isLowUnit]; omega
    have hhigh : isHighUnit (0xD800 + (c.toNat - 0x10000) / 0x400) = true := by
      simp [isHighUnit]; omega
    have hjoin : 0x10000 + (0xD800 + (c.toNat - 0x10000) / 0x400 - 0xD800) * 0x400 +
        (0xDC00 + (c.toNat - 0x10000) % 0x400 - 0xDC00) = c.toNat := by omega
    simp only [List.reverse_cons, List.reverse_nil, List.nil_append, List.cons_append, spell, hlow,
      hhigh, hjoin, if_true, Char.ofNat_toNat]

theorem spell_flatMap_units (s t : List Char) (us : List Nat) :
    spell t ((s.flatMap units).reverse ++ us) = spell (s ++ t) us := by
  induction s generalizing us with
  | nil => rfl
  | cons c s ih =>
    rw [List.flatMap_cons, List.reverse_append, List.append_assoc, ih, spell_units, List.cons_append]

/-- Groups of the units of a text are decoded to the text. -/
theorem decode?_groups {groups : List (List UInt8 × Nat)} {s : List Char}
    (h : ∀ g ∈ groups, IsGroup g.1 g.2) (hunits : groups.map (·.2) = s.flatMap units) :
    decode? (groups.flatMap (·.1)) = some s := by
  have hread := readUnits_groups [] [] h
  have hspell := spell_flatMap_units s [] []
  simp only [List.append_nil, hunits] at hread hspell
  simp only [decode?, hread, readUnits, Option.bind_eq_bind, Option.bind_some, hspell, spell]

theorem decode?_encode (s : List Char) : decode? (encode s) = some s := by
  rw [encode_eq_groups]
  exact decode?_groups (fun _ => isGroup_of_mem_groupsOf) (map_groupsOf s)

end BeanClass.Text
