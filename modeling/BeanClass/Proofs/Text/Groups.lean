import BeanClass.Proofs.Outcomes
import BeanClass.Proofs.Text.ModifiedUtf8

/-! # The byte groups of a decoded text

Bytes are decoded exactly if they fall into groups of one to three bytes whose units are a text in
UTF-16. The shortest group of a unit is never longer than the one that was read, so no text is encoded
in more bytes than it was decoded from, and in other bytes only if one of the groups was too long.
-/

namespace BeanClass.Text

variable {b : UInt8} {bytes : List UInt8} {u : Nat} {us : List Nat} {s : List Char}

theorem isContinuation_iff : isContinuation b = true ↔ 0x80 ≤ b.toNat ∧ b.toNat < 0xC0 := by
  simp [isContinuation]

theorem IsGroup.lt (h : IsGroup bytes u) : u < 0x10000 := by
  cases h with
  | one h => omega
  | two h h₂ =>
    rw [isContinuation_iff] at h₂
    omega
  | three h h₂ h₃ =>
    rw [isContinuation_iff] at h₂ h₃
    omega

/-- The least number of bytes in which a unit can be written. -/
def unitSize (u : Nat) : Nat :=
  if 0 < u ∧ u < 0x80 then 1 else if u < 0x800 then 2 else 3

theorem length_unitBytes (u : Nat) : (unitBytes u).length = unitSize u := by
  unfold unitBytes unitSize
  split
  · rfl
  · split <;> rfl

theorem IsGroup.unitSize_le (h : IsGroup bytes u) : unitSize u ≤ bytes.length := by
  unfold unitSize
  cases h with
  | one h => rw [if_pos h]; rfl
  | two h h₂ =>
    rw [isContinuation_iff] at h₂
    split
    · exact Nat.le_succ 1
    · rw [if_pos (by omega)]
      exact Nat.le_refl 2
  | three h h₂ h₃ =>
    split
    · exact Nat.le_add_left 1 2
    · split
      · exact Nat.le_succ 2
      · exact Nat.le_refl 3

/-- The group that is written for a unit is the only one that is not too long. -/
theorem IsGroup.unitBytes_eq_iff (h : IsGroup bytes u) :
    unitBytes u = bytes ↔ bytes.length ≤ unitSize u := by
  constructor
  · rintro rfl
    exact (length_unitBytes u).le
  · intro hlength
    unfold unitSize at hlength
    unfold unitBytes
    cases h with
    | one h => rw [if_pos h, UInt8.ofNat_toNat]
    | @two b b₂ h h₂ =>
      rw [isContinuation_iff] at h₂
      simp only [List.length_cons, List.length_nil] at hlength
      generalize hu : (b.toNat - 0xC0) * 0x40 + (b₂.toNat - 0x80) = u at hlength ⊢
      have hshort : ¬(0 < u ∧ u < 0x80) := fun hu => by rw [if_pos hu] at hlength; omega
      have hb : 0xC0 + u / 0x40 = b.toNat := by omega
      have hb₂ : 0x80 + u % 0x40 = b₂.toNat := by omega
      rw [if_neg hshort, if_pos (by omega), hb, hb₂, UInt8.ofNat_toNat, UInt8.ofNat_toNat]
    | @three b b₂ b₃ h h₂ h₃ =>
      rw [isContinuation_iff] at h₂ h₃
      simp only [List.length_cons, List.length_nil] at hlength
      generalize hu : (b.toNat - 0xE0) * 0x1000 + (b₂.toNat - 0x80) * 0x40 + (b₃.toNat - 0x80) = u
        at hlength ⊢
      have hone : ¬(0 < u ∧ u < 0x80) := fun hu => by rw [if_pos hu] at hlength; omega
      have htwo : ¬u < 0x800 := fun hu => by rw [if_neg hone, if_pos hu] at hlength; omega
      have hb : 0xE0 + u / 0x1000 = b.toNat := by omega
      have hb₂ : 0x80 + u / 0x40 % 0x40 = b₂.toNat := by omega
      have hb₃ : 0x80 + u % 0x40 = b₃.toNat := by omega
      rw [if_neg hone, if_neg htwo, hb, hb₂, hb₃, UInt8.ofNat_toNat, UInt8.ofNat_toNat,
        UInt8.ofNat_toNat]

/-- A group has neither a zero byte nor one that starts four bytes. -/
theorem IsGroup.byte_bounds (h : IsGroup bytes u) (hb : b ∈ bytes) : 0 < b.toNat ∧ b.toNat < 0xF0 := by
  cases h with
  | one h =>
    rw [List.mem_singleton] at hb
    subst hb
    omega
  | two h h₂ =>
    rw [isContinuation_iff] at h₂
    rcases List.mem_pair.mp hb with rfl | rfl <;> omega
  | three h h₂ h₃ =>
    rw [isContinuation_iff] at h₂ h₃
    rcases List.mem_cons.mp hb with rfl | hb
    · omega
    · rcases List.mem_pair.mp hb with rfl | rfl <;> omega

/-- Bytes that are read as units fall into groups of these units. -/
theorem readUnits_eq_some {found : List Nat} (h : readUnits found bytes = some us) :
    ∃ groups : List (List UInt8 × Nat), (∀ g ∈ groups, IsGroup g.1 g.2) ∧
      bytes = groups.flatMap (·.1) ∧ us = (groups.map (·.2)).reverse ++ found := by
  -- one more group in front of those of the remaining bytes
  have hcons : ∀ {group rest : List UInt8} {v : Nat} {found : List Nat}, IsGroup group v →
      (∃ groups : List (List UInt8 × Nat), (∀ g ∈ groups, IsGroup g.1 g.2) ∧
        rest = groups.flatMap (·.1) ∧ us = (groups.map (·.2)).reverse ++ v :: found) →
      ∃ groups : List (List UInt8 × Nat), (∀ g ∈ groups, IsGroup g.1 g.2) ∧
        group ++ rest = groups.flatMap (·.1) ∧ us = (groups.map (·.2)).reverse ++ found := by
    rintro group rest v found hgroup ⟨groups, hgroups, rfl, rfl⟩
    exact ⟨(group, v) :: groups, List.forall_mem_cons.mpr ⟨hgroup, hgroups⟩, by simp, by simp⟩
  fun_induction readUnits found bytes with
  | case1 found =>
    cases h
    exact ⟨[], nofun, rfl, rfl⟩
  | case2 found b rest hb ih => exact hcons (.one hb) (ih h)
  | case3 found b _ hb b₂ rest hb₂ ih => exact hcons (.two hb hb₂) (ih h)
  | case6 found b _ _ hb b₂ b₃ rest hcont ih =>
    obtain ⟨hb₂, hb₃⟩ := Bool.and_eq_true_iff.mp hcont
    exact hcons (.three hb hb₂ hb₃) (ih h)
  | _ => cases h

theorem units_ofNat (h : u < 0x10000) (hlow : ¬isLowUnit u = true) (hhigh : ¬isHighUnit u = true) :
    units (Char.ofNat u) = [u] := by
  simp only [isLowUnit, isHighUnit, Bool.and_eq_true, decide_eq_true_eq] at hlow hhigh
  have hvalid : u.isValidChar := by
    unfold Nat.isValidChar
    omega
  have hchar : (Char.ofNat u).toNat = u := by rw [Char.toNat_ofNat, if_pos hvalid]
  simp only [units, hchar, if_pos h]

theorem units_pair {v : Nat} (hlow : isLowUnit u = true) (hhigh : isHighUnit v = true) :
    units (Char.ofNat (0x10000 + (v - 0xD800) * 0x400 + (u - 0xDC00))) = [v, u] := by
  simp only [isLowUnit, isHighUnit, Bool.and_eq_true, decide_eq_true_eq] at hlow hhigh
  generalize hn : 0x10000 + (v - 0xD800) * 0x400 + (u - 0xDC00) = n
  have hvalid : n.isValidChar := by
    unfold Nat.isValidChar
    omega
  have hchar : (Char.ofNat n).toNat = n := by rw [Char.toNat_ofNat, if_pos hvalid]
  have hv : 0xD800 + (n - 0x10000) / 0x400 = v := by omega
  have hu : 0xDC00 + (n - 0x10000) % 0x400 = u := by omega
  simp only [units, hchar, hv, hu]
  exact if_neg (by omega)

/-- The characters that units spell have these units again. -/
theorem spell_eq_some {found : List Char} (h : spell found us = some s)
    (hus : ∀ u ∈ us, u < 0x10000) : ∃ t, s = t ++ found ∧ t.flatMap units = us.reverse := by
  fun_induction spell found us with
  | case1 found =>
    cases h
    exact ⟨[], rfl, rfl⟩
  | case2 found u hlow v rest hhigh ih =>
    obtain ⟨t, rfl, ht⟩ := ih h fun w hw => hus w (by simp [hw])
    refine ⟨t ++ [Char.ofNat (0x10000 + (v - 0xD800) * 0x400 + (u - 0xDC00))], by simp, ?_⟩
    simp [ht, units_pair hlow hhigh]
  | case6 found u rest hlow hhigh ih =>
    obtain ⟨t, rfl, ht⟩ := ih h fun w hw => hus w (by simp [hw])
    have hu := units_ofNat (hus u List.mem_cons_self) hlow hhigh
    exact ⟨t ++ [Char.ofNat u], by simp, by simp [ht, hu]⟩
  | _ => cases h

/-- The units are the text in UTF-16: a character up to U+FFFF is one unit, any other one is a high
surrogate and a low one. -/
inductive IsUtf16 : List Nat → List Char → Prop
  | nil : IsUtf16 [] []
  | one {c : Char} {us : List Nat} {s : List Char} : c.toNat < 0x10000 → IsUtf16 us s →
    IsUtf16 (c.toNat :: us) (c :: s)
  | pair {c : Char} {high low : Nat} {us : List Nat} {s : List Char} : isHighUnit high = true →
    isLowUnit low = true → c.toNat = 0x10000 + (high - 0xD800) * 0x400 + (low - 0xDC00) →
    IsUtf16 us s → IsUtf16 (high :: low :: us) (c :: s)

theorem isUtf16_units (s : List Char) : IsUtf16 (s.flatMap units) s := by
  induction s with
  | nil => exact .nil
  | cons c s ih =>
    have hc := toNat_bounds c
    rw [List.flatMap_cons, units]
    split
    · exact .one ‹_› ih
    · apply IsUtf16.pair _ _ _ ih
      · simp only [isHighUnit, Bool.and_eq_true, decide_eq_true_eq]
        omega
      · simp only [isLowUnit, Bool.and_eq_true, decide_eq_true_eq]
        omega
      · omega

theorem isUtf16_iff : IsUtf16 us s ↔ us = s.flatMap units := by
  constructor
  · intro h
    induction h with
    | nil => rfl
    | @one c us s hc _ ih =>
      have hunits : units c = [c.toNat] := if_pos hc
      rw [List.flatMap_cons, hunits, ← ih, List.singleton_append]
    | @pair c high low us s hhigh hlow hc _ ih =>
      have hunits := units_pair hlow hhigh
      rw [← hc, Char.ofNat_toNat] at hunits
      rw [List.flatMap_cons, hunits, ← ih]
      rfl
  · rintro rfl
    exact isUtf16_units s

/-- The bytes fall into groups whose units are the text. -/
structure IsSpelling (groups : List (List UInt8 × Nat)) (bytes : List UInt8) (s : List Char) :
    Prop where
  isGroup : ∀ g ∈ groups, IsGroup g.1 g.2
  bytes_eq : bytes = groups.flatMap (·.1)
  utf16 : IsUtf16 (groups.map (·.2)) s

theorem exists_isSpelling (h : decode? bytes = some s) : ∃ groups, IsSpelling groups bytes s := by
  simp only [decode?, Option.bind_eq_bind, Option.bind_eq_some_iff] at h
  obtain ⟨us, hus, hspell⟩ := h
  obtain ⟨groups, hgroups, rfl, rfl⟩ := readUnits_eq_some hus
  have hlt : ∀ u ∈ (groups.map (·.2)).reverse ++ [], u < 0x10000 := by
    intro u hu
    simp only [List.append_nil, List.mem_reverse, List.mem_map] at hu
    obtain ⟨g, hg, rfl⟩ := hu
    exact (hgroups g hg).lt
  obtain ⟨t, rfl, ht⟩ := spell_eq_some hspell hlt
  refine ⟨groups, hgroups, rfl, isUtf16_iff.mpr ?_⟩
  simpa using ht.symm

namespace IsSpelling

variable {groups : List (List UInt8 × Nat)}

theorem decode?_eq (h : IsSpelling groups bytes s) : decode? bytes = some s := by
  rw [h.bytes_eq]
  exact decode?_groups h.isGroup (isUtf16_iff.mp h.utf16)

theorem encode_eq (h : IsSpelling groups bytes s) : encode s = groups.flatMap fun g => unitBytes g.2 := by
  rw [encode, ← List.flatMap_assoc, ← isUtf16_iff.mp h.utf16, List.flatMap_map]

theorem length_unitBytes_le (h : IsSpelling groups bytes s) :
    ∀ g ∈ groups, (unitBytes g.2).length ≤ g.1.length := by
  intro g hg
  rw [length_unitBytes]
  exact (h.isGroup g hg).unitSize_le

theorem length_encode_le (h : IsSpelling groups bytes s) : (encode s).length ≤ bytes.length := by
  rw [h.encode_eq, h.bytes_eq, List.length_flatMap, List.length_flatMap]
  exact List.sum_le_sum h.length_unitBytes_le

/-- A text is written in the bytes that it was decoded from unless one of their groups is too long. -/
theorem encode_eq_iff (h : IsSpelling groups bytes s) :
    encode s = bytes ↔ ∀ g ∈ groups, g.1.length ≤ unitSize g.2 := by
  rw [h.encode_eq, h.bytes_eq, flatMap_eq_iff h.length_unitBytes_le]
  exact forall₂_congr fun g hg => (h.isGroup g hg).unitBytes_eq_iff

end IsSpelling

theorem length_encode_le (h : decode? bytes = some s) : (encode s).length ≤ bytes.length := by
  obtain ⟨groups, hgroups⟩ := exists_isSpelling h
  exact hgroups.length_encode_le

theorem byte_bounds_of_mem_encode (h : b ∈ encode s) : 0 < b.toNat ∧ b.toNat < 0xF0 := by
  rw [encode_eq_groups] at h
  obtain ⟨g, hg, hb⟩ := List.mem_flatMap.mp h
  exact (isGroup_of_mem_groupsOf hg).byte_bounds hb

/-- A text is decoded from its encoding, which has no zero byte and none that starts four bytes. It is
decoded from the bytes exactly if they fall into groups whose units are the text in UTF-16. Its
encoding is then not longer than these bytes, and consists of them unless a group is too long. -/
theorem decode?_eq_some_iff (bytes : List UInt8) (s : List Char) :
    decode? (encode s) = some s ∧ (∀ b ∈ encode s, 0 < b.toNat ∧ b.toNat < 0xF0) ∧
      (decode? bytes = some s ↔ ∃ groups, IsSpelling groups bytes s) ∧
      ∀ groups, IsSpelling groups bytes s → (encode s).length ≤ bytes.length ∧
        (encode s = bytes ↔ ∀ g ∈ groups, g.1.length ≤ unitSize g.2) := by
  refine ⟨decode?_encode s, fun b hb => byte_bounds_of_mem_encode hb, ?_, ?_⟩
  · constructor
    · exact exists_isSpelling
    · rintro ⟨groups, h⟩
      exact h.decode?_eq
  · intro groups h
    exact ⟨h.length_encode_le, h.encode_eq_iff⟩

/-- The character 0, the letter A in two bytes and a character beyond U+FFFF. -/
def overlongText : List UInt8 :=
  [0xC0, 0x80, 0xC1, 0x81, 0xED, 0xA0, 0xBD, 0xED, 0xB8, 0x80]

theorem decode?_eq_some_iff_overlong :
    ∃ groups, IsSpelling groups overlongText [Char.ofNat 0, 'A', Char.ofNat 0x1F600] ∧
      decode? overlongText = some [Char.ofNat 0, 'A', Char.ofNat 0x1F600] ∧
      (encode [Char.ofNat 0, 'A', Char.ofNat 0x1F600]).length ≤ overlongText.length ∧
      ∃ g ∈ groups, unitSize g.2 < g.1.length := by
  obtain ⟨-, -, hiff, hspelling⟩ :=
    decode?_eq_some_iff overlongText [Char.ofNat 0, 'A', Char.ofNat 0x1F600]
  have hdecode : decode? overlongText = some [Char.ofNat 0, 'A', Char.ofNat 0x1F600] := by decide
  obtain ⟨groups, hgroups⟩ := hiff.mp hdecode
  obtain ⟨hlength, hshort⟩ := hspelling groups hgroups
  refine ⟨groups, hgroups, hdecode, hlength, ?_⟩
  have hne : encode [Char.ofNat 0, 'A', Char.ofNat 0x1F600] ≠ overlongText := by decide
  rw [ne_eq, hshort] at hne
  push Not at hne
  exact hne

end BeanClass.Text
