import Mathlib
import BeanClass.Text.Blank

/-! # Trimmed text

Trimming gives the part of a text between the white space at its ends.
-/

namespace BeanClass.Text

variable {c : Char} {s : List Char}

/-- Neither the first nor the last character is white space. -/
structure IsTrimmed (s : List Char) : Prop where
  head : ∀ c ∈ s.head?, isBlank c = false
  last : ∀ c ∈ s.getLast?, isBlank c = false

theorem isTrimmed_of_forall (h : ∀ c ∈ s, isBlank c = false) : IsTrimmed s where
  head c hc := h c (List.mem_of_mem_head? hc)
  last c hc := h c (List.mem_of_mem_getLast? hc)

theorem dropWhile_of_head? (h : ∀ c ∈ s.head?, isBlank c = false) : s.dropWhile isBlank = s := by
  cases s with
  | nil => rfl
  | cons c s => exact List.dropWhile_cons_of_neg (by simp [h c rfl])

theorem IsTrimmed.trim_eq (h : IsTrimmed s) : trim s = s := by
  have hlast : ∀ c ∈ s.reverse.head?, isBlank c = false := by
    rw [List.head?_reverse]
    exact h.last
  rw [trim, trimStart, dropWhile_of_head? h.head, trimEnd, dropWhile_of_head? hlast,
    List.reverse_reverse]

theorem trim_prefix_trimStart (s : List Char) : trim s <+: trimStart s :=
  List.rdropWhile_prefix isBlank _

theorem mem_of_mem_trim (h : c ∈ trim s) : c ∈ s :=
  (List.dropWhile_suffix isBlank).subset ((trim_prefix_trimStart s).subset h)

theorem isTrimmed_trim (s : List Char) : IsTrimmed (trim s) where
  head c hc := by
    obtain ⟨rest, hrest⟩ := trim_prefix_trimStart s
    have hstart : (trimStart s).head? = some c := by
      rw [← hrest, List.head?_append, Option.mem_def.mp hc]
      rfl
    have hblank := List.head?_dropWhile_not isBlank s
    rw [trimStart] at hstart
    rw [hstart] at hblank
    exact hblank
  last c hc := by
    have hne : trim s ≠ [] := by
      intro hnil
      rw [hnil] at hc
      cases hc
    have hblank := List.rdropWhile_last_not isBlank (trimStart s) hne
    rw [List.getLast?_eq_some_getLast hne] at hc
    cases hc
    exact Bool.not_eq_true _ |>.mp hblank

theorem trim_cons (h : isBlank c = true) (s : List Char) : trim (c :: s) = trim s := by
  rw [trim, trimStart, List.dropWhile_cons_of_pos h, trim, trimStart]

theorem trim_concat (h : isBlank c = true) (s : List Char) : trim (s ++ [c]) = trim s := by
  have hend : ∀ t : List Char, trimEnd (t ++ [c]) = trimEnd t :=
    fun t => List.rdropWhile_concat_pos isBlank t c h
  rw [trim, trim, trimStart, trimStart, List.dropWhile_append]
  split
  · rename_i hempty
    rw [List.isEmpty_iff.mp hempty, List.dropWhile_cons_of_pos h]
    rfl
  · exact hend _

/-- White space only. -/
def IsGap (s : List Char) : Prop :=
  ∀ c ∈ s, isBlank c = true

theorem IsGap.not_mem (h : IsGap s) (hc : isBlank c = false) : c ∉ s := by
  intro hmem
  rw [h c hmem] at hc
  cases hc

theorem IsGap.append {t : List Char} (hs : IsGap s) (ht : IsGap t) : IsGap (s ++ t) :=
  List.forall_mem_append.mpr ⟨hs, ht⟩

theorem trim_gap_append {u : List Char} (h : IsGap u) (s : List Char) : trim (u ++ s) = trim s := by
  induction u with
  | nil => rfl
  | cons c u ih =>
    obtain ⟨hc, hu⟩ := List.forall_mem_cons.mp h
    rw [List.cons_append, trim_cons hc, ih hu]

theorem trim_append_gap {v : List Char} (h : IsGap v) (s : List Char) : trim (s ++ v) = trim s := by
  induction v using List.reverseRecOn with
  | nil => rw [List.append_nil]
  | append_singleton v c ih =>
    rw [← List.append_assoc, trim_concat (h c (by simp)), ih fun d hd => h d (by simp [hd])]

theorem trimEnd_append_gap (s : List Char) : ∃ v, IsGap v ∧ s = trimEnd s ++ v := by
  refine ⟨(s.reverse.takeWhile isBlank).reverse, fun c hc => ?_, ?_⟩
  · exact List.mem_takeWhile_imp (List.mem_reverse.mp hc)
  · rw [trimEnd, ← List.reverse_append, List.takeWhile_append_dropWhile, List.reverse_reverse]

/-- Trimming takes away white space only. -/
theorem exists_gaps (s : List Char) : ∃ u v, IsGap u ∧ IsGap v ∧ s = u ++ trim s ++ v := by
  obtain ⟨v, hv, hend⟩ := trimEnd_append_gap (trimStart s)
  refine ⟨s.takeWhile isBlank, v, fun c hc => List.mem_takeWhile_imp hc, hv, ?_⟩
  rw [List.append_assoc, trim, ← hend, trimStart, List.takeWhile_append_dropWhile]

/-- Nothing but white space is behind the first `n` characters exactly if these go as far as the
trimmed text. -/
theorem isGap_drop_iff {n : Nat} : IsGap (s.drop n) ↔ (trimEnd s).length ≤ n := by
  obtain ⟨v, hv, hs⟩ := trimEnd_append_gap s
  constructor
  · intro hgap
    by_contra hlt
    have hne : (trimEnd s).drop n ≠ [] := by
      rw [ne_eq, List.drop_eq_nil_iff]
      exact hlt
    have hlast : isBlank ((trimEnd s).getLast (List.ne_nil_of_drop_ne_nil hne)) ≠ true :=
      List.rdropWhile_last_not isBlank s _
    rw [hs, List.drop_append_of_le_length (by omega)] at hgap
    refine hlast (hgap _ (List.mem_append_left _ ?_))
    rw [← List.getLast_drop hne]
    exact List.getLast_mem hne
  · intro hle c hc
    rw [hs, List.drop_append, List.drop_eq_nil_of_le hle, List.nil_append] at hc
    exact hv c (List.mem_of_mem_drop hc)

theorem mem_trim_of_mem (hc : c ∈ s) (h : isBlank c = false) : c ∈ trim s := by
  obtain ⟨u, v, hu, hv, hs⟩ := exists_gaps s
  rw [hs, List.mem_append, List.mem_append] at hc
  rcases hc with (hc | hc) | hc
  · exact absurd hc (hu.not_mem h)
  · exact hc
  · exact absurd hc (hv.not_mem h)

/-- Something remains of a text that is not all white space. -/
theorem trim_ne_nil (hc : c ∈ s) (h : isBlank c = false) : trim s ≠ [] :=
  List.ne_nil_of_mem (mem_trim_of_mem hc h)

theorem trim_eq_nil_iff : trim s = [] ↔ IsGap s := by
  constructor
  · intro h c hc
    by_contra hblank
    exact trim_ne_nil hc (Bool.not_eq_true _ |>.mp hblank) h
  · intro h
    have htrim := trim_gap_append h []
    rwa [List.append_nil] at htrim

theorem head?_trim (h : isBlank c = false) (s : List Char) : (trim (c :: s)).head? = some c := by
  have hne : trim (c :: s) ≠ [] := trim_ne_nil List.mem_cons_self h
  obtain ⟨rest, hrest⟩ := trim_prefix_trimStart (c :: s)
  obtain ⟨d, t, hd⟩ := List.exists_cons_of_ne_nil hne
  rw [trimStart, List.dropWhile_cons_of_neg (by simp [h]), hd] at hrest
  injection hrest with hdc
  rw [hd, hdc]
  rfl

/-- Whatever stands between two trimmed texts that are not empty. -/
theorem IsTrimmed.append {t : List Char} (hs : IsTrimmed s) (hsne : s ≠ []) (u : List Char)
    (ht : IsTrimmed t) (htne : t ≠ []) : IsTrimmed (s ++ u ++ t) where
  head := by
    rw [List.append_assoc, List.head?_append_of_ne_nil _ hsne]
    exact hs.head
  last := by
    rw [List.getLast?_append_of_ne_nil _ htne]
    exact ht.last

end BeanClass.Text
