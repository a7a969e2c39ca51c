import Mathlib
import BeanClass.Text.Cut

/-! # Pieces of text

What the pieces between separators hold, and texts that are joined from pieces or lines.
-/

namespace BeanClass.Text

variable {sep : Char} {p : List Char} {pieces : List (List Char)}

theorem not_mem_of_mem_splitOn {s : List Char} (h : p ∈ s.splitOn sep) : sep ∉ p := by
  induction s generalizing p with
  | nil =>
    rw [List.mem_singleton.mp h]
    exact List.not_mem_nil
  | cons c s ih =>
    rw [List.splitOn_cons_eq_if_modifyHead] at h
    split at h
    · rcases List.mem_cons.mp h with rfl | h
      · exact List.not_mem_nil
      · exact ih h
    · rename_i hc
      obtain ⟨q, pieces, hpieces⟩ := List.exists_cons_of_ne_nil (List.splitOn_ne_nil sep s)
      rw [hpieces] at h ih
      rcases List.mem_cons.mp h with rfl | h
      · rw [List.mem_cons, not_or]
        exact ⟨fun heq => hc (beq_iff_eq.mpr heq.symm), ih List.mem_cons_self⟩
      · exact ih (List.mem_cons_of_mem q h)

theorem not_mem_of_mem_lines {s : List Char} (h : p ∈ lines s) : '\n' ∉ p := by
  unfold lines at h
  dsimp only at h
  split at h
  · exact not_mem_of_mem_splitOn (List.mem_of_mem_dropLast h)
  · exact not_mem_of_mem_splitOn h

/-- The lines of texts that end in a line break each are these texts. -/
theorem lines_flatMap (h : ∀ p ∈ pieces, '\n' ∉ p) :
    lines (pieces.flatMap (· ++ ['\n'])) = pieces := by
  have hsplit : (pieces.flatMap (· ++ ['\n'])).splitOn '\n' = pieces ++ [[]] := by
    induction pieces with
    | nil => rfl
    | cons p pieces ih =>
      obtain ⟨hp, hpieces⟩ := List.forall_mem_cons.mp h
      rw [List.flatMap_cons, List.append_assoc, List.singleton_append,
        List.splitOn_append_cons_self_of_not_mem hp, ih hpieces]
      rfl
  rw [lines, hsplit]
  simp

/-- Another separator in the place of the old one joins the same pieces. -/
theorem substitute_eq (old new : Char) (s : List Char) :
    substitute old new s = List.intercalate [new] (s.splitOn old) := by
  induction s with
  | nil => rfl
  | cons c s ih =>
    rw [List.splitOn_cons_eq_if_modifyHead]
    change (if c = old then new else c) :: substitute old new s = _
    rw [ih]
    obtain ⟨p, pieces, hpieces⟩ := List.exists_cons_of_ne_nil (List.splitOn_ne_nil old s)
    rw [hpieces]
    by_cases hc : c = old
    · rw [if_pos hc, if_pos (beq_iff_eq.mpr hc), List.intercalate_cons_cons]
      rfl
    · rw [if_neg hc, if_neg (hc ∘ beq_iff_eq.mp), List.modifyHead_cons,
        List.intercalate_cons_cons_left]

theorem mem_intercalate {c : Char} (hc : c ∈ List.intercalate [sep] pieces) :
    c = sep ∨ ∃ p ∈ pieces, c ∈ p := by
  induction pieces with
  | nil => cases hc
  | cons p pieces ih =>
    cases pieces with
    | nil =>
      rw [List.intercalate_singleton] at hc
      exact Or.inr ⟨p, List.mem_cons_self, hc⟩
    | cons q pieces =>
      rw [List.intercalate_cons_cons, List.append_assoc, List.mem_append, List.mem_append] at hc
      rcases hc with hc | hc | hc
      · exact Or.inr ⟨p, List.mem_cons_self, hc⟩
      · exact Or.inl (List.mem_singleton.mp hc)
      · rcases ih hc with hc | ⟨r, hr, hc⟩
        · exact Or.inl hc
        · exact Or.inr ⟨r, List.mem_cons_of_mem _ hr, hc⟩

theorem not_mem_takeWhile (sep : Char) (s : List Char) : sep ∉ s.takeWhile (· != sep) := by
  intro hmem
  simpa using List.mem_takeWhile_imp hmem

/-- A text is cut at the first occurrence of a separator. -/
theorem eq_append_of_dropWhile {sep c : Char} {s rest : List Char}
    (h : s.dropWhile (· != sep) = c :: rest) : s = s.takeWhile (· != sep) ++ sep :: rest := by
  have hc : c = sep := by
    have hhead := List.head?_dropWhile_not (· != sep) s
    rw [h] at hhead
    simpa using hhead
  rw [← hc, ← h, hc, List.takeWhile_append_dropWhile]

/-- Every character of a text is a separator or stands in a piece. -/
theorem mem_splitOn_of_mem (sep : Char) {c : Char} {s : List Char} (h : c ∈ s) :
    c = sep ∨ ∃ p ∈ s.splitOn sep, c ∈ p := by
  have hjoin : List.intercalate [sep] (s.splitOn sep) = s := List.intercalate_splitOn sep
  rw [← hjoin] at h
  exact mem_intercalate h

end BeanClass.Text
