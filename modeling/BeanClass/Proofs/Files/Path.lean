import BeanClass.Files.Path
import BeanClass.Proofs.Text.Cut

/-! # Slashes at the end of a path

Without the slashes at its end a path follows the same names, up to a last step that stays in place.
-/

namespace BeanClass

variable {sep d : Char} {s t : List Char} {path : String}

/-- A character other than the separator at the end of a text ends its last piece. -/
theorem Text.exists_splitOn_concat (h : d ≠ sep) (s : List Char) :
    ∃ pieces last, (s ++ [d]).splitOn sep = pieces ++ [last ++ [d]] := by
  induction s with
  | nil => exact ⟨[], [], List.splitOn_eq_singleton (by simpa using h.symm)⟩
  | cons c s ih =>
    obtain ⟨pieces, last, heq⟩ := ih
    rw [List.cons_append, List.splitOn_cons_eq_if_modifyHead, heq]
    split
    · exact ⟨[] :: pieces, last, rfl⟩
    · cases pieces with
      | nil => exact ⟨[], c :: last, rfl⟩
      | cons p pieces => exact ⟨(c :: p) :: pieces, last, rfl⟩

namespace Path

/-- The names between slashes. -/
def names (path : String) : List String :=
  (pieces path).filter (!·.isEmpty)

theorem steps_eq (path : String) : steps path = names path ∨ steps path = names path ++ ["."] := by
  unfold steps names
  dsimp only
  split
  · exact Or.inr rfl
  · exact Or.inl rfl

theorem steps_of_getLast? (h : (pieces path).getLast? ≠ some "") : steps path = names path :=
  if_neg (by simp [h])

theorem pieces_concat_slash (s : List Char) :
    pieces (String.ofList (s ++ ['/'])) = pieces (String.ofList s) ++ [""] := by
  simp only [pieces, String.toList_ofList]
  rw [List.splitOn_append_cons_self]
  simp

theorem names_append_slashes (s : List Char) (k : Nat) :
    names (String.ofList (s ++ List.replicate k '/')) = names (String.ofList s) := by
  induction k with
  | zero => rw [List.replicate_zero, List.append_nil]
  | succ k ih =>
    rw [List.replicate_succ', ← List.append_assoc, names, pieces_concat_slash, List.filter_append]
    exact (List.append_nil _).trans ih

/-- A path that does not end in a slash, other than the root, has no step that stays in place. -/
theorem steps_ofList (h : s.getLast? ≠ some '/' ∨ s = ['/']) :
    steps (String.ofList s) = names (String.ofList s) := by
  rcases h with h | rfl
  · rcases List.eq_nil_or_concat' s with rfl | ⟨s, d, rfl⟩
    · rfl
    · rw [List.getLast?_concat, ne_eq, Option.some_inj] at h
      obtain ⟨found, last, heq⟩ := Text.exists_splitOn_concat h s
      apply steps_of_getLast?
      simp [pieces, heq]
  · rfl

/-- What is cut off the end of a path is slashes, and the start of the path stays. -/
theorem exists_slashes (path : String) : ∃ s k, withoutSlashes path = String.ofList s ∧
    path = String.ofList (s ++ List.replicate k '/') ∧ s.head? = path.toList.head? ∧
    (s.getLast? ≠ some '/' ∨ s = ['/']) := by
  unfold withoutSlashes
  split
  · rename_i hpath
    refine ⟨[], 0, ?_, ?_, by rw [hpath], Or.inl nofun⟩ <;>
      rw [← String.toList_inj, hpath] <;> rfl
  · rename_i c t hpath
    have hslashes : t.reverse.takeWhile (· == '/') =
        List.replicate (t.reverse.takeWhile (· == '/')).length '/' :=
      List.eq_replicate_iff.mpr ⟨rfl, fun c hc => by simpa using List.mem_takeWhile_imp hc⟩
    have hparts : (t.reverse.dropWhile (· == '/')).reverse ++
        List.replicate (t.reverse.takeWhile (· == '/')).length '/' = t := by
      rw [← List.reverse_inj, List.reverse_append, List.reverse_reverse, List.reverse_replicate,
        ← hslashes, List.takeWhile_append_dropWhile]
    refine ⟨_, (t.reverse.takeWhile (· == '/')).length, rfl, ?_, by rw [hpath]; rfl, ?_⟩
    · rw [← String.toList_inj, hpath, String.toList_ofList, List.cons_append, hparts]
    · cases hkept : t.reverse.dropWhile (· == '/') with
      | nil =>
        by_cases hc : c = '/'
        · exact Or.inr (by rw [hc]; rfl)
        · exact Or.inl (by simpa using hc)
      | cons d kept =>
        have hd : (d == '/') = false := by
          have hhead := List.head?_dropWhile_not (· == '/') t.reverse
          rw [hkept] at hhead
          simpa using hhead
        refine Or.inl ?_
        rw [List.reverse_cons, ← List.cons_append, List.getLast?_concat]
        simpa using hd

theorem isEmpty_withoutSlashes (path : String) : (withoutSlashes path).isEmpty = path.isEmpty := by
  obtain ⟨s, k, hwithout, -, hhead, -⟩ := exists_slashes path
  rw [Bool.eq_iff_iff, String.isEmpty_iff, String.isEmpty_iff, ← String.toList_eq_nil_iff,
    ← String.toList_eq_nil_iff, ← List.head?_eq_none_iff, ← List.head?_eq_none_iff, hwithout,
    String.toList_ofList, hhead]

theorem isAbsolute_withoutSlashes (path : String) : isAbsolute (withoutSlashes path) = isAbsolute path := by
  obtain ⟨s, k, hwithout, -, hhead, -⟩ := exists_slashes path
  rw [isAbsolute, isAbsolute, hwithout, String.toList_ofList, hhead]

theorem utf8ByteSize_withoutSlashes_le (path : String) :
    (withoutSlashes path).utf8ByteSize ≤ path.utf8ByteSize := by
  obtain ⟨s, k, hwithout, hpath, -⟩ := exists_slashes path
  rw [hwithout]
  conv_rhs => rw [hpath]
  rw [String.ofList_append, String.utf8ByteSize_append]
  exact Nat.le_add_right _ _

theorem steps_withoutSlashes (path : String) :
    steps path = steps (withoutSlashes path) ∨ steps path = steps (withoutSlashes path) ++ ["."] := by
  obtain ⟨s, k, hwithout, hpath, -, hend⟩ := exists_slashes path
  have hnames : names path = steps (withoutSlashes path) := by
    rw [hwithout, steps_ofList hend]
    conv_lhs => rw [hpath]
    exact names_append_slashes s k
  rw [← hnames]
  exact steps_eq path

end Path

end BeanClass
