import BeanClass.Proofs.Names
import BeanClass.Proofs.Outcomes
import BeanClass.Proofs.Text.Blank
import BeanClass.Source.Parser

/-! # Texts of attributes

An attribute text is a name, an operator and a type, without operators in the name and in the type.
There is only one way to cut a text like this, and on a trimmed line the name and the type are what
remains of the outer parts without white space.
-/

namespace BeanClass.AttributeLine

open Name Text

variable {s text rest name type : List Char} {nullability : Nullability}

/-- A text without characters of operators. -/
def IsPlain (s : List Char) : Prop :=
  ∀ c ∈ s, isOperator c = false

theorem IsPlain.any_eq_false (h : IsPlain s) : s.any isOperator = false := by
  rw [List.any_eq_false]
  intro c hc
  rw [h c hc]
  exact Bool.false_ne_true

theorem isPlain_of_any (h : s.any isOperator = false) : IsPlain s :=
  fun c hc => Bool.not_eq_true _ |>.mp (List.any_eq_false.mp h c hc)

theorem isPlain_of_isIdentifier (h : isIdentifier s = true) : IsPlain s := by
  intro c hc
  have hcolon : c ≠ ':' := ne_of_isPart (isPart_of_mem h hc) (by decide)
  have hmark : c ≠ '!' := ne_of_isPart (isPart_of_mem h hc) (by decide)
  simp [isOperator, hcolon, hmark]

theorem isPlain_takeWhile (s : List Char) : IsPlain (s.takeWhile (!isOperator ·)) :=
  fun c hc => by simpa using List.mem_takeWhile_imp hc

theorem isOperator_head (nullability : Nullability) :
    ∃ c t, nullability.operator.toList = c :: t ∧ isOperator c = true := by
  cases nullability
  · exact ⟨':', [], rfl, rfl⟩
  · exact ⟨'!', [], rfl, rfl⟩
  · exact ⟨'!', ['!'], rfl, rfl⟩

/-- An operator is cut off whole, unless more of its characters follow. -/
theorem cutOperator?_append (nullability : Nullability) (h : IsPlain rest) :
    cutOperator? (nullability.operator.toList ++ rest) = some (nullability, rest) := by
  cases nullability with
  | nullable => rfl
  | notNull =>
    change cutOperator? ('!' :: rest) = _
    cases rest with
    | nil => rfl
    | cons c rest =>
      have hmark : c ≠ '!' := by
        rintro rfl
        exact absurd (h '!' List.mem_cons_self) (by decide)
      simp [cutOperator?, hmark]
  | neverNull => rfl

theorem cutOperator?_eq_some (h : cutOperator? text = some (nullability, rest)) :
    text = nullability.operator.toList ++ rest := by
  unfold cutOperator? at h
  split at h
  · cases h
    rfl
  · cases h
    rfl
  · cases h
    rfl
  · cases h

theorem core_of_ne_nil (h : trim s ≠ []) : core s = trim s := by
  rw [core, if_neg (by simpa using h)]

/-- What is left of white space is no identifier. -/
theorem isIdentifier_core (s : List Char) :
    isIdentifier (core s) = true ↔ isIdentifier (trim s) = true := by
  by_cases hgap : IsGap s
  · have htrim : trim s = [] := trim_eq_nil_iff.mpr hgap
    rw [htrim, core, if_pos (by rw [htrim]; rfl)]
    constructor
    · intro h
      obtain ⟨c, hc⟩ := List.exists_mem_of_ne_nil _ (ne_nil_of_isIdentifier h)
      exact absurd (hgap c (List.mem_of_mem_drop hc)) (by simp [isBlank_of_isIdentifier h hc])
    · intro h
      cases h
  · rw [core_of_ne_nil fun htrim => hgap (trim_eq_nil_iff.mp htrim)]

/-- A text is cut at the first character of an operator. -/
theorem span_append {n : List Char} (hn : IsPlain n) (nullability : Nullability) (t : List Char) :
    (n ++ (nullability.operator.toList ++ t)).takeWhile (!isOperator ·) = n ∧
      (n ++ (nullability.operator.toList ++ t)).dropWhile (!isOperator ·) =
        nullability.operator.toList ++ t := by
  have hplain : ∀ c ∈ n, (!isOperator c) = true := fun c hc => by rw [hn c hc]; rfl
  obtain ⟨c, more, hoperator, hc⟩ := isOperator_head nullability
  rw [List.takeWhile_append_of_pos hplain, List.dropWhile_append_of_pos hplain, hoperator]
  simp [hc]

theorem parts?_eq_some_iff : parts? text = some (name, nullability, type) ↔
    ∃ n t, text = n ++ (nullability.operator.toList ++ t) ∧ IsPlain n ∧ IsPlain t ∧ n ≠ [] ∧ t ≠ [] ∧
      name = core n ∧ type = core t := by
  constructor
  · intro h
    unfold parts? at h
    dsimp only at h
    split at h
    · rename_i operator rest hcut
      split at h
      · cases h
      · rename_i hcheck
        cases h
        simp only [Bool.or_eq_true, not_or, Bool.not_eq_true, List.isEmpty_eq_false_iff] at hcheck
        refine ⟨_, rest, ?_, isPlain_takeWhile text, isPlain_of_any hcheck.2, hcheck.1.1, hcheck.1.2,
          rfl, rfl⟩
        rw [← cutOperator?_eq_some hcut, List.takeWhile_append_dropWhile]
    · cases h
  · rintro ⟨n, t, rfl, hn, ht, hne, htne, rfl, rfl⟩
    obtain ⟨htake, hdrop⟩ := span_append hn nullability t
    rw [parts?, htake, hdrop, cutOperator?_append nullability ht]
    simp [hne, htne, ht.any_eq_false]

/-- The last part of a trimmed text does not consist of white space. -/
theorem trim_ne_nil_of_isTrimmed {start : List Char} (h : IsTrimmed (start ++ s)) (hne : s ≠ []) :
    trim s ≠ [] := by
  refine trim_ne_nil (List.getLast_mem hne) (h.last _ ?_)
  rw [List.getLast?_append_of_ne_nil _ hne]
  exact List.getLast?_eq_some_getLast hne

/-- The attributes that are read from trimmed lines. -/
theorem parse_eq_ok_iff {line : Line} {a : AttributeLine} (h : IsTrimmed line.text.toList) :
    AttributeLine.parse line = .ok a ↔
      ∃ n t, line.text.toList = n ++ (a.nullability.operator.toList ++ t) ∧ IsPlain n ∧ IsPlain t ∧
        isIdentifier (trim n) = true ∧ trim t ≠ [] ∧
        a = ⟨String.ofList (trim n), String.ofList (trim t), a.nullability, line.number⟩ := by
  constructor
  · intro hparse
    unfold AttributeLine.parse at hparse
    split at hparse
    · cases hparse
    · rename_i name nullability type hparts
      obtain ⟨hname, hparse⟩ := ite_else_error_ok_iff.mp hparse
      cases hparse
      obtain ⟨n, t, htext, hn, ht, -, htne, rfl, rfl⟩ := parts?_eq_some_iff.mp hparts
      rw [isIdentifier_core] at hname
      have htrim : trim t ≠ [] := by
        rw [htext, ← List.append_assoc] at h
        exact trim_ne_nil_of_isTrimmed h htne
      refine ⟨n, t, htext, hn, ht, hname, htrim, ?_⟩
      rw [core_of_ne_nil htrim, core_of_ne_nil (ne_nil_of_isIdentifier hname)]
  · rintro ⟨n, t, htext, hn, ht, hname, htrim, ha⟩
    have hne : n ≠ [] := by
      rintro rfl
      exact absurd hname (by decide)
    have htne : t ≠ [] := by
      rintro rfl
      exact htrim rfl
    have hparts := parts?_eq_some_iff.mpr ⟨n, t, htext, hn, ht, hne, htne, rfl, rfl⟩
    rw [core_of_ne_nil htrim, core_of_ne_nil (ne_nil_of_isIdentifier hname)] at hparts
    rw [AttributeLine.parse, hparts, ha]
    simp [hname]

end BeanClass.AttributeLine
