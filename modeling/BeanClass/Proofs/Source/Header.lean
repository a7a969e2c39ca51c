import BeanClass.Proofs.Names
import BeanClass.Proofs.Outcomes
import BeanClass.Proofs.Text.Blank
import BeanClass.Source.Parser

/-! # Texts of class headers

A header is the name of a class, alone or with type parameters in angle brackets. The parameters are
identifiers and differ from each other, and there may be white space around every name.
-/

namespace BeanClass.HeaderLine

open Name Text

variable {text name inner : List Char} {pieces : List (List Char)} {seen names : List String}

/-- The names between the commas of a parameter list. -/
def namesIn (inner : List Char) : List String :=
  (inner.splitOn ',').map fun piece => String.ofList (trim piece)

/-- Parameters are accepted if none of them was seen before and they differ from each other. -/
theorem checkParameters_eq_ok_iff : checkParameters seen pieces = .ok names ↔
    (∀ p ∈ pieces, isIdentifier p = true ∧ String.ofList p ∉ seen) ∧
      (pieces.map String.ofList).Nodup ∧ names = seen.reverse ++ pieces.map String.ofList := by
  induction pieces generalizing seen with
  | nil =>
    rw [checkParameters, Except.ok.injEq, List.map_nil, List.append_nil]
    exact ⟨fun h => ⟨nofun, List.nodup_nil, h.symm⟩, fun h => h.2.2.symm⟩
  | cons p pieces ih =>
    have hstep : checkParameters seen (p :: pieces) = .ok names ↔
        (isIdentifier p = true ∧ String.ofList p ∉ seen) ∧
          checkParameters (String.ofList p :: seen) pieces = .ok names := by
      rw [checkParameters]
      by_cases hp : isIdentifier p = true
      · by_cases hseen : String.ofList p ∈ seen
        · simp [hp, hseen]
        · simp [hp, hseen]
      · simp [hp]
    rw [hstep, ih, List.forall_mem_cons, List.map_cons, List.nodup_cons, List.reverse_cons,
      List.append_assoc, List.singleton_append]
    constructor
    · rintro ⟨hp, hpieces, hnodup, hnames⟩
      refine ⟨⟨hp, fun q hq => ?_⟩, ⟨?_, hnodup⟩, hnames⟩
      · exact ⟨(hpieces q hq).1, fun hmem => (hpieces q hq).2 (List.mem_cons_of_mem _ hmem)⟩
      · intro hmem
        obtain ⟨q, hq, heq⟩ := List.mem_map.mp hmem
        exact (hpieces q hq).2 (heq ▸ List.mem_cons_self)
    · rintro ⟨⟨hp, hpieces⟩, ⟨hfresh, hnodup⟩, hnames⟩
      refine ⟨hp, fun q hq => ⟨(hpieces q hq).1, fun hmem => ?_⟩, hnodup, hnames⟩
      rcases List.mem_cons.mp hmem with heq | hmem
      · exact hfresh (heq ▸ List.mem_map_of_mem hq)
      · exact (hpieces q hq).2 hmem

theorem not_mem_angle (h : isIdentifier (trim name) = true) : '<' ∉ name := by
  intro hmem
  exact not_mem_of_isIdentifier h (by decide) (mem_trim_of_mem hmem (by decide))

theorem parts_of_not_mem (h : '<' ∉ text) : parts text = .ok (text, []) := by
  have hplain : ∀ c ∈ text, (c != '<') = true := fun c hc => bne_iff_ne.mpr fun heq => h (heq ▸ hc)
  rw [parts, List.dropWhile_eq_nil_iff.mpr hplain]

theorem parts_append (h : '<' ∉ name) : parts (name ++ '<' :: (inner ++ ['>'])) =
    (checkParameters [] ((inner.splitOn ',').map trim)).map fun names => (trim name, names) := by
  have hplain : ∀ c ∈ name, (c != '<') = true := fun c hc => bne_iff_ne.mpr fun heq => h (heq ▸ hc)
  rw [parts, List.dropWhile_append_of_pos hplain, List.takeWhile_append_of_pos hplain]
  simp only [List.dropWhile_cons, List.takeWhile_cons, bne_self_eq_false, Bool.false_eq_true,
    if_false, List.getLast?_concat, if_true, List.dropLast_concat, List.append_nil]
  rfl

/-- A text with parameters, whether they are accepted or not, or one in which the list does not end. -/
theorem parts_cases (text : List Char) :
    '<' ∉ text ∨ (∃ name inner, '<' ∉ name ∧ text = name ++ '<' :: (inner ++ ['>'])) ∨
      parts text = .error .unterminatedParameters := by
  cases hrest : text.dropWhile (· != '<') with
  | nil => exact Or.inl fun hmem => by simpa using List.dropWhile_eq_nil_iff.mp hrest _ hmem
  | cons c rest =>
    by_cases hlast : rest.getLast? = some '>'
    · refine Or.inr (Or.inl ⟨text.takeWhile (· != '<'), rest.dropLast, not_mem_takeWhile '<' text, ?_⟩)
      rw [List.dropLast_append_getLast? _ hlast]
      exact eq_append_of_dropWhile hrest
    · rw [parts, hrest]
      exact Or.inr (Or.inr (if_neg hlast))

theorem checkParameters_namesIn : checkParameters [] ((inner.splitOn ',').map trim) = .ok names ↔
    (∀ p ∈ inner.splitOn ',', isIdentifier (trim p) = true) ∧ (namesIn inner).Nodup ∧
      names = namesIn inner := by
  simp [checkParameters_eq_ok_iff, namesIn, Function.comp_def]

/-- The headers that are read. -/
theorem parse_eq_ok_iff {line : Line} {header : HeaderLine} :
    HeaderLine.parse line = .ok header ↔
      isIdentifier line.text.toList = true ∧ header = ⟨line.text, [], line.number⟩ ∨
      ∃ name inner, line.text.toList = name ++ '<' :: (inner ++ ['>']) ∧
        isIdentifier (trim name) = true ∧ (∀ p ∈ inner.splitOn ',', isIdentifier (trim p) = true) ∧
        (namesIn inner).Nodup ∧
        header = ⟨String.ofList (trim name), namesIn inner, line.number⟩ := by
  constructor
  · intro h
    unfold HeaderLine.parse at h
    rcases parts_cases line.text.toList with hplain | ⟨name, inner, hname, htext⟩ | herror
    · rw [parts_of_not_mem hplain] at h
      obtain ⟨hid, h⟩ := ite_else_error_ok_iff.mp h
      cases h
      exact Or.inl ⟨hid, by rw [String.ofList_toList]⟩
    · rw [htext, parts_append hname] at h
      cases hcheck : checkParameters [] ((inner.splitOn ',').map trim) with
      | error fault =>
        rw [hcheck] at h
        cases h
      | ok names =>
        rw [hcheck] at h
        obtain ⟨hid, h⟩ := ite_else_error_ok_iff.mp h
        cases h
        obtain ⟨hpieces, hnodup, rfl⟩ := checkParameters_namesIn.mp hcheck
        exact Or.inr ⟨name, inner, htext, hid, hpieces, hnodup, rfl⟩
    · rw [herror] at h
      cases h
  · rintro (⟨hid, rfl⟩ | ⟨name, inner, htext, hid, hpieces, hnodup, rfl⟩)
    · rw [HeaderLine.parse, parts_of_not_mem (not_mem_of_isIdentifier hid (by decide))]
      simp [hid]
    · have hcheck := checkParameters_namesIn.mpr ⟨hpieces, hnodup, rfl⟩
      rw [HeaderLine.parse, htext, parts_append (not_mem_angle hid), hcheck]
      simp [Except.map, hid]

end BeanClass.HeaderLine
