import BeanClass.Proofs.Text.Blank
import BeanClass.Proofs.Text.Cut
import BeanClass.Source.Line

/-! # Lines of a source

The significant lines of a text hold no white space at their ends and no line break. Texts written
on lines of their own are found again, numbered from one.
-/

namespace BeanClass

open Text

/-- A line as it is read, without white space around it. -/
def Line.trimmed (line : Line) : Line :=
  ⟨line.number, String.ofList (trim line.text.toList)⟩

theorem Line.trimmed_of_isTrimmed (number : Nat) {text : String} (h : IsTrimmed text.toList) :
    Line.trimmed ⟨number, text⟩ = ⟨number, text⟩ := by
  rw [Line.trimmed, h.trim_eq, String.ofList_toList]

theorem mem_significantLines {source : String} {line : Line} (h : line ∈ significantLines source) :
    IsTrimmed line.text.toList ∧ '\n' ∉ line.text.toList := by
  obtain ⟨⟨raw, number⟩, hraw, h⟩ := List.mem_filterMap.mp h
  dsimp only at h
  split at h
  · cases h
    rw [String.toList_ofList]
    have hbreak := not_mem_of_mem_lines (List.fst_mem_of_mem_zipIdx hraw)
    exact ⟨isTrimmed_trim raw, fun hmem => hbreak (mem_of_mem_trim hmem)⟩
  · cases h

/-- A significant line of a source, under the number that it has among all its lines. -/
structure Line.StandsIn (source : String) (line : Line) : Prop where
  one_le : 1 ≤ line.number
  trimmed : ∃ raw, (lines source.toList)[line.number - 1]? = some raw ∧ line.text.toList = trim raw
  isSignificant : isSignificant line.text.toList = true

theorem Line.standsIn_of_mem {source : String} {line : Line} (h : line ∈ significantLines source) :
    line.StandsIn source := by
  obtain ⟨⟨raw, number⟩, hraw, h⟩ := List.mem_filterMap.mp h
  obtain ⟨hle, hraw⟩ := List.mk_mem_zipIdx_iff_le_and_getElem?_sub.mp hraw
  dsimp only at h
  split at h
  · rename_i hsignificant
    cases h
    rw [← String.toList_ofList (l := trim raw)] at hsignificant
    exact ⟨hle, ⟨raw, hraw, String.toList_ofList⟩, hsignificant⟩
  · cases h

theorem Line.StandsIn.number_le {source : String} {line : Line} (h : line.StandsIn source) :
    line.number ≤ lineCount source := by
  obtain ⟨raw, hraw, -⟩ := h.trimmed
  obtain ⟨hlt, -⟩ := List.getElem?_eq_some_iff.mp hraw
  have hone := h.one_le
  unfold lineCount
  omega

/-- A text that makes up one significant line. -/
structure FillsLine (s : List Char) : Prop where
  lineBreak : '\n' ∉ s
  isSignificant : isSignificant (trim s) = true

theorem fillsLine_cons {c : Char} {s : List Char} (hblank : isBlank c = false) (hc : c ≠ '#')
    (h : '\n' ∉ s) : FillsLine (c :: s) where
  lineBreak := by
    rintro (_ | ⟨_, hs⟩)
    · exact absurd hblank (by decide)
    · exact h hs
  isSignificant := by
    have hhead := head?_trim hblank s
    obtain ⟨d, rest, hrest⟩ := List.exists_cons_of_ne_nil (trim_ne_nil List.mem_cons_self hblank)
    rw [hrest] at hhead ⊢
    cases hhead
    simpa [BeanClass.isSignificant] using hc

/-- Texts on lines of their own are numbered from one. -/
theorem significantLines_join {texts : List String} (h : ∀ t ∈ texts, FillsLine t.toList) :
    significantLines (String.join (texts.map (· ++ "\n"))) =
      (texts.zipIdx 1).map fun (text, number) => Line.trimmed ⟨number, text⟩ := by
  have hlines : lines (String.join (texts.map (· ++ "\n"))).toList = texts.map String.toList := by
    have htext : (String.join (texts.map (· ++ "\n"))).toList =
        (texts.map String.toList).flatMap (· ++ ['\n']) := by
      simp [String.toList_join, List.flatMap_def, Function.comp_def]
    rw [htext]
    exact lines_flatMap (by simpa using fun t ht => (h t ht).lineBreak)
  rw [significantLines, hlines, List.zipIdx_map, List.filterMap_map]
  refine List.filterMap_eq_map_iff_forall_eq_some.mpr ?_
  rintro ⟨text, number⟩ hmem
  simp [(h text (List.fst_mem_of_mem_zipIdx hmem)).isSignificant, Line.trimmed]

end BeanClass
