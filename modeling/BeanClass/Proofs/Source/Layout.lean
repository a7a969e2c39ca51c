import BeanClass.Diagnostic
import BeanClass.Proofs.Agreement
import BeanClass.Source.Parser

/-! # Sources with other line numbers

What is read from lines depends on their texts. The numbers of the lines only pass into the
declarations and into the errors.
-/

namespace BeanClass

variable {R : Nat → Nat → Prop} {m n : Nat}

/-- The same text, under numbers that `R` relates. -/
def Line.Matches (R : Nat → Nat → Prop) (a b : Line) : Prop :=
  a.text = b.text ∧ R a.number b.number

def PackageLine.Matches (R : Nat → Nat → Prop) (p q : PackageLine) : Prop :=
  p.name = q.name ∧ R p.line q.line

def ImportLine.Matches (R : Nat → Nat → Prop) (i j : ImportLine) : Prop :=
  i.name = j.name ∧ R i.line j.line

def HeaderLine.Matches (R : Nat → Nat → Prop) (h k : HeaderLine) : Prop :=
  h.name = k.name ∧ h.parameters = k.parameters ∧ R h.line k.line

def AttributeLine.Matches (R : Nat → Nat → Prop) (a b : AttributeLine) : Prop :=
  a.name = b.name ∧ a.typeText = b.typeText ∧ a.nullability = b.nullability ∧ R a.line b.line

/-- The same declarations in the same order, on lines that `R` relates. -/
structure ClassSource.Matches (R : Nat → Nat → Prop) (c d : ClassSource) : Prop where
  package : c.package.Matches R d.package
  imports : List.Forall₂ (ImportLine.Matches R) c.imports d.imports
  header : c.header.Matches R d.header
  attributes : List.Forall₂ (AttributeLine.Matches R) c.attributes d.attributes

/-- The same fault, on lines that `R` relates. An unexpected end comes after all `m` or `n` lines. -/
inductive Diagnostic.Matches (R : Nat → Nat → Prop) (m n : Nat) : Diagnostic → Diagnostic → Prop
  | invalid {k l : Nat} {fault : LineFault} :
    R k l → Matches R m n (.source (.invalid k fault)) (.source (.invalid l fault))
  | unexpectedEnd : Matches R m n (.source (.unexpectedEnd m)) (.source (.unexpectedEnd n))
  | type {k l : Nat} {error : TypeError} : R k l → Matches R m n (.type k error) (.type l error)
  | encoding (fault : EncodingFault) : Matches R m n (.encoding fault) (.encoding fault)
  | config (fault : ConfigFault) : Matches R m n (.config fault) (.config fault)

/-- Outcomes of reading, with errors that match as diagnostics. -/
abbrev ReadAlike {α β : Type} (R : Nat → Nat → Prop) (m n : Nat) (rel : α → β → Prop) :
    Except SourceError α → Except SourceError β → Prop :=
  Alike (fun d e => Diagnostic.Matches R m n (.source d) (.source e)) rel

theorem PackageLine.parse_alike {a b : Line} (h : a.Matches R b) :
    ReadAlike R m n (PackageLine.Matches R) (PackageLine.parse a) (PackageLine.parse b) := by
  obtain ⟨htext, hnumber⟩ := h
  unfold PackageLine.parse
  rw [htext]
  split
  · dsimp only
    split
    · exact .ok ⟨rfl, hnumber⟩
    · exact .error (.invalid hnumber)
  · exact .error (.invalid hnumber)

theorem HeaderLine.parse_alike {a b : Line} (h : a.Matches R b) :
    ReadAlike R m n (HeaderLine.Matches R) (HeaderLine.parse a) (HeaderLine.parse b) := by
  obtain ⟨htext, hnumber⟩ := h
  unfold HeaderLine.parse
  rw [htext]
  split
  · exact .error (.invalid hnumber)
  · split
    · exact .ok ⟨rfl, rfl, hnumber⟩
    · exact .error (.invalid hnumber)

theorem AttributeLine.parse_alike {a b : Line} (h : a.Matches R b) :
    ReadAlike R m n (AttributeLine.Matches R) (AttributeLine.parse a) (AttributeLine.parse b) := by
  obtain ⟨htext, hnumber⟩ := h
  unfold AttributeLine.parse
  rw [htext]
  split
  · exact .error (.invalid hnumber)
  · split
    · exact .ok ⟨rfl, rfl, rfl, hnumber⟩
    · exact .error (.invalid hnumber)

/-- The lines that are left match as well. -/
theorem ImportLine.parseAll_alike {found found' : List ImportLine} {lines lines' : List Line}
    (hfound : List.Forall₂ (ImportLine.Matches R) found found')
    (h : List.Forall₂ (Line.Matches R) lines lines') :
    ReadAlike R m n
        (fun x y => List.Forall₂ (ImportLine.Matches R) x.1 y.1 ∧ x.2.Matches R y.2)
        (ImportLine.parseAll m found lines).1 (ImportLine.parseAll n found' lines').1 ∧
      List.Forall₂ (Line.Matches R) (ImportLine.parseAll m found lines).2
        (ImportLine.parseAll n found' lines').2 := by
  induction h generalizing found found' with
  | nil => exact ⟨.error .unexpectedEnd, .nil⟩
  | @cons a b lines lines' hab hrest ih =>
    obtain ⟨htext, hnumber⟩ := hab
    rw [ImportLine.parseAll, ImportLine.parseAll, htext]
    split
    · dsimp only
      split
      · exact ih (.cons ⟨rfl, hnumber⟩ hfound)
      · exact ⟨.error (.invalid hnumber), hrest⟩
    · exact ⟨.ok ⟨List.forall₂_reverse_iff.mpr hfound, htext, hnumber⟩, hrest⟩

theorem ClassSource.ofLines_alike {lines lines' : List Line}
    (h : List.Forall₂ (Line.Matches R) lines lines') :
    ReadAlike R m n (ClassSource.Matches R) (ofLines m lines) (ofLines n lines') := by
  cases h with
  | nil => exact .error .unexpectedEnd
  | cons hfirst hlines =>
    obtain ⟨hfound, hrest⟩ := ImportLine.parseAll_alike (m := m) (n := n) .nil hlines
    refine (PackageLine.parse_alike hfirst).bind fun p q hpackage => ?_
    refine hfound.bind fun x y hxy => ?_
    refine (HeaderLine.parse_alike hxy.2).bind fun k l hheader => ?_
    refine (Alike.mapM hrest fun a b => AttributeLine.parse_alike).bind fun as bs hattributes => ?_
    exact .ok ⟨hpackage, hxy.1, hheader, hattributes⟩

theorem matches_of_texts {lines lines' : List Line} (h : lines.map (·.text) = lines'.map (·.text)) :
    List.Forall₂ (Line.Matches fun _ _ => True) lines lines' := by
  rw [← List.forall₂_eq_eq_eq, List.forall₂_map_left_iff, List.forall₂_map_right_iff] at h
  exact h.imp fun _ _ htext => ⟨htext, trivial⟩

/-- The significant line at one position has the number `k` in one source and `l` in the other. -/
def SameLine (s t : String) (k l : Nat) : Prop :=
  ∃ (i : Nat) (a b : Line), (significantLines s)[i]? = some a ∧ (significantLines t)[i]? = some b ∧
    a.number = k ∧ b.number = l

theorem matches_significantLines {s t : String}
    (h : (significantLines s).map (·.text) = (significantLines t).map (·.text)) :
    List.Forall₂ (Line.Matches (SameLine s t)) (significantLines s) (significantLines t) := by
  have hlength : (significantLines s).length = (significantLines t).length := by
    simpa using congrArg List.length h
  rw [List.forall₂_iff_get]
  refine ⟨hlength, fun i hi hi' => ⟨?_, i, _, _, List.getElem?_eq_getElem hi,
    List.getElem?_eq_getElem hi', rfl, rfl⟩⟩
  have htexts :
      ((significantLines s).map (·.text))[i]? = ((significantLines t).map (·.text))[i]? := by
    rw [h]
  simpa [hi, hi'] using htexts

end BeanClass
