import BeanClass.Proofs.Source.Attribute
import BeanClass.Proofs.Source.Header
import BeanClass.Proofs.Source.Lines

/-! # The roles of lines

The significant lines of a source have roles by their places: the package, imports, the header and
attributes. What a line of some role has to look like is said by the form of its text. A source is
refused at the first line that has not the form of its role, whatever follows it.
-/

namespace BeanClass

open Name Text

inductive LineRole where
  | package
  | imported
  | header
  | member
  deriving DecidableEq, Repr

namespace LineRole

/-- The texts that a line of a role can have. White space may stand around every name. -/
inductive Declares : LineRole → List Char → Prop
  | noPackage {rest : List Char} : IsGap rest → Declares .package ('>' :: '>' :: rest)
  | package {rest : List Char} :
      isQualified (trim rest) = true → Declares .package ('>' :: '>' :: rest)
  | imported {rest : List Char} :
      isQualified (trim rest) = true → Declares .imported ('<' :: '<' :: rest)
  | plainHeader {name : List Char} : isIdentifier name = true → Declares .header name
  | header {name inner : List Char} : isIdentifier (trim name) = true →
      (∀ p ∈ inner.splitOn ',', isIdentifier (trim p) = true) → (HeaderLine.namesIn inner).Nodup →
      Declares .header (name ++ '<' :: (inner ++ ['>']))
  | member {name type : List Char} {nullability : Nullability} :
      AttributeLine.IsPlain name → AttributeLine.IsPlain type → isIdentifier (trim name) = true →
      ¬IsGap type → Declares .member (name ++ (nullability.operator.toList ++ type))

/-- The lines behind that of the package: imports up to the first other line, which is the header, and
then attributes. -/
def ofRest : List Line → List (LineRole × Line)
  | [] => []
  | line :: lines =>
    if ['<', '<'] <+: line.text.toList then (imported, line) :: ofRest lines
    else (header, line) :: lines.map (member, ·)

/-- The lines of a source with their roles. -/
def ofLines : List Line → List (LineRole × Line)
  | [] => []
  | line :: lines => (package, line) :: ofRest lines

/-- The significant lines of a source with their roles. -/
def ofSource (source : String) : List (LineRole × Line) :=
  ofLines (significantLines source)

theorem map_snd_ofRest (lines : List Line) : (ofRest lines).map Prod.snd = lines := by
  induction lines with
  | nil => rfl
  | cons line lines ih =>
    rw [ofRest]
    split
    · rw [List.map_cons, ih]
    · simp [Function.comp_def]

theorem map_snd_ofLines (lines : List Line) : (ofLines lines).map Prod.snd = lines := by
  cases lines with
  | nil => rfl
  | cons line lines => rw [ofLines, List.map_cons, map_snd_ofRest]

theorem standsIn_of_mem {source : String} {role : LineRole} {line : Line}
    (h : (role, line) ∈ ofSource source) : line.StandsIn source := by
  apply Line.standsIn_of_mem
  rw [← map_snd_ofLines (significantLines source)]
  exact List.mem_map_of_mem h

/-- Every line has the form of its role. -/
def AllDeclare (entries : List (LineRole × Line)) : Prop :=
  ∀ entry ∈ entries, entry.1.Declares entry.2.text.toList

/-- The line has not the form of its role, and all lines before it have theirs. -/
def FirstMistaken (entries : List (LineRole × Line)) (line : Line) : Prop :=
  ∃ before role after, entries = before ++ (role, line) :: after ∧ AllDeclare before ∧
    ¬role.Declares line.text.toList

end LineRole

open LineRole

variable {α β : Type} {role : LineRole} {line : Line} {n : Nat} {entries : List (LineRole × Line)}

/-- A reader of single lines that accepts the lines of a role and names the number of any other. -/
inductive LineRole.Judged (role : LineRole) (line : Line) : Except SourceError α → Prop
  | accepted {a : α} : role.Declares line.text.toList → Judged role line (.ok a)
  | refused {fault : LineFault} :
      ¬role.Declares line.text.toList → Judged role line (.error (.invalid line.number fault))

theorem LineRole.judged_of_iff {x : Except SourceError α}
    (herror : ∀ e, x = .error e → ∃ fault, e = .invalid line.number fault)
    (h : (∃ a, x = .ok a) ↔ role.Declares line.text.toList) : Judged role line x := by
  cases x with
  | ok a => exact .accepted (h.mp ⟨a, rfl⟩)
  | error e =>
    obtain ⟨fault, rfl⟩ := herror e rfl
    refine .refused fun hdeclares => ?_
    obtain ⟨a, ha⟩ := h.mpr hdeclares
    cases ha

theorem PackageLine.judged (line : Line) : Judged .package line (PackageLine.parse line) := by
  unfold PackageLine.parse
  split
  · rename_i rest htext
    dsimp only
    split
    · rename_i hname
      refine .accepted ?_
      rw [htext]
      rcases Bool.or_eq_true_iff.mp hname with hempty | hname
      · exact .noPackage (trim_eq_nil_iff.mp (List.isEmpty_iff.mp hempty))
      · exact .package hname
    · rename_i hname
      refine .refused fun hdeclares => hname ?_
      rw [htext] at hdeclares
      cases hdeclares with
      | noPackage hgap => rw [trim_eq_nil_iff.mpr hgap]; rfl
      | package hqualified => rw [hqualified, Bool.or_true]
  · rename_i hother
    refine .refused fun hdeclares => ?_
    generalize htext : line.text.toList = text at hdeclares
    cases hdeclares with
    | noPackage => exact hother _ htext
    | package => exact hother _ htext

theorem HeaderLine.judged (line : Line) : Judged .header line (HeaderLine.parse line) := by
  refine judged_of_iff ?_ ⟨?_, ?_⟩
  · intro e h
    unfold HeaderLine.parse at h
    split at h
    · cases h
      exact ⟨_, rfl⟩
    · split at h
      · cases h
      · cases h
        exact ⟨_, rfl⟩
  · rintro ⟨header, h⟩
    rcases HeaderLine.parse_eq_ok_iff.mp h with ⟨hname, -⟩ |
      ⟨name, inner, htext, hname, hpieces, hnodup, -⟩
    · exact .plainHeader hname
    · rw [htext]
      exact .header hname hpieces hnodup
  · intro h
    generalize htext : line.text.toList = text at h
    cases h with
    | plainHeader hname =>
      rw [← htext] at hname
      exact ⟨_, HeaderLine.parse_eq_ok_iff.mpr (Or.inl ⟨hname, rfl⟩)⟩
    | @header name inner hname hpieces hnodup =>
      refine ⟨⟨String.ofList (trim name), HeaderLine.namesIn inner, line.number⟩, ?_⟩
      rw [HeaderLine.parse_eq_ok_iff]
      exact Or.inr ⟨name, inner, htext, hname, hpieces, hnodup, rfl⟩

theorem AttributeLine.judged {line : Line} (htrimmed : IsTrimmed line.text.toList) :
    Judged .member line (AttributeLine.parse line) := by
  refine judged_of_iff ?_ ⟨?_, ?_⟩
  · intro e h
    unfold AttributeLine.parse at h
    split at h
    · cases h
      exact ⟨_, rfl⟩
    · split at h
      · cases h
      · cases h
        exact ⟨_, rfl⟩
  · rintro ⟨a, h⟩
    obtain ⟨name, type, htext, hname, htype, hid, htrim, -⟩ := (parse_eq_ok_iff htrimmed).mp h
    rw [htext]
    exact .member hname htype hid fun hgap => htrim (trim_eq_nil_iff.mpr hgap)
  · intro h
    generalize htext : line.text.toList = text at h
    cases h with
    | @member name type nullability hname htype hid hgap =>
      refine ⟨⟨String.ofList (trim name), String.ofList (trim type), nullability, line.number⟩, ?_⟩
      rw [parse_eq_ok_iff htrimmed]
      have htrim := fun hnil => hgap (trim_eq_nil_iff.mp hnil)
      exact ⟨name, type, htext, hname, htype, hid, htrim, rfl⟩

namespace ImportLine

variable {found : List ImportLine} {lines : List Line} {rest : List Char}

theorem parseAll_of_text (h : line.text.toList = '<' :: '<' :: rest) :
    parseAll n found (line :: lines) =
      if isQualified (trim rest) then
        parseAll n (⟨String.ofList (trim rest), line.number⟩ :: found) lines
      else (.error (.invalid line.number (.invalidImport (String.ofList (trim rest)))), lines) := by
  rw [parseAll, h]
  rfl

theorem parseAll_of_not_prefix (h : ¬['<', '<'] <+: line.text.toList) :
    parseAll n found (line :: lines) = (.ok (found.reverse, line), lines) := by
  rw [parseAll]
  split
  · rename_i rest htext
    exact absurd ⟨rest, htext.symm⟩ h
  · rfl

end ImportLine

namespace LineRole

theorem FirstMistaken.cons (h : role.Declares line.text.toList) {other : Line}
    (hrest : FirstMistaken entries other) : FirstMistaken ((role, line) :: entries) other := by
  obtain ⟨before, role', after, rfl, hbefore, hother⟩ := hrest
  exact ⟨(role, line) :: before, role', after, rfl, List.forall_mem_cons.mpr ⟨h, hbefore⟩, hother⟩

theorem firstMistaken_head (h : ¬role.Declares line.text.toList) (entries : List (LineRole × Line)) :
    FirstMistaken ((role, line) :: entries) line :=
  ⟨[], role, entries, rfl, List.forall_mem_nil _, h⟩

/-- The outcome of reading lines with their roles, as part of a source with `n` lines. -/
inductive AllJudged (n : Nat) (entries : List (LineRole × Line)) : Except SourceError α → Prop
  | accepted {a : α} : AllDeclare entries → AllJudged n entries (.ok a)
  | ended : AllDeclare entries → AllJudged n entries (.error (.unexpectedEnd n))
  | refused {line : Line} {fault : LineFault} :
      FirstMistaken entries line → AllJudged n entries (.error (.invalid line.number fault))

theorem AllJudged.cons {x : Except SourceError α} (h : role.Declares line.text.toList)
    (hrest : AllJudged n entries x) : AllJudged n ((role, line) :: entries) x := by
  cases hrest with
  | accepted hall => exact .accepted (List.forall_mem_cons.mpr ⟨h, hall⟩)
  | ended hall => exact .ended (List.forall_mem_cons.mpr ⟨h, hall⟩)
  | refused hfirst => exact .refused (hfirst.cons h)

/-- One line is read, and then the others. -/
theorem Judged.bind {x : Except SourceError α} {f : α → Except SourceError β}
    (h : Judged role line x) (hf : ∀ a, AllJudged n entries (f a)) :
    AllJudged n ((role, line) :: entries) (x >>= f) := by
  cases h with
  | accepted hdeclares => exact (hf _).cons hdeclares
  | refused hmistaken => exact .refused (firstMistaken_head hmistaken _)

theorem allJudged_mapM {read : Line → Except SourceError α} {f : List α → β} {lines : List Line}
    (h : ∀ line ∈ lines, Judged role line (read line)) :
    AllJudged n (lines.map (role, ·)) (lines.mapM read >>= fun as => pure (f as)) := by
  induction lines generalizing f with
  | nil => exact .accepted (List.forall_mem_nil _)
  | cons line lines ih =>
    obtain ⟨hline, hlines⟩ := List.forall_mem_cons.mp h
    rw [List.mapM_cons, List.map_cons, bind_assoc]
    refine hline.bind fun a => ?_
    rw [bind_assoc]
    exact ih hlines

/-- Imports are read up to the header; `f` reads the header and the lines behind it. -/
theorem allJudged_parseAll {f : List ImportLine × Line → List Line → Except SourceError α}
    {lines : List Line}
    (hf : ∀ imports line rest, line :: rest <:+ lines →
      AllJudged n ((header, line) :: rest.map (member, ·)) (f (imports, line) rest))
    (found : List ImportLine) :
    AllJudged n (ofRest lines) ((ImportLine.parseAll n found lines).1 >>=
      fun x => f x (ImportLine.parseAll n found lines).2) := by
  induction lines generalizing found with
  | nil => exact .ended (List.forall_mem_nil _)
  | cons line lines ih =>
    by_cases hprefix : ['<', '<'] <+: line.text.toList
    · obtain ⟨rest, htext⟩ := hprefix
      rw [ofRest, if_pos ⟨rest, htext⟩, ImportLine.parseAll_of_text htext.symm]
      split
      · rename_i hname
        refine AllJudged.cons (htext ▸ .imported hname) (ih (fun imports other more hmore => ?_) _)
        exact hf imports other more (hmore.trans (List.suffix_cons _ _))
      · rename_i hname
        refine .refused (firstMistaken_head (fun hdeclares => hname ?_) _)
        rw [← htext] at hdeclares
        cases hdeclares with
        | imported hqualified => exact hqualified
    · rw [ofRest, if_neg hprefix, ImportLine.parseAll_of_not_prefix hprefix]
      exact hf _ _ _ (List.suffix_refl _)

/-- The lines behind the header have the role of attributes. -/
theorem suffix_ofRest {found imports : List ImportLine} {lines rest : List Line} {headerLine : Line}
    (h : ImportLine.parseAll n found lines = (.ok (imports, headerLine), rest)) :
    rest.map (member, ·) <:+ ofRest lines := by
  induction lines generalizing found with
  | nil => cases h
  | cons line lines ih =>
    by_cases hprefix : ['<', '<'] <+: line.text.toList
    · obtain ⟨text, htext⟩ := hprefix
      rw [ImportLine.parseAll_of_text htext.symm] at h
      rw [ofRest, if_pos ⟨text, htext⟩]
      split at h
      · exact (ih h).trans (List.suffix_cons _ _)
      · cases h
    · rw [ImportLine.parseAll_of_not_prefix hprefix] at h
      cases h
      rw [ofRest, if_neg hprefix]
      exact List.suffix_cons _ _

end LineRole

namespace ClassSource

/-- The header and the attributes, when package and imports are read. -/
def readBehind (package : PackageLine) (found : List ImportLine × Line) (rest : List Line) :
    Except SourceError ClassSource := do
  let header ← HeaderLine.parse found.2
  let attributes ← rest.mapM AttributeLine.parse
  return { package, imports := found.1, header, attributes }

theorem ofLines_cons (n : Nat) (first : Line) (lines : List Line) :
    ofLines n (first :: lines) = PackageLine.parse first >>= fun package =>
      (ImportLine.parseAll n [] lines).1 >>= fun found =>
        readBehind package found (ImportLine.parseAll n [] lines).2 :=
  rfl

end ClassSource

/-- A source of trimmed lines is read if all lines have the forms of their roles and a header is among
them. -/
theorem LineRole.allJudged_ofLines {lines : List Line}
    (h : ∀ line ∈ lines, IsTrimmed line.text.toList) :
    AllJudged n (ofLines lines) (ClassSource.ofLines n lines) := by
  cases lines with
  | nil => exact .ended (List.forall_mem_nil _)
  | cons first lines =>
    rw [ClassSource.ofLines_cons]
    refine (PackageLine.judged first).bind fun package => ?_
    refine allJudged_parseAll (fun imports line rest hsuffix => ?_) []
    refine (HeaderLine.judged line).bind fun header => allJudged_mapM fun a ha => ?_
    have hmem := hsuffix.subset (List.mem_cons_of_mem _ ha)
    exact AttributeLine.judged (h a (List.mem_cons_of_mem _ hmem))

end BeanClass
