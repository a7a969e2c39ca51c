import BeanClass.Proofs.Source.Attribute
import BeanClass.Proofs.Source.Layout
import BeanClass.Proofs.Source.Lines
import BeanClass.Proofs.Source.Parser

/-! # Printed sources

A source that was read can be printed, one declaration on a line. Reading the printed text gives the
same declarations again, on consecutive lines.
-/

namespace BeanClass

open Name Text

/-- A type that can stand at the end of an attribute line. -/
structure AttributeLine.HasPlainType (a : AttributeLine) : Prop where
  ne_nil : a.typeText.toList ≠ []
  isTrimmed : IsTrimmed a.typeText.toList
  isOperator : ∀ c ∈ a.typeText.toList, isOperator c = false
  lineBreak : '\n' ∉ a.typeText.toList

/-- What the parser leaves of a source, as far as printing needs it. -/
structure ClassSource.Printable (c : ClassSource) : Prop extends ClassSource.WellNamed c where
  nodup : c.header.parameters.Nodup
  types : ∀ a ∈ c.attributes, a.HasPlainType

section Names

variable {s : List Char}

theorem isTrimmed_of_isIdentifier (h : isIdentifier s = true) : IsTrimmed s :=
  isTrimmed_of_forall fun _ hc => isBlank_of_isIdentifier h hc

theorem isTrimmed_of_isQualified (h : isQualified s = true) : IsTrimmed s :=
  isTrimmed_of_forall fun _ hc => isBlank_of_isQualified h hc

theorem ne_nil_of_isQualified (h : isQualified s = true) : s ≠ [] := by
  rintro rfl
  cases h

/-- A mark of two equal characters with a name behind it. -/
theorem trim_marked {mark : Char} (hmark : isBlank mark = false) (h : isQualified s = true) :
    trim (mark :: mark :: ' ' :: s) = mark :: mark :: ' ' :: s := by
  have hpair : IsTrimmed [mark, mark] := isTrimmed_of_forall (by simp [hmark])
  exact (hpair.append (List.cons_ne_nil _ _) [' '] (isTrimmed_of_isQualified h)
    (ne_nil_of_isQualified h)).trim_eq

theorem trim_space (h : isQualified s = true) : trim (' ' :: s) = s := by
  rw [trim_cons (by decide), (isTrimmed_of_isQualified h).trim_eq]

end Names

theorem PackageLine.toList_render (p : PackageLine) :
    p.render.toList = '>' :: '>' :: ' ' :: p.name.toList := by
  simp [render]

theorem PackageLine.parse_trimmed {p : PackageLine}
    (h : p.name = "" ∨ isQualified p.name.toList = true) :
    PackageLine.parse (Line.trimmed ⟨p.line, p.render⟩) = .ok p := by
  obtain ⟨name, line⟩ := p
  rw [Line.trimmed, PackageLine.toList_render, PackageLine.parse, String.toList_ofList]
  rcases h with rfl | hname
  · -- nothing but the mark is left of the line
    have htrim : trim ('>' :: '>' :: ' ' :: "".toList) = ['>', '>'] := by decide
    rw [htrim]
    rfl
  · rw [trim_marked (by decide) hname]
    simp only [trim_space hname, hname, Bool.or_true, if_true, String.ofList_toList]

theorem ImportLine.toList_render (i : ImportLine) :
    i.render.toList = '<' :: '<' :: ' ' :: i.name.toList := by
  simp [render]

/-- Imports are read up to the first line that has another form. -/
theorem ImportLine.parseAll_trimmed {n : Nat} {found imports : List ImportLine} {header : Line}
    {rest : List Line} (h : ∀ i ∈ imports, isQualified i.name.toList = true)
    (hheader : header.text.toList.head? ≠ some '<') :
    ImportLine.parseAll n found
        (imports.map (fun i => Line.trimmed ⟨i.line, i.render⟩) ++ header :: rest) =
      (.ok (found.reverse ++ imports, header), rest) := by
  induction imports generalizing found with
  | nil =>
    rw [List.map_nil, List.nil_append, ImportLine.parseAll, List.append_nil]
    split
    · rename_i htext
      rw [htext] at hheader
      exact absurd rfl hheader
    · rfl
  | cons i imports ih =>
    obtain ⟨hi, himports⟩ := List.forall_mem_cons.mp h
    rw [List.map_cons, List.cons_append, ImportLine.parseAll, Line.trimmed,
      ImportLine.toList_render, trim_marked (by decide) hi, String.toList_ofList]
    simp only [trim_space hi, hi, if_true, String.ofList_toList]
    rw [ih himports, List.reverse_cons, List.append_assoc, List.singleton_append]

namespace AttributeLine

variable {a : AttributeLine}

theorem toList_render (a : AttributeLine) : a.render.toList =
    a.name.toList ++ (' ' :: a.nullability.operator.toList ++ [' ']) ++ a.typeText.toList := by
  simp [render]

theorem parse_trimmed (hname : isIdentifier a.name.toList = true) (h : a.HasPlainType) :
    AttributeLine.parse (Line.trimmed ⟨a.line, a.render⟩) = .ok a := by
  have htrimmed : IsTrimmed a.render.toList := by
    rw [toList_render]
    exact (isTrimmed_of_isIdentifier hname).append (ne_nil_of_isIdentifier hname) _ h.isTrimmed
      h.ne_nil
  have hnameTrim : trim (a.name.toList ++ [' ']) = a.name.toList := by
    rw [trim_concat (by decide), (isTrimmed_of_isIdentifier hname).trim_eq]
  have htypeTrim : trim (' ' :: a.typeText.toList) = a.typeText.toList := by
    rw [trim_cons (by decide), h.isTrimmed.trim_eq]
  rw [Line.trimmed_of_isTrimmed _ htrimmed, parse_eq_ok_iff htrimmed]
  refine ⟨a.name.toList ++ [' '], ' ' :: a.typeText.toList, by simp [render], ?_, ?_, ?_, ?_, ?_⟩
  · exact List.forall_mem_append.mpr ⟨isPlain_of_isIdentifier hname, by simp [isOperator]⟩
  · exact List.forall_mem_cons.mpr ⟨by decide, h.isOperator⟩
  · rwa [hnameTrim]
  · rw [htypeTrim]
    exact h.ne_nil
  · rw [hnameTrim, htypeTrim, String.ofList_toList, String.ofList_toList]

end AttributeLine

namespace HeaderLine

variable {h : HeaderLine}

theorem toList_render (hne : h.parameters ≠ []) : h.render.toList =
    h.name.toList ++ '<' :: (List.intercalate [','] (h.parameters.map String.toList) ++ ['>']) := by
  simp [render, hne, String.toList_intercalate]

theorem isTrimmed_render (hname : isIdentifier h.name.toList = true) :
    IsTrimmed h.render.toList := by
  have htrimmed := isTrimmed_of_isIdentifier hname
  by_cases hne : h.parameters = []
  · simpa [render, hne] using htrimmed
  · rw [toList_render hne, ← List.cons_append, ← List.append_assoc]
    exact htrimmed.append (ne_nil_of_isIdentifier hname) _
      (isTrimmed_of_forall (List.forall_mem_singleton.mpr (by decide))) (List.cons_ne_nil _ _)

theorem head?_render (hname : isIdentifier h.name.toList = true) :
    h.render.toList.head? ≠ some '<' := by
  have hhead : h.render.toList.head? = h.name.toList.head? := by
    by_cases hne : h.parameters = []
    · simp [render, hne]
    · rw [toList_render hne, List.head?_append_of_ne_nil _ (ne_nil_of_isIdentifier hname)]
  intro hmem
  rw [hhead] at hmem
  exact not_mem_of_isIdentifier hname (by decide) (List.mem_of_mem_head? hmem)

theorem parse_trimmed (hname : isIdentifier h.name.toList = true)
    (hparameters : ∀ name ∈ h.parameters, isIdentifier name.toList = true)
    (hnodup : h.parameters.Nodup) :
    HeaderLine.parse (Line.trimmed ⟨h.line, h.render⟩) = .ok h := by
  rw [Line.trimmed_of_isTrimmed _ (isTrimmed_render hname), parse_eq_ok_iff]
  by_cases hne : h.parameters = []
  · have htext : h.render = h.name := by simp [render, hne]
    exact Or.inl ⟨by rwa [htext], by rw [htext, ← hne]⟩
  · have hpieces : ∀ p ∈ h.parameters.map String.toList, isIdentifier p = true := by
      simpa using hparameters
    have hcomma : ∀ p ∈ h.parameters.map String.toList, ',' ∉ p := fun p hp =>
      not_mem_of_isIdentifier (hpieces p hp) (by decide)
    have hsplit : (List.intercalate [','] (h.parameters.map String.toList)).splitOn ',' =
        h.parameters.map String.toList := List.splitOn_intercalate _ hcomma (by simpa using hne)
    have htrim : ∀ p, isIdentifier p = true → trim p = p := fun p hp =>
      (isTrimmed_of_isIdentifier hp).trim_eq
    have hnames : namesIn (List.intercalate [','] (h.parameters.map String.toList)) =
        h.parameters := by
      rw [namesIn, hsplit, List.map_map]
      refine (List.map_congr_left fun name hmem => ?_).trans (List.map_id _)
      rw [Function.comp_apply, htrim _ (hparameters name hmem), String.ofList_toList, id]
    refine Or.inr ⟨_, _, toList_render hne, ?_, ?_, ?_, ?_⟩
    · rwa [htrim _ hname]
    · rw [hsplit]
      intro p hp
      rw [htrim p (hpieces p hp)]
      exact hpieces p hp
    · rwa [hnames]
    · rw [htrim _ hname, hnames, String.ofList_toList]

end HeaderLine

/-- The printed lines of a source are read as the source itself. -/
theorem ClassSource.ofLines_trimmed {c : ClassSource} (h : c.Printable) (n : Nat) :
    ofLines n (c.renderedLines.map Line.trimmed) = .ok c := by
  have hheader : (Line.trimmed ⟨c.header.line, c.header.render⟩).text.toList.head? ≠ some '<' := by
    rw [Line.trimmed_of_isTrimmed _ (HeaderLine.isTrimmed_render h.header)]
    exact HeaderLine.head?_render h.header
  have hattributes :
      (c.attributes.map fun a => Line.trimmed ⟨a.line, a.render⟩).mapM AttributeLine.parse =
        .ok c.attributes := by
    rw [mapM_ok_iff, List.forall₂_map_left_iff, List.forall₂_same]
    exact fun a ha => AttributeLine.parse_trimmed (h.attributes a ha) (h.types a ha)
  have hlines : c.renderedLines.map Line.trimmed =
      Line.trimmed ⟨c.package.line, c.package.render⟩ ::
      (c.imports.map (fun i => Line.trimmed ⟨i.line, i.render⟩) ++
        Line.trimmed ⟨c.header.line, c.header.render⟩ ::
          c.attributes.map fun a => Line.trimmed ⟨a.line, a.render⟩) := by
    simp [renderedLines, Function.comp_def]
  rw [hlines, ofLines, PackageLine.parse_trimmed h.package,
    ImportLine.parseAll_trimmed h.imports hheader]
  simp only [ok_bind, HeaderLine.parse_trimmed h.header h.parameters h.nodup, hattributes]
  rfl

section FillsLine

variable {s t : List Char}

theorem lineBreak_of_isIdentifier (h : isIdentifier s = true) : '\n' ∉ s :=
  not_mem_of_isIdentifier h (by decide)

theorem lineBreak_of_isQualified (h : isQualified s = true) : '\n' ∉ s :=
  fun hmem => absurd (isBlank_of_isQualified h hmem) (by decide)

/-- An identifier at the start of a line. -/
theorem fillsLine_append (h : isIdentifier s = true) (ht : '\n' ∉ t) : FillsLine (s ++ t) := by
  obtain ⟨c, s, rfl⟩ := List.exists_cons_of_ne_nil (ne_nil_of_isIdentifier h)
  rw [List.cons_append]
  refine fillsLine_cons (isBlank_of_isIdentifier h List.mem_cons_self)
    (ne_of_isPart (isPart_of_mem h List.mem_cons_self) (by decide)) ?_
  rw [List.mem_append, not_or]
  exact ⟨fun hmem => lineBreak_of_isIdentifier h (List.mem_cons_of_mem _ hmem), ht⟩

end FillsLine

theorem PackageLine.fillsLine_render {p : PackageLine}
    (h : p.name = "" ∨ isQualified p.name.toList = true) : FillsLine p.render.toList := by
  have hname : '\n' ∉ p.name.toList := by
    rcases h with hempty | hname
    · simp [hempty]
    · exact lineBreak_of_isQualified hname
  rw [toList_render]
  exact fillsLine_cons (by decide) (by decide) (by simpa using hname)

theorem ImportLine.fillsLine_render {i : ImportLine} (h : isQualified i.name.toList = true) :
    FillsLine i.render.toList := by
  rw [toList_render]
  exact fillsLine_cons (by decide) (by decide) (by simpa using lineBreak_of_isQualified h)

theorem HeaderLine.fillsLine_render {h : HeaderLine} (hname : isIdentifier h.name.toList = true)
    (hparameters : ∀ name ∈ h.parameters, isIdentifier name.toList = true) :
    FillsLine h.render.toList := by
  by_cases hne : h.parameters = []
  · have htext : h.render.toList = h.name.toList ++ [] := by simp [render, hne]
    rw [htext]
    exact fillsLine_append hname List.not_mem_nil
  · rw [toList_render hne]
    refine fillsLine_append hname ?_
    intro hmem
    simp only [List.mem_cons, List.mem_append, List.not_mem_nil, or_false] at hmem
    rcases hmem with hmem | hmem | hmem
    · cases hmem
    · rcases mem_intercalate hmem with hmem | ⟨p, hp, hmem⟩
      · cases hmem
      · obtain ⟨name, hname, rfl⟩ := List.mem_map.mp hp
        exact lineBreak_of_isIdentifier (hparameters name hname) hmem
    · cases hmem

theorem AttributeLine.fillsLine_render {a : AttributeLine}
    (hname : isIdentifier a.name.toList = true) (h : a.HasPlainType) :
    FillsLine a.render.toList := by
  rw [toList_render, List.append_assoc]
  refine fillsLine_append hname ?_
  have hbreak := h.lineBreak
  cases a.nullability <;> simpa [Nullability.operator] using hbreak

theorem ClassSource.Printable.fillsLine {c : ClassSource} (h : c.Printable) :
    ∀ line ∈ c.renderedLines, FillsLine line.text.toList := by
  simp only [renderedLines, List.mem_cons, List.mem_append, List.mem_map, List.cons_append]
  rintro line (rfl | ⟨i, hi, rfl⟩ | rfl | ⟨a, ha, rfl⟩)
  · exact PackageLine.fillsLine_render h.package
  · exact ImportLine.fillsLine_render (h.imports i hi)
  · exact HeaderLine.fillsLine_render h.header h.parameters
  · exact AttributeLine.fillsLine_render (h.attributes a ha) (h.types a ha)

theorem ClassSource.Printable.significantLines_render {c : ClassSource} (h : c.Printable) :
    significantLines c.render =
      ((c.renderedLines.map (·.text)).zipIdx 1).map fun (text, number) =>
        Line.trimmed ⟨number, text⟩ := by
  have htexts : c.renderedLines.map (·.text ++ "\n") =
      (c.renderedLines.map (·.text)).map (· ++ "\n") := by
    rw [List.map_map]
    rfl
  rw [render, htexts]
  refine significantLines_join ?_
  rintro text hmem
  obtain ⟨line, hline, rfl⟩ := List.mem_map.mp hmem
  exact h.fillsLine line hline

/-- Printing a source numbers its declarations from one and changes nothing else. -/
theorem ClassSource.Printable.parse_render_matches {c : ClassSource} (h : c.Printable) :
    ∃ d, ClassSource.parse c.render = .ok d ∧ c.Matches (fun _ _ => True) d ∧
      d.renderedLines.map (·.number) = List.range' 1 d.renderedLines.length := by
  have htexts : (c.renderedLines.map Line.trimmed).map (·.text) =
      (significantLines c.render).map (·.text) := by
    rw [h.significantLines_render, List.map_map, List.map_map]
    nth_rewrite 1 [← List.zipIdx_map_fst 1 c.renderedLines]
    rw [List.zipIdx_map, List.map_map, List.map_map]
    rfl
  -- the lines of the printed text differ from those of the source in their numbers only
  have halike := ofLines_alike (m := 0) (n := lineCount c.render) (matches_of_texts htexts)
  rw [ofLines_trimmed h 0] at halike
  obtain ⟨d, hd, hmatches⟩ := halike.exists_ok
  refine ⟨d, hd, hmatches, ?_⟩
  have hnumbers : d.renderedLines.map (·.number) = List.range' 1 c.renderedLines.length := by
    rw [numbers_of_parse hd, h.significantLines_render, List.map_map, ← List.length_map]
    exact List.zipIdx_map_snd 1 _
  have hlength : d.renderedLines.length = c.renderedLines.length := by
    simpa using congrArg List.length hnumbers
  rw [hnumbers, hlength]

theorem AttributeLine.hasPlainType_of_parse {line : Line} {a : AttributeLine}
    (h : AttributeLine.parse line = .ok a) (htrimmed : IsTrimmed line.text.toList)
    (hbreak : '\n' ∉ line.text.toList) : a.HasPlainType := by
  obtain ⟨n, t, htext, -, ht, -, htrim, ha⟩ := (parse_eq_ok_iff htrimmed).mp h
  have htype : a.typeText.toList = trim t := by rw [ha, String.toList_ofList]
  exact {
    ne_nil := by rwa [htype]
    isTrimmed := by
      rw [htype]
      exact isTrimmed_trim t
    isOperator := by
      rw [htype]
      exact fun c hc => ht c (mem_of_mem_trim hc)
    lineBreak := by
      rw [htype]
      intro hmem
      refine hbreak ?_
      rw [htext]
      simp [mem_of_mem_trim hmem] }

theorem ClassSource.printable_of_parse {source : String} {c : ClassSource}
    (h : ClassSource.parse source = .ok c) : c.Printable := by
  obtain ⟨first, lines, headerLine, rest, hlines, -, himports, hheader, hattributes⟩ :=
    ClassSource.parse_eq_ok h
  obtain ⟨-, read, rfl, -⟩ := ImportLine.parseAll_eq_ok (List.forall_mem_nil _) himports
  obtain ⟨-, -, hnodup, -⟩ := HeaderLine.parse_eq_ok hheader
  refine { ClassSource.wellNamed_of_parse h with
    nodup := hnodup
    types := fun a ha => ?_ }
  obtain ⟨line, hline, ha⟩ := exists_related (mapM_ok_iff.mp hattributes).flip ha
  have hmem : line ∈ significantLines source := by simp [hlines, hline]
  obtain ⟨htrimmed, hbreak⟩ := mem_significantLines hmem
  exact AttributeLine.hasPlainType_of_parse ha htrimmed hbreak

end BeanClass
