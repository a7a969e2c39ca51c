import BeanClass.Proofs.Source.Header

/-! # Sources that the parser accepts

Every name in them is an identifier, or identifiers separated by dots. Every significant line is
read as one declaration, which keeps its number.
-/

namespace BeanClass

open Name

structure ClassSource.WellNamed (c : ClassSource) : Prop where
  package : c.package.name = "" ∨ isQualified c.package.name.toList = true
  imports : ∀ i ∈ c.imports, isQualified i.name.toList = true
  header : isIdentifier c.header.name.toList = true
  parameters : ∀ name ∈ c.header.parameters, isIdentifier name.toList = true
  attributes : ∀ a ∈ c.attributes, isIdentifier a.name.toList = true

theorem PackageLine.parse_eq_ok {line : Line} {p : PackageLine}
    (h : PackageLine.parse line = .ok p) :
    (p.name = "" ∨ isQualified p.name.toList = true) ∧ p.line = line.number := by
  unfold PackageLine.parse at h
  split at h
  · obtain ⟨hname, h⟩ := ite_else_error_ok_iff.mp h
    cases h
    refine ⟨?_, rfl⟩
    rcases Bool.or_eq_true_iff.mp hname with hempty | hname
    · rw [List.isEmpty_iff] at hempty
      exact Or.inl (by rw [hempty])
    · exact Or.inr (by rwa [String.toList_ofList])
  · cases h

/-- The lines in front of the header are those of the imports. -/
theorem ImportLine.parseAll_eq_ok {lineCount : Nat} {found imports : List ImportLine}
    {lines rest : List Line} {header : Line}
    (hfound : ∀ i ∈ found, isQualified i.name.toList = true)
    (h : ImportLine.parseAll lineCount found lines = (.ok (imports, header), rest)) :
    (∀ i ∈ imports, isQualified i.name.toList = true) ∧
      ∃ read, lines = read ++ header :: rest ∧
        imports.map (·.line) = found.reverse.map (·.line) ++ read.map (·.number) := by
  fun_induction ImportLine.parseAll lineCount found lines with
  | case1 => cases h
  | case2 found line lines text htext name hname ih =>
    have hfound' : ∀ i ∈ ⟨String.ofList name, line.number⟩ :: found,
        isQualified i.name.toList = true :=
      List.forall_mem_cons.mpr ⟨by rwa [String.toList_ofList], hfound⟩
    obtain ⟨himports, read, rfl, hlines⟩ := ih hfound' h
    exact ⟨himports, line :: read, rfl, by simpa using hlines⟩
  | case3 => cases h
  | case4 =>
    cases h
    exact ⟨by simpa using hfound, [], rfl, by simp⟩

theorem HeaderLine.parse_eq_ok {line : Line} {header : HeaderLine}
    (h : HeaderLine.parse line = .ok header) :
    isIdentifier header.name.toList = true ∧
      (∀ name ∈ header.parameters, isIdentifier name.toList = true) ∧ header.parameters.Nodup ∧
      header.line = line.number := by
  rcases HeaderLine.parse_eq_ok_iff.mp h with ⟨hname, rfl⟩ | ⟨name, inner, -, hname, hpieces, hnodup, rfl⟩
  · exact ⟨hname, nofun, List.nodup_nil, rfl⟩
  · refine ⟨by rwa [String.toList_ofList], ?_, hnodup, rfl⟩
    intro parameter hparameter
    obtain ⟨piece, hpiece, rfl⟩ := List.mem_map.mp hparameter
    rw [String.toList_ofList]
    exact hpieces piece hpiece

theorem AttributeLine.parse_eq_ok {line : Line} {a : AttributeLine}
    (h : AttributeLine.parse line = .ok a) :
    isIdentifier a.name.toList = true ∧ a.line = line.number := by
  unfold AttributeLine.parse at h
  split at h
  · cases h
  · obtain ⟨hname, h⟩ := ite_else_error_ok_iff.mp h
    cases h
    exact ⟨by rwa [String.toList_ofList], rfl⟩

/-- The lines from which the parts of a source were read. -/
theorem ClassSource.parse_eq_ok {source : String} {c : ClassSource}
    (h : ClassSource.parse source = .ok c) : ∃ first lines headerLine rest,
      significantLines source = first :: lines ∧ PackageLine.parse first = .ok c.package ∧
        ImportLine.parseAll (lineCount source) [] lines = (.ok (c.imports, headerLine), rest) ∧
        HeaderLine.parse headerLine = .ok c.header ∧
        rest.mapM AttributeLine.parse = .ok c.attributes := by
  unfold ClassSource.parse at h
  cases hlines : significantLines source with
  | nil => rw [hlines] at h; cases h
  | cons first lines =>
    rw [hlines, ClassSource.ofLines] at h
    obtain ⟨package, hpackage, h⟩ := bind_ok_iff.mp h
    obtain ⟨⟨imports, headerLine⟩, himports, h⟩ := bind_ok_iff.mp h
    obtain ⟨header, hheader, h⟩ := bind_ok_iff.mp h
    obtain ⟨attributes, hattributes, h⟩ := bind_ok_iff.mp h
    cases h
    exact ⟨first, lines, headerLine, _, rfl, hpackage, Prod.ext himports rfl, hheader, hattributes⟩

theorem ClassSource.wellNamed_of_parse {source : String} {c : ClassSource}
    (h : ClassSource.parse source = .ok c) : c.WellNamed := by
  obtain ⟨first, lines, headerLine, rest, -, hpackage, himports, hheader, hattributes⟩ :=
    ClassSource.parse_eq_ok h
  obtain ⟨hname, hparameters, -⟩ := HeaderLine.parse_eq_ok hheader
  exact {
    package := (PackageLine.parse_eq_ok hpackage).1
    imports := (ImportLine.parseAll_eq_ok (List.forall_mem_nil _) himports).1
    header := hname
    parameters := hparameters
    attributes := fun a ha => by
      obtain ⟨line, -, hline⟩ := exists_related (mapM_ok_iff.mp hattributes).flip ha
      exact (AttributeLine.parse_eq_ok hline).1 }

theorem ClassSource.numbers_of_parse {source : String} {c : ClassSource}
    (h : ClassSource.parse source = .ok c) :
    c.renderedLines.map (·.number) = (significantLines source).map (·.number) := by
  obtain ⟨first, lines, headerLine, rest, hlines, hpackage, himports, hheader, hattributes⟩ :=
    ClassSource.parse_eq_ok h
  obtain ⟨-, read, rfl, hread⟩ := ImportLine.parseAll_eq_ok (List.forall_mem_nil _) himports
  have hfirst : c.package.line = first.number := (PackageLine.parse_eq_ok hpackage).2
  have hline : c.header.line = headerLine.number := (HeaderLine.parse_eq_ok hheader).2.2.2
  have hrest : rest.map (·.number) = c.attributes.map (·.line) :=
    map_eq_map_of_related (mapM_ok_iff.mp hattributes) fun _ _ ha =>
      (AttributeLine.parse_eq_ok ha).2.symm
  rw [hlines]
  simpa [renderedLines, Function.comp_def, hrest, hfirst, hline] using hread

theorem ClassSource.WellNamed.isQualified {c : ClassSource} (h : c.WellNamed) :
    isQualified c.qualifiedName.toList = true := by
  have hheader := isQualified_of_isIdentifier h.header
  unfold qualifiedName
  split
  · exact hheader
  · rename_i hpackage
    rcases h.package with hempty | hname
    · exact absurd (by rw [hempty]; rfl) hpackage
    · have htext : (c.package.name ++ "." ++ c.header.name).toList =
          c.package.name.toList ++ '.' :: c.header.name.toList := by simp
      rw [htext]
      exact isQualified_append hname hheader

end BeanClass
