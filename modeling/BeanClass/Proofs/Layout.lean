import BeanClass.Compile
import BeanClass.Proofs.Source.Printing

/-! # Layout does not matter

Compilation depends on the texts of the significant lines. Blank lines, comments, indentation and
line ends move the lines that errors point at and change nothing else. In particular a source may be
replaced by its printed form.
-/

namespace BeanClass

variable {R : Nat → Nat → Prop} {m n : Nat} {c d : ClassSource} {sourceName : Option String}
  {config : Config}

namespace ClassSource

theorem Matches.qualifiedName_eq (h : c.Matches R d) : c.qualifiedName = d.qualifiedName := by
  unfold qualifiedName
  rw [h.package.1, h.header.1]

theorem Matches.scope_eq (h : c.Matches R d) (config : Config) :
    c.scope config = d.scope config := by
  have himports : c.imports.map (·.name) = d.imports.map (·.name) :=
    map_eq_map_of_related h.imports fun _ _ hij => hij.1
  unfold scope
  rw [himports, h.header.2.1]

theorem addAttribute_alike (scope : Scope) (x : Assembly) {a b : AttributeLine}
    (h : a.Matches R b) :
    Alike (Diagnostic.Matches R m n) Eq (addAttribute scope x a) (addAttribute scope x b) := by
  obtain ⟨hname, htype, hnullability, hline⟩ := h
  unfold addAttribute
  rw [hname, htype, hnullability]
  split
  · exact .error (.type hline)
  · split
    · exact .error (.invalid hline)
    · exact .ok rfl

theorem Matches.assemble_alike (h : c.Matches R d) :
    Alike (Diagnostic.Matches R m n) Eq (c.assemble sourceName config)
      (d.assemble sourceName config) := by
  unfold assemble
  rw [h.qualifiedName_eq, h.header.2.1, h.scope_eq config]
  refine (Alike.foldlM h.attributes (fun s t a b hst hab => ?_) (Eq.refl _)).bind ?_
  · subst hst
    exact addAttribute_alike _ s hab
  · rintro a _ rfl
    exact .ok rfl

end ClassSource

/-- Sources that are read alike are compiled alike. -/
theorem compile_alike {s t : String}
    (h : ReadAlike R m n (ClassSource.Matches R) (ClassSource.parse s) (ClassSource.parse t)) :
    Alike (Diagnostic.Matches R m n) Eq (compile s sourceName config)
      (compile t sourceName config) := by
  unfold compile
  refine (Alike.refl_mapError Diagnostic.Matches.config _).bind fun _ _ _ => ?_
  refine (h.mapError fun _ _ hde => hde).bind fun c d hcd => ?_
  refine hcd.assemble_alike.bind ?_
  rintro model _ rfl
  exact Alike.refl_mapError Diagnostic.Matches.encoding _

/-- Two sources with the same significant lines are compiled to the same bytes, or fail with the same
fault. Faults of a line point in each source at the line in the same position, and an unexpected end
gives the number of lines of each source. -/
theorem compile_layout {s t : String}
    (h : (significantLines s).map (·.text) = (significantLines t).map (·.text))
    (sourceName : Option String) (config : Config) :
    Alike (Diagnostic.Matches (SameLine s t) (lineCount s) (lineCount t)) Eq
      (compile s sourceName config) (compile t sourceName config) :=
  compile_alike (ClassSource.ofLines_alike (matches_significantLines h))

/-- A fault on the third line, and on the fifth behind a comment and a blank line. -/
theorem compile_layout_comment :
    (significantLines ">> a\nB\nx").map (·.text) =
        (significantLines "# b\n>> a\r\n\n\tB\n x ").map (·.text) ∧
      Alike (Diagnostic.Matches (SameLine ">> a\nB\nx" "# b\n>> a\r\n\n\tB\n x ") 3 5) Eq
        (compile ">> a\nB\nx" none {}) (compile "# b\n>> a\r\n\n\tB\n x " none {}) ∧
      compile ">> a\nB\nx" none {} = .error (.source (.invalid 3 (.malformedAttribute "x"))) ∧
      compile "# b\n>> a\r\n\n\tB\n x " none {} =
        .error (.source (.invalid 5 (.malformedAttribute "x"))) := by
  have hlines : (significantLines ">> a\nB\nx").map (·.text) =
      (significantLines "# b\n>> a\r\n\n\tB\n x ").map (·.text) := by cbv
  refine ⟨hlines, compile_layout hlines none {}, ?_, ?_⟩
  · cbv
  · cbv

/-- A source that was read is printed to a text with the same declarations, on the lines one, two
and so on. Both texts are compiled to the same bytes. -/
theorem ClassSource.parse_render {source : String} {c : ClassSource}
    (h : ClassSource.parse source = .ok c) :
    ∃ d, ClassSource.parse c.render = .ok d ∧ c.Matches (fun _ _ => True) d ∧
      d.renderedLines.map (·.number) = List.range' 1 d.renderedLines.length ∧
      ∀ sourceName config bytes, compile source sourceName config = .ok bytes ↔
        compile c.render sourceName config = .ok bytes := by
  obtain ⟨d, hd, hmatches, hnumbers⟩ := (ClassSource.printable_of_parse h).parse_render_matches
  refine ⟨d, hd, hmatches, hnumbers, fun sourceName config bytes => ?_⟩
  have halike : ReadAlike (fun _ _ => True) 0 0 (ClassSource.Matches fun _ _ => True)
      (ClassSource.parse source) (ClassSource.parse c.render) := by
    rw [h, hd]
    exact .ok hmatches
  exact (compile_alike halike).ok_iff

/-- The default package, spaces inside a type, and a comment. -/
theorem ClassSource.parse_render_spaced :
    ClassSource.parse "# a\n>>\n\n << java.util.List\r\nC < T >\n\tx!!  List < T >" =
        .ok ⟨⟨"", 2⟩, [⟨"java.util.List", 4⟩], ⟨"C", ["T"], 5⟩,
          [⟨"x", "List < T >", .neverNull, 6⟩]⟩ ∧
      ∃ d, ClassSource.parse ">> \n<< java.util.List\nC<T>\nx !! List < T >\n" = .ok d ∧
        ClassSource.Matches (fun _ _ => True) ⟨⟨"", 2⟩, [⟨"java.util.List", 4⟩], ⟨"C", ["T"], 5⟩,
          [⟨"x", "List < T >", .neverNull, 6⟩]⟩ d ∧
        d.renderedLines.map (·.number) = List.range' 1 d.renderedLines.length ∧
        ∀ sourceName config bytes,
          compile "# a\n>>\n\n << java.util.List\r\nC < T >\n\tx!!  List < T >" sourceName config =
              .ok bytes ↔
            compile ">> \n<< java.util.List\nC<T>\nx !! List < T >\n" sourceName config =
              .ok bytes := by
  have hparse : ClassSource.parse "# a\n>>\n\n << java.util.List\r\nC < T >\n\tx!!  List < T >" =
      .ok ⟨⟨"", 2⟩, [⟨"java.util.List", 4⟩], ⟨"C", ["T"], 5⟩,
        [⟨"x", "List < T >", .neverNull, 6⟩]⟩ := by cbv
  have hrender : ClassSource.render ⟨⟨"", 2⟩, [⟨"java.util.List", 4⟩], ⟨"C", ["T"], 5⟩,
      [⟨"x", "List < T >", .neverNull, 6⟩]⟩ =
        ">> \n<< java.util.List\nC<T>\nx !! List < T >\n" := by cbv
  have h := ClassSource.parse_render hparse
  rw [hrender] at h
  exact ⟨hparse, h⟩

end BeanClass
