import BeanClass.Compile
import BeanClass.Proofs.Source.Parser
import BeanClass.Proofs.Source.Roles
import BeanClass.Proofs.Types.Spelling

/-! # Diagnostics point at lines

A source that is not compiled has a first line without the form of its role, or it ends before the
class header. Otherwise it has a first attribute whose type is not resolved, or that the class does
not take. The diagnostic gives the number of this line. Diagnostics of the configuration and of the
encoding give no line.
-/

namespace BeanClass

open LineRole

variable {source : String} {sourceName : Option String} {config : Config} {c : ClassSource}
  {line : Line} {decl : AttributeLine} {scope : Scope} {a : Assembly} {d : Diagnostic} {n : Nat}

/-- All lines have the forms of their roles. The attribute on this line is the next one for the class
`a`, which has all attributes before it. -/
structure AttributeLine.IsNext (source : String) (sourceName : Option String) (config : Config)
    (line : Line) (decl : AttributeLine) (scope : Scope) (a : Assembly) : Prop where
  allDeclare : AllDeclare (ofSource source)
  standsIn : line.StandsIn source
  role : (member, line) ∈ ofSource source
  read : AttributeLine.parse line = .ok decl
  added : ∃ c before after, ClassSource.parse source = .ok c ∧
    c.attributes = before ++ decl :: after ∧ scope = c.scope config ∧
    before.foldlM (ClassSource.addAttribute scope)
      (Assembly.start c.qualifiedName c.header.parameters sourceName) = .ok a

namespace Diagnostic

/-- A diagnostic of a source, with the line that it is about. -/
inductive Located (source : String) (sourceName : Option String) (config : Config) :
    Diagnostic → Prop
  | config {fault : ConfigFault} :
      config.check = .error fault → Located source sourceName config (.config fault)
  | unexpectedEnd : AllDeclare (ofSource source) →
      Located source sourceName config (.source (.unexpectedEnd (lineCount source)))
  | mistaken {line : Line} {fault : LineFault} : line.StandsIn source →
      FirstMistaken (ofSource source) line →
      Located source sourceName config (.source (.invalid line.number fault))
  | unresolved {line : Line} {decl : AttributeLine} {scope : Scope} {a : Assembly} {e : TypeError} :
      decl.IsNext source sourceName config line scope a →
      scope.resolve decl.typeText true = .error e →
      Located source sourceName config (.type line.number e)
  | refused {line : Line} {decl : AttributeLine} {scope : Scope} {a : Assembly}
      {type : ResolvedType} {fault : LineFault} :
      decl.IsNext source sourceName config line scope a →
      scope.resolve decl.typeText true = .ok type →
      a.add ⟨decl.name, type.descriptor, type.signature, decl.nullability⟩ = .error fault →
      Located source sourceName config (.source (.invalid line.number fault))
  | encoding {c : ClassSource} {model : ClassModel} {fault : EncodingFault} :
      ClassSource.parse source = .ok c → c.assemble sourceName config = .ok model →
      model.encode config = .error fault → Located source sourceName config (.encoding fault)

/-- The line that a diagnostic shows is one of the source. -/
theorem Located.line_le (h : d.Located source sourceName config) (hline : d.line? = some n) :
    1 ≤ n ∧ n ≤ lineCount source := by
  have hfound : ∀ {k : Nat}, (if k = 0 then none else some k) = some n → k ≤ lineCount source →
      1 ≤ n ∧ n ≤ lineCount source := by
    intro k hk hle
    split at hk
    · cases hk
    · cases hk
      exact ⟨by omega, hle⟩
  cases h with
  | config => cases hline
  | unexpectedEnd => exact hfound hline le_rfl
  | mistaken hstands => exact hfound hline hstands.number_le
  | unresolved hnext => exact hfound hline hnext.standsIn.number_le
  | refused hnext => exact hfound hline hnext.standsIn.number_le
  | encoding => cases hline

end Diagnostic

theorem LineRole.FirstMistaken.standsIn (h : FirstMistaken (ofSource source) line) :
    line.StandsIn source := by
  obtain ⟨before, role, after, hentries, -⟩ := h
  have hmem : (role, line) ∈ ofSource source := by simp [hentries]
  exact standsIn_of_mem hmem

namespace ClassSource

theorem allJudged_parse (source : String) :
    AllJudged (lineCount source) (ofSource source) (parse source) :=
  allJudged_ofLines fun _ hline => (mem_significantLines hline).1

/-- The line of an attribute that was read. -/
theorem exists_line_of_parse (h : ClassSource.parse source = .ok c) (hdecl : decl ∈ c.attributes) :
    ∃ line, (member, line) ∈ ofSource source ∧
      AttributeLine.parse line = .ok decl := by
  obtain ⟨first, lines, headerLine, rest, hlines, -, himports, -, hattributes⟩ := parse_eq_ok h
  obtain ⟨line, hline, hread⟩ := exists_related (mapM_ok_iff.mp hattributes).flip hdecl
  refine ⟨line, ?_, hread⟩
  rw [ofSource, hlines, LineRole.ofLines]
  apply List.mem_cons_of_mem
  exact (suffix_ofRest himports).subset (List.mem_map_of_mem hline)

theorem addAttribute_eq_error (h : addAttribute scope a decl = .error d) :
    (∃ e, scope.resolve decl.typeText true = .error e ∧
      d = (Diagnostic.type 0 e).atLine decl.line) ∨
    ∃ type fault, scope.resolve decl.typeText true = .ok type ∧
      a.add ⟨decl.name, type.descriptor, type.signature, decl.nullability⟩ = .error fault ∧
      d = (Diagnostic.source (.invalid 0 fault)).atLine decl.line := by
  unfold addAttribute at h
  split at h
  · rename_i e hresolve
    cases h
    exact Or.inl ⟨e, hresolve, rfl⟩
  · rename_i type hresolve
    split at h
    · rename_i fault hadd
      cases h
      exact Or.inr ⟨type, fault, hresolve, hadd, rfl⟩
    · cases h

/-- A class is not assembled because of the first attribute that cannot be added to it. -/
theorem located_of_assemble (hparse : ClassSource.parse source = .ok c)
    (h : c.assemble sourceName config = .error d) : d.Located source sourceName config := by
  rcases bind_error_iff.mp h with hfold | ⟨a, -, hfinish⟩
  · obtain ⟨before, decl, after, a, hattributes, hbefore, hadd⟩ := foldlM_error hfold
    have hdecl : decl ∈ c.attributes := by rw [hattributes]; simp
    obtain ⟨line, hrole, hread⟩ := exists_line_of_parse hparse hdecl
    have hall : AllDeclare (ofSource source) := by
      have hjudged := allJudged_parse source
      rw [hparse] at hjudged
      cases hjudged with
      | accepted hall => exact hall
    have hnext : decl.IsNext source sourceName config line (c.scope config) a :=
      { allDeclare := hall
        standsIn := standsIn_of_mem hrole
        role := hrole
        read := hread
        added := ⟨c, before, after, hparse, hattributes, rfl, hbefore⟩ }
    have hnumber : decl.line = line.number := (AttributeLine.parse_eq_ok hread).2
    rcases addAttribute_eq_error hadd with ⟨e, hresolve, rfl⟩ | ⟨type, fault, hresolve, hfault, rfl⟩
    · rw [hnumber]
      exact .unresolved hnext hresolve
    · rw [hnumber]
      exact .refused hnext hresolve hfault
  · cases hfinish

end ClassSource

/-- Every failure gives its place. If a line has not the form of its role, it is the number of the
first such line, also if an attribute before it has a type that cannot be resolved. -/
theorem compile_error_located (h : compile source sourceName config = .error d) :
    d.Located source sourceName config := by
  rcases bind_error_iff.mp h with hconfig | ⟨_, -, h⟩
  · obtain ⟨fault, hfault, rfl⟩ := mapError_error_iff.mp hconfig
    exact .config hfault
  rcases bind_error_iff.mp h with hsource | ⟨c, hparse, h⟩
  · obtain ⟨e, he, rfl⟩ := mapError_error_iff.mp hsource
    have hjudged := ClassSource.allJudged_parse source
    rw [he] at hjudged
    cases hjudged with
    | ended hall => exact .unexpectedEnd hall
    | refused hfirst => exact .mistaken hfirst.standsIn hfirst
  rw [mapError_ok_iff] at hparse
  rcases bind_error_iff.mp h with hassemble | ⟨model, hassemble, h⟩
  · exact ClassSource.located_of_assemble hparse hassemble
  · obtain ⟨fault, hfault, rfl⟩ := mapError_error_iff.mp h
    exact .encoding hparse hassemble hfault

/-- The last line is refused before the type on the fourth line is looked for, and without this line
it is the type. -/
theorem compile_error_behind_type :
    compile ">> a\nB\n# c\nx : <\ny int" none {} =
        .error (.source (.invalid 5 (.malformedAttribute "y int"))) ∧
      Diagnostic.Located ">> a\nB\n# c\nx : <\ny int" none {}
        (.source (.invalid 5 (.malformedAttribute "y int"))) ∧
      compile ">> a\nB\n# c\nx : <" none {} = .error (.type 4 (.unresolved "<")) ∧
      Diagnostic.Located ">> a\nB\n# c\nx : <" none {} (.type 4 (.unresolved "<")) := by
  have hlast : compile ">> a\nB\n# c\nx : <\ny int" none {} =
      .error (.source (.invalid 5 (.malformedAttribute "y int"))) := by cbv
  have hparse : ClassSource.parse ">> a\nB\n# c\nx : <" =
      .ok ⟨⟨"a", 1⟩, [], ⟨"B", [], 2⟩, [⟨"x", "<", .nullable, 4⟩]⟩ := by cbv
  -- The known types do not matter, and are not computed.
  have hresolve : ∀ scope : Scope, scope.resolve "<" true = .error (.unresolved "<") := by
    intro scope
    have hshape : TypeExpr.shape? (Text.trim "<".toList) = none := by cbv
    rw [Scope.resolve, TypeExpr.parse_of_no_shape hshape]
    cbv
  have htype : compile ">> a\nB\n# c\nx : <" none {} = .error (.type 4 (.unresolved "<")) := by
    rw [compile, hparse, mapError_ok, ok_bind, ClassSource.assemble, List.foldlM_cons,
      ClassSource.addAttribute, hresolve]
    rfl
  exact ⟨hlast, compile_error_located hlast, htype, compile_error_located htype⟩

end BeanClass
