import BeanClass.Compile
import BeanClass.Proofs.Source.Parser
import BeanClass.Proofs.Types.Resolution
import BeanClass.Proofs.Verification.ClassFile

/-! # Compiled classes are verified

A source that can be parsed gives names, types and signatures that are well formed, so that the class
assembled from it is well formed and verification never refuses what was lowered from it.
-/

namespace BeanClass

open Lowering

namespace ClassSource

variable {c : ClassSource} {config : Config}

theorem WellNamed.scope (h : c.WellNamed) (config : Config) : (c.scope config).WellNamed where
  imports entry hentry := by
    obtain ⟨i, hi, hname⟩ := List.mem_map.mp (ImportTable.mem_ofList hentry)
    rw [← hname]
    exact h.imports i hi
  parameters := h.parameters

theorem wellFormed_addAttribute {scope : Scope} {a b : Assembly} {line : AttributeLine}
    (hscope : scope.WellNamed) (hline : Name.isIdentifier line.name.toList = true)
    (ha : a.finish.WellFormed) (h : addAttribute scope a line = .ok b) : b.finish.WellFormed := by
  unfold addAttribute at h
  split at h
  · cases h
  · rename_i type htype
    split at h
    · cases h
    · rename_i hadd
      cases h
      obtain ⟨hdescriptor, hsignature⟩ := Scope.resolve_ok hscope htype
      exact Assembly.wellFormed_add ha hline hdescriptor hsignature hadd

theorem WellNamed.wellFormed_assemble (hc : c.WellNamed) {sourceName : Option String}
    {m : ClassModel} (h : c.assemble sourceName config = .ok m) : m.WellFormed := by
  obtain ⟨a, hfold, h⟩ := bind_ok_iff.mp h
  cases h
  refine foldlM_ok (fun a => a.finish.WellFormed) (fun a line b hline ha h => ?_)
    (Assembly.wellFormed_start sourceName hc.isQualified hc.parameters) hfold
  exact wellFormed_addAttribute (hc.scope config) (hc.attributes line hline) ha h

end ClassSource

namespace ClassModel

variable {m : ClassModel} {config : Config}

theorem WellFormed.verify_ok (hm : m.WellFormed) {major : UInt16} {cf : ClassFile}
    (hmajor : Verification.isSupportedMajor major = true) (h : classFile major m = .ok cf) :
    Verification.verify cf = .ok () := by
  obtain ⟨hgrows, hmagic, -, rfl, hshows, -⟩ := classFile_ok h
  exact Verification.verify_ok hm hshows hmagic hmajor hgrows

/-- Verification does not change what a well-formed model is encoded to. -/
theorem WellFormed.encode_eq (hm : m.WellFormed)
    (hmajor : Verification.isSupportedMajor config.major = true) :
    m.encode config = m.encode { config with verify := false } := by
  cases hclass : classFile config.major m with
  | error e => rw [ClassModel.encode, ClassModel.encode, hclass]; rfl
  | ok cf =>
    have hplain : m.encode { config with verify := false } = .ok cf.encode := encode_of_ok hclass
    rw [encode_of_ok hclass, hm.verify_ok hmajor hclass, hplain]
    simp [Except.map]

end ClassModel

theorem Config.isSupportedMajor_of_check {config : Config} (h : config.check = .ok ()) :
    Verification.isSupportedMajor config.major = true := by
  unfold Config.check at h
  split at h
  · assumption
  · cases h

variable {source : String} {sourceName : Option String} {config : Config}

theorem compile_eq_unverified :
    compile source sourceName config = compile source sourceName { config with verify := false } := by
  have hcheck : Config.check { config with verify := false } = config.check := rfl
  have hassemble : ∀ parsed : ClassSource,
      parsed.assemble sourceName { config with verify := false } = parsed.assemble sourceName config :=
    fun _ => rfl
  unfold compile
  simp only [hcheck, hassemble]
  cases hok : config.check with
  | error => rfl
  | ok =>
    cases hparse : ClassSource.parse source with
    | error => rfl
    | ok parsed =>
      simp only [mapError_ok, ok_bind]
      cases hmodel : parsed.assemble sourceName config with
      | error => rfl
      | ok m =>
        have hm := (ClassSource.wellNamed_of_parse hparse).wellFormed_assemble hmodel
        rw [ok_bind, ok_bind, hm.encode_eq (Config.isSupportedMajor_of_check hok)]

theorem compile_eq_ok {bytes : List UInt8} (h : compile source sourceName config = .ok bytes) :
    ∃ cf, ClassFile.decode bytes = .ok cf ∧ Verification.verify cf = .ok () := by
  obtain ⟨_, hcheck, h⟩ := bind_ok_iff.mp h
  obtain ⟨parsed, hparse, h⟩ := bind_ok_iff.mp h
  obtain ⟨m, hassemble, h⟩ := bind_ok_iff.mp h
  have hmajor := Config.isSupportedMajor_of_check (mapError_ok_iff.mp hcheck)
  have hm := (ClassSource.wellNamed_of_parse (mapError_ok_iff.mp hparse)).wellFormed_assemble hassemble
  obtain ⟨cf, hclass, rfl⟩ := ClassModel.encode_eq_ok (mapError_ok_iff.mp h)
  obtain ⟨-, -, -, -, -, hdecode⟩ := classFile_ok hclass
  exact ⟨cf, hdecode, hm.verify_ok hmajor hclass⟩

/-- Verification never refuses what was compiled: it makes no difference whether a class file is
verified, and every class file that is written can be read and is accepted. -/
theorem compile_verified (source : String) (sourceName : Option String) (config : Config) :
    compile source sourceName { config with verify := true } =
        compile source sourceName { config with verify := false } ∧
      ∀ bytes, compile source sourceName config = .ok bytes →
        ∃ cf, ClassFile.decode bytes = .ok cf ∧ Verification.verify cf = .ok () :=
  ⟨compile_eq_unverified, fun _ => compile_eq_ok⟩

/-- A generic class with one attribute, whose type is imported and generic. -/
def ClassSource.box : ClassSource where
  package := ⟨"a", 1⟩
  imports := [⟨"b.C", 2⟩]
  header := ⟨"Box", ["T"], 3⟩
  attributes := [⟨"x", "C<C>", .nullable, 4⟩]

theorem Scope.resolve_box (parameters : List String) (isKnown : String → Bool) :
    Scope.resolve ⟨.ofList ["b.C"], parameters, isKnown⟩ "C<C>" true =
      .ok ⟨"Lb/C;", some "Lb/C<Lb/C;>;"⟩ := by
  have houter : TypeExpr.shape? (Text.trim "C<C>".toList) = some ⟨"C".toList, ["C".toList], 0⟩ := by
    cbv
  have hinner : TypeExpr.shape? (Text.trim "C".toList) = some ⟨"C".toList, [], 0⟩ := by cbv
  have harg : TypeExpr.parse "C".toList = .ok ⟨"C", [], 0⟩ := by
    rw [TypeExpr.parse_of_shape hinner]
    rfl
  have hparse : TypeExpr.parse "C<C>".toList = .ok ⟨"C", [⟨"C", [], 0⟩], 0⟩ := by
    rw [TypeExpr.parse_of_shape houter, List.mapM_cons, harg]
    rfl
  rw [Scope.resolve, hparse, ok_bind]
  cbv

theorem ClassSource.assemble_box (config : Config) :
    box.assemble (some "Box") config = .ok ClassModel.box := by
  have hadd : (Assembly.start "a.Box" ["T"] (some "Box")).add
      ⟨"x", "Lb/C;", some "Lb/C<Lb/C;>;", .nullable⟩ =
        .ok ⟨"a/Box", ClassModel.box.signature, some "Box", ClassModel.box.fields.toArray,
          ClassModel.box.methods.toArray⟩ := by
    cbv
  have hname : box.qualifiedName = "a.Box" := by cbv
  rw [assemble, hname]
  simp [box, scope, addAttribute, Scope.resolve_box, hadd]
  rfl

theorem ClassModel.wellFormed_box : ClassModel.box.WellFormed := by
  have hparse : ClassSource.parse ClassSource.box.render = .ok ClassSource.box := by cbv
  exact (ClassSource.wellNamed_of_parse hparse).wellFormed_assemble (ClassSource.assemble_box {})

theorem compile_verified_box :
    ∃ bytes, compile ">> a\n<< b.C\nBox<T>\nx:C<C>" (some "Box") {} = .ok bytes ∧
      ∃ cf, ClassFile.decode bytes = .ok cf ∧ Verification.verify cf = .ok () := by
  have hparse : ClassSource.parse ">> a\n<< b.C\nBox<T>\nx:C<C>" = .ok ClassSource.box := by cbv
  obtain ⟨cf, hclass⟩ := ClassModel.exists_classFile_box
  have hencode : ClassModel.box.encode { verify := false } = .ok cf.encode :=
    ClassModel.encode_of_ok hclass
  have hplain : compile ">> a\n<< b.C\nBox<T>\nx:C<C>" (some "Box") { verify := false } =
      .ok cf.encode := by
    rw [compile, hparse, mapError_ok, ok_bind, ClassSource.assemble_box, ok_bind, hencode]
    rfl
  have hverified := compile_verified ">> a\n<< b.C\nBox<T>\nx:C<C>" (some "Box") {}
  have hok := hverified.1.trans hplain
  exact ⟨cf.encode, hok, hverified.2 _ hok⟩

end BeanClass
