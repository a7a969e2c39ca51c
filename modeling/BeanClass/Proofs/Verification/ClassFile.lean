import BeanClass.Proofs.Lowering.Class
import BeanClass.Proofs.Verification.Accessors
import BeanClass.Verification.ClassFile

/-! # Verifying lowered classes

A class file that shows a well-formed model passes all checks. Each check succeeds for what the model
can say about the part that it looks at.
-/

namespace BeanClass.Verification

open ConstantPool Lowering

variable {pool : ConstantPool} {a : RawAttribute} {attributes : List RawAttribute}

theorem exists_mem_entries {c : Constant} :
    (∃ i, (i, c) ∈ pool.entries) ↔ some c ∈ pool.slots := by
  constructor
  · rintro ⟨i, hi⟩
    obtain ⟨⟨slot, j⟩, hslot, hsome⟩ := List.mem_filterMap.mp hi
    obtain ⟨d, rfl, hd⟩ := Option.map_eq_some_iff.mp hsome
    cases hd
    exact Array.mem_toList_iff.mp (List.fst_mem_of_mem_zipIdx hslot)
  · intro hc
    obtain ⟨k, hk, hslot⟩ := List.mem_iff_getElem.mp (Array.mem_toList_iff.mpr hc)
    refine ⟨UInt16.ofNat (k + 1), List.mem_filterMap.mpr ⟨(some c, k + 1), ?_, rfl⟩⟩
    rw [List.mk_mem_zipIdx_iff_le_and_getElem?_sub]
    refine ⟨Nat.le_add_left 1 k, ?_⟩
    rw [Nat.add_sub_cancel, List.getElem?_eq_getElem hk, hslot]

theorem nameAndType_of_some {i : UInt16} {names : String × String}
    (h : pool.nameAndType? i = some names) : checkNameAndType pool i = .ok () := by
  unfold nameAndType? at h
  unfold checkNameAndType
  cases hget : pool.get? i with
  | none => rw [hget] at h; cases h
  | some c =>
    cases c with
    | nameAndType => rfl
    | _ => rw [hget] at h; cases h

theorem checkConstant_ok {c : Constant} (hasBootstrap : Bool) (h : pool.Supports c) :
    checkConstant pool hasBootstrap c = .ok () := by
  cases c with
  | utf8 => rfl
  | classRef =>
    obtain ⟨text, htext⟩ := h
    simp [checkConstant, textAt_eq_ok.mpr htext]
  | nameAndType =>
    obtain ⟨⟨name, hname⟩, descriptor, hdescriptor⟩ := h
    simp [checkConstant, textAt_eq_ok.mpr hname, textAt_eq_ok.mpr hdescriptor]
  | fieldRef | methodRef =>
    obtain ⟨⟨owner, howner⟩, names, hnames⟩ := h
    simp [checkConstant, classAt_eq_ok.mpr howner, nameAndType_of_some hnames]
  | _ => cases h

/-- The check of the pool is that of every constant it holds. -/
theorem checkPool_eq_ok {cf : ClassFile} : checkPool cf = .ok () ↔ ∀ c, some c ∈ cf.pool.slots →
    checkConstant cf.pool (cf.attributes.any fun a => a.name? cf.pool == some "BootstrapMethods") c =
      .ok () := by
  refine forM_ok_iff.trans ⟨fun h c hc => ?_, fun h entry hentry => ?_⟩
  · obtain ⟨i, hi⟩ := exists_mem_entries.mpr hc
    exact h (i, c) hi
  · exact h entry.2 (exists_mem_entries.mp ⟨entry.1, hentry⟩)

theorem checkPool_ok {cf : ClassFile} (h : Grows Supports empty cf.pool) : checkPool cf = .ok () :=
  checkPool_eq_ok.mpr fun _ hc => checkConstant_ok _ (h.supports_of_mem hc)

/-- A check of members that refuses names seen before succeeds on members with different names. -/
theorem exists_foldlM_insert {ε β : Type} {f : MemberNames → Member → Except ε MemberNames}
    {key : β → String × String} {rel : Member → β → Prop} {members : List Member} {models : List β}
    (seen : MemberNames) (h : List.Forall₂ rel members models) (hnodup : (models.map key).Nodup)
    (hstep : ∀ seen member model, model ∈ models → rel member model →
      key model ∉ seen → f seen member = .ok (seen.insert (key model)))
    (hseen : ∀ model ∈ models, key model ∉ seen) :
    ∃ found, members.foldlM f seen = .ok found := by
  induction h generalizing seen with
  | nil => exact ⟨seen, rfl⟩
  | @cons member model members models hrel _ ih =>
    rw [List.map_cons, List.nodup_cons] at hnodup
    obtain ⟨hfirst, hrest⟩ := List.forall_mem_cons.mp hseen
    have hstep' := hstep seen member model List.mem_cons_self hrel hfirst
    rw [List.foldlM_cons, hstep']
    refine ih _ hnodup.2 (fun seen member model hmem => hstep seen member model
      (List.mem_cons_of_mem _ hmem)) fun other hother => ?_
    have hne : key model ≠ key other := by
      intro heq
      exact hnodup.1 (List.mem_map.mpr ⟨other, hother, heq.symm⟩)
    rw [Std.HashSet.mem_insert, beq_iff_eq, not_or]
    exact ⟨hne, hrest other hother⟩

/-- At most one attribute with a text, which a check may add to those seen before. -/
theorem foldlM_textEntry {ε : Type} {f : List String → RawAttribute → Except ε (List String)}
    {name : String} {text : Option String} {seen : List String}
    (h : List.Forall₂ (RawAttribute.ShowsText pool) attributes (textEntry name text))
    (hstep : ∀ a s, text = some s → a.ShowsText pool (name, s) → f seen a = .ok (name :: seen)) :
    attributes.foldlM f seen = .ok ((textEntry name text).map Prod.fst ++ seen) := by
  cases text with
  | none =>
    cases h
    rfl
  | some s =>
    obtain ⟨a, rest, hshows, hrest, rfl⟩ := List.forall₂_cons_right_iff.mp h
    cases hrest
    rw [List.foldlM_cons, hstep a s rfl hshows]
    rfl

variable {name descriptor text : String}

theorem isFieldName_of_isIdentifier {s : List Char} (h : Name.isIdentifier s = true) :
    isFieldName s = true := by
  refine Name.all_of_isIdentifier h fun c hc => ?_
  have hdot : c ≠ '.' := Name.ne_of_isPart hc (by decide)
  have hsemicolon : c ≠ ';' := Name.ne_of_isPart hc (by decide)
  have hbracket : c ≠ '[' := Name.ne_of_isPart hc (by decide)
  have hslash : c ≠ '/' := Name.ne_of_isPart hc (by decide)
  simp [hdot, hsemicolon, hbracket, hslash]

theorem checkFieldAttribute_signature (access : UInt16) (h : a.ShowsText pool ("Signature", text))
    (htext : Signature.isFieldSignature text.toList = true) :
    checkFieldAttribute pool access [] a = .ok ["Signature"] := by
  obtain ⟨hname, index, hindex, hutf8⟩ := h
  simp [checkFieldAttribute, textAt_eq_ok.mpr hname, hindex, textAt_eq_ok.mpr hutf8, htext]

theorem checkField_ok {cf : ClassFile} {seen : MemberNames} {f : Member} {spec : AttributeSpec}
    (hclass : cf.access = AccessFlag.isPublic.mask ||| AccessFlag.isSuper.mask)
    (hspec : spec.WellFormed) (h : f.ShowsField cf.pool (Assembly.fieldOf spec))
    (hseen : (spec.name, spec.descriptor) ∉ seen) :
    checkField cf seen f = .ok (seen.insert (spec.name, spec.descriptor)) := by
  have hname : textAt cf.pool f.nameIndex = .ok spec.name := textAt_eq_ok.mpr h.name
  have hdescriptor : textAt cf.pool f.descriptorIndex = .ok spec.descriptor :=
    textAt_eq_ok.mpr h.descriptor
  have haccess : isFieldAccess cf.access f.access = true := by
    rw [hclass, h.access]
    change isFieldAccess _ AccessFlag.isPrivate.mask = true
    decide
  have hattributes := foldlM_textEntry h.attributes fun a s hs hshows =>
    checkFieldAttribute_signature f.access hshows
      (Signature.isFieldSignature_of_isType (hspec.signature s hs).isType)
  simp [checkField, hname, hdescriptor, isFieldName_of_isIdentifier hspec.name,
    hspec.descriptor.isFieldDescriptor, hseen, haccess, hattributes]

theorem checkFields_ok {cf : ClassFile} {m : ClassModel} (hm : m.WellFormed) (h : cf.Shows m) :
    checkFields cf = .ok () := by
  have hstep : ∀ seen f model, model ∈ m.fields → Member.ShowsField cf.pool f model →
      model.key ∉ seen → checkField cf seen f = .ok (seen.insert model.key) := by
    intro seen f model hmodel hshows hseen
    obtain ⟨spec, hspec, rfl⟩ := hm.fields model hmodel
    exact checkField_ok (h.access.trans hm.access) hspec hshows hseen
  obtain ⟨found, hfound⟩ := exists_foldlM_insert ∅ h.fields hm.fieldKeys hstep
    fun _ _ => Std.HashSet.not_mem_empty
  simp [checkFields, hfound]

theorem checkMethodAttribute_code {access : UInt16} (hname : a.name? pool = some "Code")
    (hbody : checkBody pool access name descriptor a.info = .ok ()) :
    checkMethodAttribute pool access name descriptor [] a = .ok ["Code"] := by
  have htext : textAt pool a.nameIndex = .ok "Code" := textAt_eq_ok.mpr hname
  simp [checkMethodAttribute, htext, hbody]

theorem checkMethodAttribute_signature (access : UInt16) (name descriptor : String)
    (h : a.ShowsText pool ("Signature", text))
    (htext : Signature.isMethodSignature text.toList = true) :
    checkMethodAttribute pool access name descriptor ["Code"] a = .ok ["Signature", "Code"] := by
  obtain ⟨hname, index, hindex, hutf8⟩ := h
  simp [checkMethodAttribute, textAt_eq_ok.mpr hname, hindex, textAt_eq_ok.mpr hutf8, htext]

theorem checkMethod_ok {cf : ClassFile} {owner : String} {seen : MemberNames} {f : Member}
    {m : MethodModel} (hclass : cf.access = AccessFlag.isPublic.mask ||| AccessFlag.isSuper.mask)
    (hm : Assembly.Generates owner m) (h : f.ShowsMethod cf.pool m) (hseen : m.key ∉ seen) :
    checkMethod cf seen f = .ok (seen.insert m.key) := by
  have hname : textAt cf.pool f.nameIndex = .ok m.name := textAt_eq_ok.mpr h.name
  have hdescriptor : textAt cf.pool f.descriptorIndex = .ok m.descriptor :=
    textAt_eq_ok.mpr h.descriptor
  have haccess : isMethodAccess cf.access m.access = true := by
    rw [hclass, hm.access]
    decide
  have hhasCode : checkHasCode m.access true = .ok () := by
    rw [hm.access]
    decide
  obtain ⟨d, depths, hflows, hconstructor⟩ := hm.flows
  obtain ⟨code, rest, hattributes, ⟨c, lines, hlowers⟩, hrest⟩ := h.attributes
  have hcode := checkMethodAttribute_code hlowers.name (hflows.checkBody_ok hlowers)
  have hsignature := foldlM_textEntry hrest fun a s hs hshows =>
    checkMethodAttribute_signature m.access m.name m.descriptor hshows (hm.isMethodSignature hs)
  have hvoid : ¬(m.name = "<init>" ∧ d.result ≠ "V") := fun hinit => hinit.2 (hconstructor hinit.1)
  unfold MethodModel.key at hseen ⊢
  unfold checkMethod
  rw [h.access, hattributes]
  simp [haccess, hname, hdescriptor, hflows.split, if_neg hvoid, hseen, hcode, hsignature, hhasCode]

theorem checkMethods_ok {cf : ClassFile} {m : ClassModel} (hm : m.WellFormed) (h : cf.Shows m) :
    checkMethods cf = .ok () := by
  have hstep : ∀ seen f model, model ∈ m.methods → Member.ShowsMethod cf.pool f model →
      model.key ∉ seen → checkMethod cf seen f = .ok (seen.insert model.key) := by
    intro seen f model hmodel hshows hseen
    exact checkMethod_ok (h.access.trans hm.access) (hm.methods model hmodel) hshows hseen
  obtain ⟨found, hfound⟩ := exists_foldlM_insert ∅ h.methods hm.methodKeys hstep
    fun _ _ => Std.HashSet.not_mem_empty
  simp [checkMethods, hfound]

theorem checkClassAttribute_ok {seen : List String} (h : a.ShowsText pool (name, text))
    (hseen : name ∉ seen) (hname : name = "SourceFile" ∨
      name = "Signature" ∧ Signature.isClassSignature text.toList = true) :
    checkClassAttribute pool seen a = .ok (name :: seen) := by
  obtain ⟨htext, index, hindex, hutf8⟩ := h
  rcases hname with rfl | ⟨rfl, hsignature⟩
  · simp [checkClassAttribute, textAt_eq_ok.mpr htext, hseen, hindex, textAt_eq_ok.mpr hutf8]
  · simp [checkClassAttribute, textAt_eq_ok.mpr htext, hseen, hindex, textAt_eq_ok.mpr hutf8,
      hsignature]

theorem checkClassAttributes_ok {cf : ClassFile} {m : ClassModel} (hm : m.WellFormed)
    (h : cf.Shows m) : checkClassAttributes cf = .ok () := by
  have hfirst := List.forall₂_take_append _ _ _ h.attributes
  have hsecond := List.forall₂_drop_append _ _ _ h.attributes
  have hsignature := foldlM_textEntry hfirst fun a s hs hshows =>
    checkClassAttribute_ok hshows List.not_mem_nil (Or.inr ⟨rfl, hm.signature s hs⟩)
  have hseen : "SourceFile" ∉ (textEntry "Signature" m.signature).map Prod.fst ++ [] := by
    cases m.signature <;> simp [textEntry]
  have hsource := foldlM_textEntry hsecond fun a s _ hshows =>
    checkClassAttribute_ok hshows hseen (Or.inl rfl)
  rw [checkClassAttributes,
    ← List.take_append_drop (textEntry "Signature" m.signature).length cf.attributes,
    List.foldlM_append, hsignature, ok_bind, hsource]
  rfl

theorem checkClassName_ok {index : UInt16} (hinternal : Name.IsInternal name.toList)
    (h : pool.className? index = some name) : checkClassName pool index = .ok () := by
  simp [checkClassName, classAt_eq_ok.mpr h, hinternal.isInternalName]

/-- A class file that shows a well-formed model is accepted. -/
theorem verify_ok {cf : ClassFile} {m : ClassModel} (hm : m.WellFormed) (h : cf.Shows m)
    (hmagic : cf.magic = classMagic) (hmajor : isSupportedMajor cf.major = true)
    (hpool : Grows Supports empty cf.pool) : verify cf = .ok () := by
  have hthis := checkClassName_ok hm.internalName h.thisName
  have hsuper : checkSuperclass cf = .ok () := by
    have hroot : Name.IsInternal m.superName.toList := hm.superName ▸ Signature.isInternal_root
    rw [checkSuperclass, if_neg, checkClassName_ok hroot h.superName]
    -- the index 0 stands for no class
    intro hzero
    have hname := h.superName
    rw [ClassFile.superName?, hzero] at hname
    cases hname
  have haccess : isClassAccess cf.thisName? cf.access = true := by
    rw [h.access, hm.access]
    rfl
  have hinterfaces : checkInterfaces cf = .ok () := by
    rw [checkInterfaces, h.interfaces]
    rfl
  simp [verify, hmagic, hmajor, checkPool_ok hpool, haccess, hthis, hsuper, hinterfaces,
    checkFields_ok hm h, checkMethods_ok hm h, checkClassAttributes_ok hm h]

end BeanClass.Verification
