import BeanClass.Compile
import BeanClass.Proofs.Lowering.Code
import BeanClass.Proofs.Outcomes

/-! # Encoded classes keep their models

A class file shows a model if its names, texts and bodies, read through its pool, are those of the
model. What lowering writes shows the model, in the pool that all of the class is written with.
-/

namespace BeanClass

open ConstantPool Lowering

variable {p q : ConstantPool}

/-- The attributes that hold a text, if there is one, under a name. -/
def textEntry (name : String) (text : Option String) : List (String × String) :=
  text.toList.map fun text => (name, text)

/-- The attribute has the name and holds the text. -/
def RawAttribute.ShowsText (pool : ConstantPool) (a : RawAttribute) (entry : String × String) :
    Prop :=
  a.name? pool = some entry.1 ∧
    ∃ index, Verification.payloadIndex? a.info = some index ∧ pool.utf8? index = some entry.2

structure Member.ShowsField (pool : ConstantPool) (f : Member) (m : FieldModel) : Prop where
  access : f.access = m.access
  name : pool.utf8? f.nameIndex = some m.name
  descriptor : pool.utf8? f.descriptorIndex = some m.descriptor
  attributes : List.Forall₂ (RawAttribute.ShowsText pool) f.attributes
    (textEntry "Signature" m.signature)

/-- The first attribute is the lowered body. -/
structure Member.ShowsMethod (pool : ConstantPool) (f : Member) (m : MethodModel) : Prop where
  access : f.access = m.access
  name : pool.utf8? f.nameIndex = some m.name
  descriptor : pool.utf8? f.descriptorIndex = some m.descriptor
  attributes : ∃ code rest, f.attributes = code :: rest ∧ (∃ c lines, Lowers pool code m c lines) ∧
    List.Forall₂ (RawAttribute.ShowsText pool) rest (textEntry "Signature" m.signature)

/-- The class file says of a class what the model says. -/
structure ClassFile.Shows (cf : ClassFile) (m : ClassModel) : Prop where
  access : cf.access = m.access
  thisName : cf.thisName? = some m.internalName
  superName : cf.superName? = some m.superName
  interfaces : cf.interfaces = []
  fields : List.Forall₂ (Member.ShowsField cf.pool) cf.fields m.fields
  methods : List.Forall₂ (Member.ShowsMethod cf.pool) cf.methods m.methods
  attributes : List.Forall₂ (RawAttribute.ShowsText cf.pool) cf.attributes
    (textEntry "Signature" m.signature ++ textEntry "SourceFile" m.sourceFile)

namespace RawAttribute

variable {a : RawAttribute} {entry : String × String}

theorem ShowsText.grows (h : a.ShowsText p entry) (hpq : Grows Supports p q) :
    a.ShowsText q entry := by
  obtain ⟨hname, index, hindex, htext⟩ := h
  exact ⟨hpq.utf8? hname, index, hindex, hpq.utf8? htext⟩

theorem ShowsText.fits (h : a.ShowsText p entry) : a.Fits := by
  obtain ⟨-, index, hindex, -⟩ := h
  unfold Verification.payloadIndex? at hindex
  split at hindex
  · rename_i hinfo
    simp [Fits, hinfo]
  · cases hindex

theorem allFit_of_shows {attributes : List RawAttribute} {entries : List (String × String)}
    (hlength : entries.length < 0x10000)
    (h : List.Forall₂ (RawAttribute.ShowsText p) attributes entries) : AllFit attributes := by
  refine ⟨h.length_eq ▸ hlength, fun a ha => ?_⟩
  obtain ⟨entry, -, hshows⟩ := exists_related h ha
  exact hshows.fits

end RawAttribute

theorem length_textEntry (name : String) (text : Option String) :
    (textEntry name text).length ≤ 1 := by
  cases text <;> simp [textEntry]

namespace Member

variable {f : Member}

theorem ShowsField.grows {m : FieldModel} (h : f.ShowsField p m) (hpq : Grows Supports p q) :
    f.ShowsField q m where
  access := h.access
  name := hpq.utf8? h.name
  descriptor := hpq.utf8? h.descriptor
  attributes := h.attributes.imp fun _ _ h => h.grows hpq

theorem ShowsField.allFit {m : FieldModel} (h : f.ShowsField p m) :
    RawAttribute.AllFit f.attributes :=
  RawAttribute.allFit_of_shows (Nat.lt_of_le_of_lt (length_textEntry _ _) (by decide)) h.attributes

theorem ShowsMethod.grows {m : MethodModel} (h : f.ShowsMethod p m) (hpq : Grows Supports p q) :
    f.ShowsMethod q m where
  access := h.access
  name := hpq.utf8? h.name
  descriptor := hpq.utf8? h.descriptor
  attributes := by
    obtain ⟨code, rest, hattributes, ⟨c, lines, hlowers⟩, hrest⟩ := h.attributes
    exact ⟨code, rest, hattributes, ⟨c, lines, hlowers.grows hpq⟩,
      hrest.imp fun _ _ h => h.grows hpq⟩

theorem ShowsMethod.allFit {m : MethodModel} (h : f.ShowsMethod p m) :
    RawAttribute.AllFit f.attributes := by
  obtain ⟨code, rest, hattributes, ⟨c, lines, hlowers⟩, hrest⟩ := h.attributes
  have hlength : rest.length ≤ 1 := hrest.length_eq ▸ length_textEntry _ _
  rw [hattributes]
  refine ⟨by simp only [List.length_cons]; omega, fun a ha => ?_⟩
  rcases List.mem_cons.mp ha with rfl | ha
  · exact hlowers.fits
  · obtain ⟨entry, -, hshows⟩ := exists_related hrest ha
    exact hshows.fits

end Member

namespace Lowering

theorem fits_of_supports {c : Constant} (h : p.Supports c) : c.Fits := by
  cases c with
  | utf8 text => exact Nat.lt_succ_of_le h
  | _ => trivial

theorem textAttribute_ok {name text : String} {a : RawAttribute} (hp : p.Sound)
    (h : textAttribute name text p = .ok a q) :
    Grows Supports p q ∧ a.ShowsText q (name, text) := by
  obtain ⟨index, r, hadd, h⟩ := bind_eq_ok.mp h
  obtain ⟨hpr, htext⟩ := addUtf8_ok hp hadd
  obtain ⟨hrq, hname, hinfo, -⟩ := named_ok (hpr.sound hp) h
  refine ⟨hpr.trans hrq, hname, index, ?_, hrq.utf8? htext⟩
  rw [hinfo]
  exact congrArg some (join16_bytes index)

theorem optionalText_ok {name : String} {text : Option String} {found : List RawAttribute}
    (hp : p.Sound)
    (h : (text.elim (pure []) fun text => textAttribute name text >>= fun a => pure [a] :
      PoolM (List RawAttribute)) p = .ok found q) :
    Grows Supports p q ∧ List.Forall₂ (RawAttribute.ShowsText q) found (textEntry name text) := by
  cases text with
  | none =>
    obtain ⟨rfl, rfl⟩ := pure_eq_ok.mp h
    exact ⟨.refl, .nil⟩
  | some text =>
    obtain ⟨a, r, ha, h⟩ := bind_eq_ok.mp h
    obtain ⟨rfl, rfl⟩ := pure_eq_ok.mp h
    obtain ⟨hgrows, hshows⟩ := textAttribute_ok hp ha
    exact ⟨hgrows, .cons hshows .nil⟩

theorem signatureAttributes_ok {text : Option String} {found : List RawAttribute} (hp : p.Sound)
    (h : signatureAttributes text p = .ok found q) :
    Grows Supports p q ∧
      List.Forall₂ (RawAttribute.ShowsText q) found (textEntry "Signature" text) :=
  optionalText_ok hp (by cases text <;> exact h)

theorem sourceAttributes_ok {text : Option String} {found : List RawAttribute} (hp : p.Sound)
    (h : sourceAttributes text p = .ok found q) :
    Grows Supports p q ∧
      List.Forall₂ (RawAttribute.ShowsText q) found (textEntry "SourceFile" text) :=
  optionalText_ok hp (by cases text <;> exact h)

theorem field_ok {m : FieldModel} {f : Member} (hp : p.Sound) (h : field m p = .ok f q) :
    Grows Supports p q ∧ f.ShowsField q m := by
  obtain ⟨name, r, hname, h⟩ := bind_eq_ok.mp h
  obtain ⟨descriptor, s, hdescriptor, h⟩ := bind_eq_ok.mp h
  obtain ⟨attributes, t, hattributes, h⟩ := bind_eq_ok.mp h
  obtain ⟨rfl, rfl⟩ := pure_eq_ok.mp h
  obtain ⟨hpr, hname⟩ := addUtf8_ok hp hname
  obtain ⟨hrs, hdescriptor⟩ := addUtf8_ok (hpr.sound hp) hdescriptor
  obtain ⟨hst, hshows⟩ := signatureAttributes_ok ((hpr.trans hrs).sound hp) hattributes
  exact ⟨(hpr.trans hrs).trans hst, rfl, (hrs.trans hst).utf8? hname, hst.utf8? hdescriptor, hshows⟩

theorem method_ok {m : MethodModel} {f : Member} (hp : p.Sound) (h : method m p = .ok f q) :
    Grows Supports p q ∧ f.ShowsMethod q m := by
  obtain ⟨name, r, hname, h⟩ := bind_eq_ok.mp h
  obtain ⟨descriptor, s, hdescriptor, h⟩ := bind_eq_ok.mp h
  obtain ⟨code, t, hcode, h⟩ := bind_eq_ok.mp h
  obtain ⟨rest, u, hrest, h⟩ := bind_eq_ok.mp h
  obtain ⟨rfl, rfl⟩ := pure_eq_ok.mp h
  obtain ⟨hpr, hname⟩ := addUtf8_ok hp hname
  obtain ⟨hrs, hdescriptor⟩ := addUtf8_ok (hpr.sound hp) hdescriptor
  have hps := hpr.trans hrs
  obtain ⟨hst, c, lines, hlowers⟩ := codeAttribute_ok (hps.sound hp) hcode
  obtain ⟨htu, hshows⟩ := signatureAttributes_ok ((hps.trans hst).sound hp) hrest
  have hsu := hst.trans htu
  exact ⟨hps.trans hsu, rfl, (hrs.trans hsu).utf8? hname, hsu.utf8? hdescriptor,
    code, rest, rfl, ⟨c, lines, hlowers.grows htu⟩, hshows⟩

theorem checkCount_ok {what : String} {count : Nat} (h : checkCount what count p = .ok () q) :
    count ≤ maxEntries ∧ p = q := by
  unfold checkCount at h
  split at h
  · cases h
  · exact ⟨Nat.le_of_not_lt ‹_›, (pure_eq_ok.mp h).2⟩

theorem classFileM_ok {major : UInt16} {m : ClassModel} {cf : ClassFile} (hp : p.Sound)
    (h : classFileM major m p = .ok cf q) :
    Grows Supports p cf.pool ∧ cf.magic = classMagic ∧ cf.minor = 0 ∧ cf.major = major ∧
      m.fields.length ≤ maxEntries ∧ m.methods.length ≤ maxEntries ∧ cf.Shows m := by
  obtain ⟨_, _, hcount, h⟩ := bind_eq_ok.mp h
  obtain ⟨hnfields, rfl⟩ := checkCount_ok hcount
  obtain ⟨_, _, hcount, h⟩ := bind_eq_ok.mp h
  obtain ⟨hnmethods, rfl⟩ := checkCount_ok hcount
  obtain ⟨this, p₁, hthis, h⟩ := bind_eq_ok.mp h
  obtain ⟨super, p₂, hsuper, h⟩ := bind_eq_ok.mp h
  obtain ⟨fields, p₃, hfields, h⟩ := bind_eq_ok.mp h
  obtain ⟨methods, p₄, hmethods, h⟩ := bind_eq_ok.mp h
  obtain ⟨signature, p₅, hsignature, h⟩ := bind_eq_ok.mp h
  obtain ⟨source, p₆, hsource, h⟩ := bind_eq_ok.mp h
  cases h
  obtain ⟨h₁, hthis⟩ := addClass_ok hp hthis
  obtain ⟨h₂, hsuper⟩ := addClass_ok (h₁.sound hp) hsuper
  have hp₂ := h₁.trans h₂
  obtain ⟨h₃, hfields⟩ := mapM_ok Member.ShowsField (fun hp h => field_ok hp h)
    (fun hpq h => h.grows hpq) (hp₂.sound hp) hfields
  have hp₃ := hp₂.trans h₃
  obtain ⟨h₄, hmethods⟩ := mapM_ok Member.ShowsMethod (fun hp h => method_ok hp h)
    (fun hpq h => h.grows hpq) (hp₃.sound hp) hmethods
  have hp₄ := hp₃.trans h₄
  obtain ⟨h₅, hsignature⟩ := signatureAttributes_ok (hp₄.sound hp) hsignature
  obtain ⟨h₆, hsource⟩ := sourceAttributes_ok ((hp₄.trans h₅).sound hp) hsource
  -- what was written first is read through the pool at the end
  have h₅₆ := h₅.trans h₆
  have h₄₆ := h₄.trans h₅₆
  have h₃₆ := h₃.trans h₄₆
  refine ⟨hp₂.trans h₃₆, rfl, rfl, rfl, hnfields, hnmethods, ?_⟩
  exact {
    access := rfl
    thisName := (h₂.trans h₃₆).className? hthis
    superName := h₃₆.className? hsuper
    interfaces := rfl
    fields := hfields.imp fun _ _ h => h.grows h₄₆
    methods := hmethods.imp fun _ _ h => h.grows h₅₆
    attributes := List.rel_append (hsignature.imp fun _ _ h => h.grows h₆) hsource }

theorem classFile_ok {major : UInt16} {m : ClassModel} {cf : ClassFile}
    (h : classFile major m = .ok cf) :
    Grows Supports empty cf.pool ∧ cf.magic = classMagic ∧ cf.minor = 0 ∧ cf.major = major ∧
      cf.Shows m ∧ ClassFile.decode cf.encode = .ok cf := by
  unfold classFile at h
  split at h
  · rename_i cf q hclass
    cases h
    obtain ⟨hgrows, hmagic, hminor, hmajor, hfields, hmethods, hshows⟩ :=
      classFileM_ok sound_empty hclass
    refine ⟨hgrows, hmagic, hminor, hmajor, hshows, ClassFile.decode_encode ?_⟩
    exact {
      magic := hmagic
      pool := hgrows.mono fun _ _ => fits_of_supports
      interfaces := by simp [hshows.interfaces]
      fields := by
        refine ⟨hshows.fields.length_eq ▸ Nat.lt_succ_of_le hfields, fun f hf => ?_⟩
        obtain ⟨m, -, hf⟩ := exists_related hshows.fields hf
        exact hf.allFit
      methods := by
        refine ⟨hshows.methods.length_eq ▸ Nat.lt_succ_of_le hmethods, fun f hf => ?_⟩
        obtain ⟨m, -, hf⟩ := exists_related hshows.methods hf
        exact hf.allFit
      attributes := by
        have hsignature := length_textEntry "Signature" m.signature
        have hsource := length_textEntry "SourceFile" m.sourceFile
        refine RawAttribute.allFit_of_shows ?_ hshows.attributes
        rw [List.length_append]
        omega }
  · cases h

end Lowering

theorem ClassModel.encode_of_ok {m : ClassModel} {config : Config} {cf : ClassFile}
    (h : classFile config.major m = .ok cf) :
    m.encode config = if config.verify
      then ((Verification.verify cf).mapError .verification).map fun _ => cf.encode
      else .ok cf.encode := by
  unfold ClassModel.encode
  rw [h]
  cases config.verify with
  | false => rfl
  | true =>
    simp only [Except.mapError, bind, Except.bind, if_true]
    cases Verification.verify cf <;> rfl

theorem ClassModel.encode_eq_ok {m : ClassModel} {config : Config} {bytes : List UInt8}
    (h : m.encode config = .ok bytes) :
    ∃ cf, classFile config.major m = .ok cf ∧ bytes = cf.encode := by
  cases hclass : classFile config.major m with
  | error => rw [ClassModel.encode, hclass] at h; cases h
  | ok cf =>
    refine ⟨cf, rfl, ?_⟩
    rw [encode_of_ok hclass] at h
    split at h
    · cases hverify : Verification.verify cf with
      | error => rw [hverify] at h; cases h
      | ok => rw [hverify] at h; cases h; rfl
    · cases h; rfl

/-- Nothing of a model is lost when it is encoded. -/
theorem ClassModel.encode_shows {m : ClassModel} {config : Config} {bytes : List UInt8}
    (h : m.encode config = .ok bytes) :
    ∃ cf, ClassFile.decode bytes = .ok cf ∧ cf.minor = 0 ∧ cf.major = config.major ∧ cf.Shows m := by
  obtain ⟨cf, hclass, rfl⟩ := encode_eq_ok h
  obtain ⟨-, -, hminor, hmajor, hshows, hdecode⟩ := classFile_ok hclass
  exact ⟨cf, hdecode, hminor, hmajor, hshows⟩

/-- A generic class with one attribute of a generic type. -/
def ClassModel.box : ClassModel where
  access := 0x21
  internalName := "a/Box"
  superName := rootClass
  signature := some "<T:Ljava/lang/Object;>Ljava/lang/Object;"
  sourceFile := some "Box"
  fields := [⟨2, "x", "Lb/C;", some "Lb/C<Lb/C;>;"⟩]
  methods := [Assembly.defaultConstructor,
    ⟨1, "getX", "()Lb/C;", some "()Lb/C<Lb/C;>;", 1, 1,
      [.load .reference 0, .getField ⟨"a/Box", "x", "Lb/C;"⟩, .ret (some .reference)]⟩,
    ⟨1, "setX", "(Lb/C;)V", some "(Lb/C<Lb/C;>;)V", 2, 2,
      [.load .reference 0, .load .reference 1, .putField ⟨"a/Box", "x", "Lb/C;"⟩, .ret none]⟩]

theorem ClassModel.exists_classFile_box : ∃ cf, classFile 51 ClassModel.box = .ok cf := by
  simp +decide [classFile, classFileM, ClassModel.box, Assembly.defaultConstructor, plainConstructor,
    constructorName, rootClass, checkCount, field, method, signatureAttributes, sourceAttributes,
    textAttribute, codeAttribute, Layout.ofBody, Layout.ofBodyFrom, emitAll, emit, bind, EStateM.bind,
    pure, EStateM.pure, addFieldRef, addMethodRef, addClass, addUtf8, addNameAndType, add, push, empty,
    count, stackMapAttributes, named, Opcode.loadOf, get, getThe, MonadStateOf.get, EStateM.get,
    Std.ExtHashMap.getElem?_insertIfNew, -getElem?_pos]

theorem ClassModel.encode_shows_box :
    ∃ bytes, ClassModel.box.encode { verify := false } = .ok bytes ∧
      ∃ cf, ClassFile.decode bytes = .ok cf ∧ cf.minor = 0 ∧ cf.major = 51 ∧ cf.Shows box := by
  obtain ⟨cf, hclass⟩ := exists_classFile_box
  have h : ClassModel.box.encode { verify := false } = .ok cf.encode := encode_of_ok hclass
  exact ⟨cf.encode, h, encode_shows h⟩

end BeanClass
