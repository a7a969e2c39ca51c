import BeanClass.Proofs.Model.Assembly

/-! # Accepted attributes

A class under construction holds the members of the attributes that were accepted, and nothing else.
An attribute is refused only for its own null rule, or for an earlier one that has the same type and
the same name in its accessors; so the order of attributes does not matter.
-/

namespace BeanClass

open Name

namespace AttributeSpec

variable {s t : AttributeSpec}

/-- A rule about null is made for a reference type only. -/
def FitsType (s : AttributeSpec) : Prop :=
  s.nullability = .nullable ∨ ValueKind.ofDescriptor s.descriptor = .reference

/-- What tells the accessors of attributes apart. -/
def accessorKey (s : AttributeSpec) : String × String :=
  (capitalize s.name, s.descriptor)

theorem fitsType_iff : s.FitsType ↔
    (s.nullability.rejectsNull = true → ValueKind.ofDescriptor s.descriptor = .reference) := by
  unfold FitsType
  cases s.nullability <;> simp [Nullability.rejectsNull]

theorem accessorKey_eq_iff : s.accessorKey = t.accessorKey ↔
    s.descriptor = t.descriptor ∧ capitalize s.name = capitalize t.name := by
  rw [accessorKey, accessorKey, Prod.mk.injEq, and_comm]

end AttributeSpec

namespace Assembly

open AttributeSpec

variable {a b : Assembly} {spec s t : AttributeSpec} {owner : String}

/-- The kind of a getter depends on the type, which its descriptor spells. -/
theorem key_getterOf_eq_iff :
    (getterOf owner s).key = (getterOf owner t).key ↔ s.accessorKey = t.accessorKey := by
  rw [accessorKey_eq_iff]
  simp only [MethodModel.key, getterOf, Prod.mk.injEq, MethodDescriptor.ofGetter, getter]
  constructor
  · rintro ⟨hname, hdescriptor⟩
    have htype : s.descriptor = t.descriptor := by simpa using hdescriptor
    rw [htype] at hname
    exact ⟨htype, by simpa using hname⟩
  · rintro ⟨htype, hname⟩
    rw [htype, hname]
    exact ⟨rfl, rfl⟩

theorem key_setterOf_eq_iff :
    (setterOf owner s).key = (setterOf owner t).key ↔ s.accessorKey = t.accessorKey := by
  rw [accessorKey_eq_iff]
  simp only [MethodModel.key, setterOf, Prod.mk.injEq, MethodDescriptor.ofSetter, setter]
  constructor
  · rintro ⟨hname, hdescriptor⟩
    exact ⟨by simpa using hdescriptor, by simpa using hname⟩
  · rintro ⟨htype, hname⟩
    rw [htype, hname]
    exact ⟨rfl, rfl⟩

theorem key_getterOf_ne_key_setterOf : (getterOf owner s).key ≠ (setterOf owner t).key := by
  intro heq
  exact getter_ne_setter _ _ _ (Prod.mk.inj heq).1

theorem key_getterOf_ne_key_constructor : (getterOf owner s).key ≠ defaultConstructor.key := by
  intro heq
  have hname := congrArg String.toList (Prod.mk.inj heq).1
  simp only [getterOf, getter, String.toList_append] at hname
  split at hname <;> simp [defaultConstructor, constructorName] at hname

theorem key_setterOf_ne_key_constructor : (setterOf owner s).key ≠ defaultConstructor.key := by
  intro heq
  have hname := congrArg String.toList (Prod.mk.inj heq).1
  simp [setterOf, setter, String.toList_append, defaultConstructor, constructorName] at hname

theorem exists_add_iff : (∃ b, a.add spec = .ok b) ↔
    (fieldOf spec).key ∉ a.fields.toList.map FieldModel.key ∧ spec.FitsType ∧
      (getterOf a.internalName spec).key ∉ a.methods.toList.map MethodModel.key ∧
      (setterOf a.internalName spec).key ∉ a.methods.toList.map MethodModel.key := by
  constructor
  · rintro ⟨b, hb⟩
    obtain ⟨hfield, hreference, hgetter, hsetter, -⟩ := add_eq_ok hb
    exact ⟨hfield, fitsType_iff.mpr hreference, hgetter, hsetter⟩
  · rintro ⟨hfield, hfits, hgetter, hsetter⟩
    have hnull : ¬(spec.nullability.rejectsNull &&
        ValueKind.ofDescriptor spec.descriptor != .reference) = true := by
      simpa using fitsType_iff.mp hfits
    have hname : ¬a.hasField spec.name spec.descriptor = true := mt hasField_iff.mp hfield
    have henter := enter_eq spec a
    rw [if_neg hname, if_neg hnull, if_neg (mt hasMethod_iff.mp hgetter),
      if_neg (mt hasMethod_iff.mp hsetter)] at henter
    exact ⟨_, by rw [add, henter]⟩

section

variable {specs : List AttributeSpec} (ha : a.Holds specs)
include ha

theorem Holds.key_fieldOf_mem_iff : (fieldOf spec).key ∈ a.fields.toList.map FieldModel.key ↔
    ∃ other ∈ specs, other.name = spec.name ∧ other.descriptor = spec.descriptor := by
  simp [ha.fields, FieldModel.key, fieldOf]

theorem Holds.mem_methodKeys_iff {key : String × String} :
    key ∈ a.methods.toList.map MethodModel.key ↔ key = defaultConstructor.key ∨
      ∃ other ∈ specs, key = (getterOf a.internalName other).key ∨
        key = (setterOf a.internalName other).key := by
  simp [ha.methods, List.map_flatMap]

theorem Holds.key_getterOf_mem_iff :
    (getterOf a.internalName spec).key ∈ a.methods.toList.map MethodModel.key ↔
      spec.accessorKey ∈ specs.map accessorKey := by
  simp only [ha.mem_methodKeys_iff, key_getterOf_ne_key_constructor, key_getterOf_ne_key_setterOf,
    key_getterOf_eq_iff, false_or, or_false, List.mem_map, @eq_comm _ _ spec.accessorKey]

theorem Holds.key_setterOf_mem_iff :
    (setterOf a.internalName spec).key ∈ a.methods.toList.map MethodModel.key ↔
      spec.accessorKey ∈ specs.map accessorKey := by
  simp only [ha.mem_methodKeys_iff, key_setterOf_ne_key_constructor, key_getterOf_ne_key_setterOf.symm,
    key_setterOf_eq_iff, false_or, List.mem_map, @eq_comm _ _ spec.accessorKey]

/-- All three clashes that are looked for come down to that of the accessors. -/
theorem Holds.exists_add_iff : (∃ b, a.add spec = .ok b) ↔
    spec.FitsType ∧ spec.accessorKey ∉ specs.map accessorKey := by
  rw [Assembly.exists_add_iff, ha.key_fieldOf_mem_iff, ha.key_getterOf_mem_iff, ha.key_setterOf_mem_iff]
  constructor
  · rintro ⟨-, hfits, hfresh, -⟩
    exact ⟨hfits, hfresh⟩
  · rintro ⟨hfits, hfresh⟩
    refine ⟨?_, hfits, hfresh, hfresh⟩
    rintro ⟨other, hother, hname, htype⟩
    apply hfresh
    rw [List.mem_map]
    exact ⟨other, hother, accessorKey_eq_iff.mpr ⟨htype, congrArg capitalize hname⟩⟩

end

theorem accepted_sublist (a : Assembly) (specs : List AttributeSpec) :
    (a.accepted specs).Sublist specs := by
  induction specs generalizing a with
  | nil => exact .slnil
  | cons spec specs ih =>
    rw [accepted]
    cases a.add spec with
    | ok b => exact (ih b).cons_cons spec
    | error fault => exact (ih a).cons spec

/-- Attributes are accepted in full if none is refused for itself and no two of them, nor one of them
and an earlier one, have the same accessors. -/
theorem Holds.accepted_eq_self_iff {earlier : List AttributeSpec} (ha : a.Holds earlier)
    (specs : List AttributeSpec) :
    a.accepted specs = specs ↔ (∀ spec ∈ specs, spec.FitsType) ∧ (specs.map accessorKey).Nodup ∧
      (earlier.map accessorKey).Disjoint (specs.map accessorKey) := by
  induction specs generalizing a earlier with
  | nil => simp [accepted]
  | cons spec specs ih =>
    have hspec : (∃ b, a.add spec = .ok b) ↔ _ := ha.exists_add_iff
    rw [accepted]
    cases hadd : a.add spec with
    | ok b =>
      rw [hadd] at hspec
      obtain ⟨hfits, hfresh⟩ := hspec.mp ⟨b, rfl⟩
      simp only [List.cons.injEq, true_and, ih (ha.add hadd), List.forall_mem_cons, List.map_cons,
        List.nodup_cons, List.map_append, List.map_nil, List.disjoint_append_left, List.disjoint_cons_right,
        List.singleton_disjoint]
      tauto
    | error fault =>
      have hrefused : ¬(spec.FitsType ∧ spec.accessorKey ∉ earlier.map accessorKey) := by
        rw [← hspec, hadd]
        rintro ⟨b, hb⟩
        cases hb
      constructor
      · intro (hall : a.accepted specs = spec :: specs)
        have hlength := (accepted_sublist a specs).length_le
        rw [hall, List.length_cons] at hlength
        omega
      · rintro ⟨hfits, -, hdisjoint⟩
        refine absurd ⟨hfits spec List.mem_cons_self, fun hmem => ?_⟩ hrefused
        exact hdisjoint hmem List.mem_cons_self

theorem enter_eq_ok_iff : enter spec a = .ok () b ↔ a.add spec = .ok b := by
  unfold add
  cases enter spec a <;> simp

theorem eq_of_enter_eq_error {fault : LineFault} (h : enter spec a = .error fault b) : b = a := by
  rw [enter_eq] at h
  split_ifs at h <;> cases h <;> rfl

/-- The class after an attribute was entered, or refused. -/
def after (a : Assembly) (spec : AttributeSpec) : Assembly :=
  match enter spec a with
  | .ok _ b | .error _ b => b

/-- The class after attributes were entered one after another, or refused. -/
def enterAll (a : Assembly) (specs : List AttributeSpec) : Assembly :=
  specs.foldl after a

theorem enterAll_eq_addAll (a : Assembly) (specs : List AttributeSpec) : a.enterAll specs = a.addAll specs := by
  induction specs generalizing a with
  | nil => rfl
  | cons spec specs ih =>
    have hstep : a.enterAll (spec :: specs) = (a.after spec).enterAll specs := rfl
    rw [hstep, ih, addAll]
    cases henter : enter spec a with
    | ok _ b => simp [after, add, henter]
    | error fault b =>
      rw [eq_of_enter_eq_error henter] at henter
      simp [after, add, henter]

theorem accepted_append (a : Assembly) (specs more : List AttributeSpec) :
    a.accepted (specs ++ more) = a.accepted specs ++ (a.addAll specs).accepted more := by
  induction specs generalizing a with
  | nil => rfl
  | cons spec specs ih =>
    rw [List.cons_append, accepted, accepted, addAll]
    cases a.add spec with
    | ok b => simp [ih b]
    | error fault => simp [ih a]

/-- One call is accepted, or it is refused and changes nothing. -/
theorem enter_cases (a : Assembly) (earlier : List AttributeSpec) (spec : AttributeSpec) :
    (∃ b, enter spec (a.enterAll earlier) = .ok () b ∧
        a.accepted (earlier ++ [spec]) = a.accepted earlier ++ [spec]) ∨
      ∃ fault, enter spec (a.enterAll earlier) = .error fault (a.enterAll earlier) ∧
        a.accepted (earlier ++ [spec]) = a.accepted earlier := by
  rw [accepted_append, ← enterAll_eq_addAll, accepted]
  cases henter : enter spec (a.enterAll earlier) with
  | ok _ b =>
    left
    exact ⟨b, rfl, by simp [add, henter, accepted]⟩
  | error fault b =>
    right
    cases eq_of_enter_eq_error henter
    exact ⟨fault, rfl, by simp [add, henter, accepted]⟩

/-- Over every run of calls the class has the fields and accessors of the attributes that were accepted,
in their order and behind the constructor, all of them apart from each other; a call that fails leaves
the class as it was. -/
theorem finish_enterAll (name : String) (parameters : List String) (sourceFile : Option String)
    (specs : List AttributeSpec) :
    let start := Assembly.start name parameters sourceFile
    let model := (start.enterAll specs).finish
    let kept := start.accepted specs
    model.fields = kept.map (fun spec =>
        ⟨AccessFlag.isPrivate.mask, spec.name, spec.descriptor, spec.signature⟩) ∧
      model.methods = defaultConstructor :: kept.flatMap (fun spec =>
        [getterOf (Name.internal name) spec, setterOf (Name.internal name) spec]) ∧
      (model.fields.map FieldModel.key).Nodup ∧ (model.methods.map MethodModel.key).Nodup ∧
      ∀ earlier spec,
        (∃ b, enter spec (start.enterAll earlier) = .ok () b ∧
            start.accepted (earlier ++ [spec]) = start.accepted earlier ++ [spec]) ∨
          ∃ fault, enter spec (start.enterAll earlier) = .error fault (start.enterAll earlier) ∧
            start.accepted (earlier ++ [spec]) = start.accepted earlier := by
  intro start model kept
  have hholds : (start.enterAll specs).Holds kept := by
    rw [enterAll_eq_addAll]
    exact (holds_start name parameters sourceFile).addAll specs
  have hname : (start.enterAll specs).internalName = Name.internal name := by
    rw [enterAll_eq_addAll, internalName_addAll]
    rfl
  refine ⟨hholds.fields, ?_, hholds.fieldKeys, hholds.methodKeys, enter_cases start⟩
  rw [← hname]
  exact hholds.methods

/-- Whatever was offered before, an attribute is accepted unless a rule about null does not fit its type
or an accepted one has its type and its name in accessors; so attributes are accepted in full, in any
order, if they fit and no two of them have both in common. -/
theorem accepts_iff (name : String) (parameters : List String) (sourceFile : Option String) :
    let start := Assembly.start name parameters sourceFile
    (∀ earlier spec, (∃ b, enter spec (start.enterAll earlier) = .ok () b) ↔
        (spec.nullability = .nullable ∨ ValueKind.ofDescriptor spec.descriptor = .reference) ∧
          ∀ other ∈ start.accepted earlier,
            ¬(other.descriptor = spec.descriptor ∧ capitalize other.name = capitalize spec.name)) ∧
      (∀ specs, start.accepted specs = specs ↔
        (∀ spec ∈ specs,
            spec.nullability = .nullable ∨ ValueKind.ofDescriptor spec.descriptor = .reference) ∧
          (specs.map fun spec => (capitalize spec.name, spec.descriptor)).Nodup) ∧
      ∀ specs others, specs.Perm others →
        (start.accepted specs = specs ↔ start.accepted others = others) := by
  intro start
  have hstart : start.Holds [] := holds_start name parameters sourceFile
  have hfull : ∀ specs, start.accepted specs = specs ↔
      (∀ spec ∈ specs, spec.FitsType) ∧ (specs.map accessorKey).Nodup := by
    intro specs
    simp [hstart.accepted_eq_self_iff]
  refine ⟨fun earlier spec => ?_, hfull, fun specs others hperm => ?_⟩
  · have hholds := hstart.addAll earlier
    rw [← enterAll_eq_addAll, List.nil_append] at hholds
    simp only [enter_eq_ok_iff, hholds.exists_add_iff, List.mem_map, not_exists, not_and,
      accessorKey_eq_iff]
    rfl
  · rw [hfull, hfull, (hperm.map accessorKey).nodup_iff]
    simp only [hperm.mem_iff]

/-- In capitals `ß` is spelled `SS`, so it clashes with `sS` of the same type only. -/
theorem accepts_iff_sharp :
    [⟨"ß", "I", none, .nullable⟩, ⟨"sS", "J", none, .nullable⟩].Perm
        [⟨"sS", "J", none, .nullable⟩, (⟨"ß", "I", none, .nullable⟩ : AttributeSpec)] ∧
      (start "p.Pair" [] none).accepted [⟨"sS", "J", none, .nullable⟩, ⟨"ß", "I", none, .nullable⟩] =
        [⟨"sS", "J", none, .nullable⟩, ⟨"ß", "I", none, .nullable⟩] ∧
      ¬∃ b, enter ⟨"sS", "I", none, .nullable⟩
        ((start "p.Pair" [] none).enterAll [⟨"ß", "I", none, .nullable⟩]) = .ok () b := by
  have hcapital : capitalize "ß" = "SS" := by cbv
  have hspelled : capitalize "sS" = "SS" := by cbv
  obtain ⟨hone, hfull, horder⟩ := accepts_iff "p.Pair" [] none
  have hperm := List.Perm.swap ⟨"sS", "J", none, .nullable⟩ (⟨"ß", "I", none, .nullable⟩ : AttributeSpec) []
  refine ⟨hperm, ?_, ?_⟩
  · rw [← horder _ _ hperm, hfull]
    simp
  · rw [hone, (hfull [⟨"ß", "I", none, .nullable⟩]).mpr (by simp)]
    simp [hcapital, hspelled]

end Assembly

end BeanClass
