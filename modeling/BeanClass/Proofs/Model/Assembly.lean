import BeanClass.Model.Assembly
import BeanClass.Proofs.Signatures

/-! # Assembled classes are well formed

Adding an attribute keeps all members of a class apart, and every member is the constructor, or the
field or an accessor of an attribute that was accepted; the class is well formed if the names and types
of these attributes are.
-/

namespace BeanClass

open Name Signature

/-- Whatever the attributes are called, their accessors start with other letters. -/
theorem Name.getter_ne_setter (name descriptor other : String) :
    getter name descriptor ≠ setter other := by
  intro heq
  have hlist := congrArg String.toList heq
  simp only [getter, setter, String.toList_append] at hlist
  split at hlist
  · simp at hlist
  · simp at hlist

structure AttributeSpec.WellFormed (spec : AttributeSpec) : Prop where
  name : isIdentifier spec.name.toList = true
  descriptor : IsFieldType spec.descriptor.toList
  signature : ∀ s, spec.signature = some s → IsReference s.toList
  reference : spec.nullability.rejectsNull = true → ValueKind.ofDescriptor spec.descriptor = .reference

namespace Assembly

/-- The methods that a class can have. -/
inductive Generates (owner : String) : MethodModel → Prop
  | constructor : Generates owner defaultConstructor
  | getter {spec : AttributeSpec} : spec.WellFormed → Generates owner (getterOf owner spec)
  | setter {spec : AttributeSpec} : spec.WellFormed → Generates owner (setterOf owner spec)

end Assembly

def FieldModel.key (f : FieldModel) : String × String :=
  (f.name, f.descriptor)

def MethodModel.key (m : MethodModel) : String × String :=
  (m.name, m.descriptor)

structure ClassModel.WellFormed (m : ClassModel) : Prop where
  access : m.access = AccessFlag.isPublic.mask ||| AccessFlag.isSuper.mask
  internalName : IsInternal m.internalName.toList
  superName : m.superName = rootClass
  signature : ∀ s, m.signature = some s → isClassSignature s.toList = true
  fields : ∀ f ∈ m.fields, ∃ spec : AttributeSpec, spec.WellFormed ∧ f = Assembly.fieldOf spec
  fieldKeys : (m.fields.map FieldModel.key).Nodup
  methods : ∀ f ∈ m.methods, Assembly.Generates m.internalName f
  methodKeys : (m.methods.map MethodModel.key).Nodup

namespace Assembly

variable {a b : Assembly} {spec : AttributeSpec}

theorem wellFormed_start {name : String} {parameters : List String} (sourceFile : Option String)
    (hname : isQualified name.toList = true)
    (hparameters : ∀ p ∈ parameters, isIdentifier p.toList = true) :
    (start name parameters sourceFile).finish.WellFormed where
  access := rfl
  internalName := isInternal_internal hname
  superName := rfl
  signature _ hs := isClassSignature_ofParameters? hparameters hs
  fields := by simp [start, finish]
  fieldKeys := by simp [start, finish]
  methods := by simpa [start, finish] using Generates.constructor
  methodKeys := by simp [start, finish]

theorem hasMethod_iff {name descriptor : String} : a.hasMethod name descriptor = true ↔
    (name, descriptor) ∈ a.methods.toList.map MethodModel.key := by
  rw [hasMethod, ← Array.any_toList, List.any_eq_true, List.mem_map]
  simp [MethodModel.key]

theorem hasField_iff {name descriptor : String} : a.hasField name descriptor = true ↔
    (name, descriptor) ∈ a.fields.toList.map FieldModel.key := by
  rw [hasField, ← Array.any_toList, List.any_eq_true, List.mem_map]
  simp [FieldModel.key]

theorem bind_of_ok {x : AssemblyM Unit} {f : Unit → AssemblyM Unit} (h : x a = .ok () b) :
    (x >>= f) a = f () b := by
  change EStateM.bind x f a = _
  unfold EStateM.bind
  rw [h]

theorem bind_of_error {x : AssemblyM Unit} {f : Unit → AssemblyM Unit} {fault : LineFault}
    (h : x a = .error fault b) : (x >>= f) a = .error fault b := by
  change EStateM.bind x f a = _
  unfold EStateM.bind
  rw [h]

theorem refuseClash_eq (m : MethodModel) (a : Assembly) :
    refuseClash m a =
      if a.hasMethod m.name m.descriptor then .error (.accessorClash m.name m.descriptor) a
      else .ok () a := by
  change ((if _ then _ else _ : AssemblyM Unit)) a = _
  split <;> rfl

/-- All members are stored behind all checks, so a failure leaves the class as it was. -/
theorem enter_eq (spec : AttributeSpec) (a : Assembly) :
    enter spec a =
      if a.hasField spec.name spec.descriptor then
        .error (.duplicateAttribute spec.name spec.descriptor) a
      else if spec.nullability.rejectsNull && ValueKind.ofDescriptor spec.descriptor != .reference then
        .error (.rejectedNull spec.name) a
      else if a.hasMethod (getterOf a.internalName spec).name (getterOf a.internalName spec).descriptor then
        .error (.accessorClash (getterOf a.internalName spec).name
          (getterOf a.internalName spec).descriptor) a
      else if a.hasMethod (setterOf a.internalName spec).name (setterOf a.internalName spec).descriptor then
        .error (.accessorClash (setterOf a.internalName spec).name
          (setterOf a.internalName spec).descriptor) a
      else
        .ok () { a with
          fields := a.fields.push (fieldOf spec)
          methods := (a.methods.push (getterOf a.internalName spec)).push
            (setterOf a.internalName spec) } := by
  have hgetter := refuseClash_eq (getterOf a.internalName spec) a
  have hsetter := refuseClash_eq (setterOf a.internalName spec) a
  change ((if _ then _ else (if _ then _ else _) : AssemblyM Unit)) a = _
  split
  · rfl
  · split
    · rfl
    · split
      · exact bind_of_error (hgetter.trans (if_pos ‹_›))
      · refine (bind_of_ok (hgetter.trans (if_neg ‹_›))).trans ?_
        split
        · exact bind_of_error (hsetter.trans (if_pos ‹_›))
        · exact bind_of_ok (hsetter.trans (if_neg ‹_›))

theorem add_eq_ok (h : a.add spec = .ok b) :
    (fieldOf spec).key ∉ a.fields.toList.map FieldModel.key ∧
      (spec.nullability.rejectsNull = true → ValueKind.ofDescriptor spec.descriptor = .reference) ∧
      (getterOf a.internalName spec).key ∉ a.methods.toList.map MethodModel.key ∧
      (setterOf a.internalName spec).key ∉ a.methods.toList.map MethodModel.key ∧
      b = { a with
        fields := a.fields.push (fieldOf spec)
        methods := (a.methods.push (getterOf a.internalName spec)).push
          (setterOf a.internalName spec) } := by
  rw [add, enter_eq] at h
  split at h
  · rename_i hok
    split_ifs at hok with hfield hnull hgetter hsetter
    cases hok
    cases h
    rw [hasField_iff] at hfield
    rw [hasMethod_iff] at hgetter hsetter
    refine ⟨hfield, fun hrejects => ?_, hgetter, hsetter, rfl⟩
    simpa [hrejects] using hnull
  · cases h

theorem nodup_fieldKeys_add (h : a.add spec = .ok b)
    (hkeys : (a.fields.toList.map FieldModel.key).Nodup) :
    (b.fields.toList.map FieldModel.key).Nodup := by
  obtain ⟨hfield, -, -, -, rfl⟩ := add_eq_ok h
  simp only [Array.toList_push, List.map_append, List.map_cons, List.map_nil]
  exact List.nodup_append_comm.mp (List.nodup_cons.mpr ⟨hfield, hkeys⟩)

theorem nodup_methodKeys_add (h : a.add spec = .ok b)
    (hkeys : (a.methods.toList.map MethodModel.key).Nodup) :
    (b.methods.toList.map MethodModel.key).Nodup := by
  obtain ⟨-, -, hgetter, hsetter, rfl⟩ := add_eq_ok h
  simp only [Array.toList_push, List.map_append, List.map_cons, List.map_nil]
  rw [List.append_assoc, List.nodup_append_comm, List.singleton_append, List.cons_append,
    List.singleton_append]
  refine List.nodup_cons.mpr ⟨?_, List.nodup_cons.mpr ⟨?_, hkeys⟩⟩
  · rw [List.mem_cons, not_or]
    refine ⟨fun heq => ?_, hgetter⟩
    exact Name.getter_ne_setter _ _ _ (Prod.mk.inj heq).1
  · exact hsetter

theorem wellFormed_add (ha : a.finish.WellFormed) (hname : isIdentifier spec.name.toList = true)
    (hdescriptor : IsFieldType spec.descriptor.toList)
    (hsignature : ∀ s, spec.signature = some s → IsReference s.toList) (h : a.add spec = .ok b) :
    b.finish.WellFormed := by
  have hfields := nodup_fieldKeys_add h ha.fieldKeys
  have hmethods := nodup_methodKeys_add h ha.methodKeys
  obtain ⟨-, hreference, -, -, rfl⟩ := add_eq_ok h
  have hspec : spec.WellFormed := ⟨hname, hdescriptor, hsignature, hreference⟩
  exact {
    access := ha.access
    internalName := ha.internalName
    superName := ha.superName
    signature := ha.signature
    fields := fun f hf => by
      simp only [finish, Array.toList_push, List.mem_append, List.mem_singleton] at hf
      rcases hf with hf | rfl
      · exact ha.fields f hf
      · exact ⟨spec, hspec, rfl⟩
    fieldKeys := hfields
    methods := fun m hm => by
      simp only [finish, Array.toList_push, List.mem_append, List.mem_singleton] at hm
      rcases hm with (hm | rfl) | rfl
      · exact ha.methods m hm
      · exact .getter hspec
      · exact .setter hspec
    methodKeys := hmethods }

/-- The class after attributes were given one after another; one that is refused changes nothing. -/
def addAll (a : Assembly) : List AttributeSpec → Assembly
  | [] => a
  | spec :: specs =>
    match a.add spec with
    | .ok b => b.addAll specs
    | .error _ => a.addAll specs

/-- The attributes that are not refused. -/
def accepted (a : Assembly) : List AttributeSpec → List AttributeSpec
  | [] => []
  | spec :: specs =>
    match a.add spec with
    | .ok b => spec :: b.accepted specs
    | .error _ => a.accepted specs

/-- The members are the constructor and those of the given attributes, in order. -/
structure Holds (a : Assembly) (specs : List AttributeSpec) : Prop where
  fields : a.fields.toList = specs.map fieldOf
  fieldKeys : (a.fields.toList.map FieldModel.key).Nodup
  methods : a.methods.toList = defaultConstructor ::
    specs.flatMap fun spec => [getterOf a.internalName spec, setterOf a.internalName spec]
  methodKeys : (a.methods.toList.map MethodModel.key).Nodup
  reference : ∀ spec ∈ specs, spec.nullability.rejectsNull = true →
    ValueKind.ofDescriptor spec.descriptor = .reference

theorem holds_start (name : String) (parameters : List String) (sourceFile : Option String) :
    (start name parameters sourceFile).Holds [] where
  fields := rfl
  fieldKeys := by simp [start]
  methods := rfl
  methodKeys := by simp [start]
  reference := by simp

theorem Holds.add {specs : List AttributeSpec} (ha : a.Holds specs) (h : a.add spec = .ok b) :
    b.Holds (specs ++ [spec]) := by
  have hfields := nodup_fieldKeys_add h ha.fieldKeys
  have hmethods := nodup_methodKeys_add h ha.methodKeys
  obtain ⟨-, hreference, -, -, rfl⟩ := add_eq_ok h
  exact {
    fields := by simp [ha.fields]
    fieldKeys := hfields
    methods := by simp [ha.methods]
    methodKeys := hmethods
    reference := fun other hother => by
      rcases List.mem_append.mp hother with hother | hother
      · exact ha.reference other hother
      · rw [List.mem_singleton.mp hother]
        exact hreference }

theorem internalName_addAll (specs : List AttributeSpec) :
    (a.addAll specs).internalName = a.internalName := by
  induction specs generalizing a with
  | nil => rfl
  | cons spec specs ih =>
    rw [addAll]
    cases hadd : a.add spec with
    | ok b =>
      obtain ⟨-, -, -, -, rfl⟩ := add_eq_ok hadd
      exact ih
    | error fault => exact ih

theorem Holds.addAll {earlier : List AttributeSpec} (ha : a.Holds earlier) (specs : List AttributeSpec) :
    (a.addAll specs).Holds (earlier ++ a.accepted specs) := by
  induction specs generalizing a earlier with
  | nil => simpa [Assembly.addAll, accepted] using ha
  | cons spec specs ih =>
    rw [Assembly.addAll, accepted]
    cases hadd : a.add spec with
    | ok b => simpa using ih (ha.add hadd)
    | error fault => exact ih ha

section

variable {specs : List AttributeSpec} (ha : a.Holds specs) (hspec : spec ∈ specs)
include ha hspec

theorem Holds.fieldOf_mem : fieldOf spec ∈ a.finish.fields := by
  rw [finish, ha.fields]
  exact List.mem_map_of_mem hspec

theorem Holds.getterOf_mem : getterOf a.internalName spec ∈ a.finish.methods := by
  rw [finish, ha.methods]
  exact List.mem_cons_of_mem _ (List.mem_flatMap.mpr ⟨spec, hspec, by simp⟩)

theorem Holds.setterOf_mem : setterOf a.internalName spec ∈ a.finish.methods := by
  rw [finish, ha.methods]
  exact List.mem_cons_of_mem _ (List.mem_flatMap.mpr ⟨spec, hspec, by simp⟩)

end

end Assembly

end BeanClass
