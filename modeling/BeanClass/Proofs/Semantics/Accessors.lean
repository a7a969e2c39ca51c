import BeanClass.Proofs.Model.Assembly
import BeanClass.Proofs.Semantics.Invocation

/-! # Accessors read and store attributes

A sequence of accessor calls on an object of an assembled class replies as a plain record of the
attributes does, and leaves in the fields of the object what the record holds.
-/

namespace BeanClass

/-- The field of an attribute in the given class. -/
def AttributeSpec.ref (spec : AttributeSpec) (owner : String) : MemberRef :=
  ⟨owner, spec.name, spec.descriptor⟩

namespace Heap

theorem field?_eq_some {heap : Heap} {address : Nat} {o : Object} {field : MemberRef} {v : Value}
    (ho : heap[address]? = some o) (hv : o.fields field = some v) :
    heap.field? address field = some v := by
  rw [field?, ho]
  exact hv

/-- The object at an address is now the given one, and all others are as before. -/
structure Replaces (address : Nat) (o : Object) (before after : Heap) : Prop where
  replaced : after[address]? = some o
  others : ∀ other p, other ≠ address → before[other]? = some p → after[other]? = some p

variable {address : Nat} {o p : Object} {heap before after : Heap}

theorem Replaces.refl (ho : heap[address]? = some o) : Replaces address o heap heap :=
  ⟨ho, fun _ _ _ h => h⟩

theorem Replaces.trans (h : Replaces address o before heap) (h' : Replaces address p heap after) :
    Replaces address p before after :=
  ⟨h'.replaced, fun other q hother hq => h'.others other q hother (h.others other q hother hq)⟩

theorem replaces_store (ho : heap[address]? = some o) (field : MemberRef) (v : Value) :
    Replaces address { o with fields := Function.update o.fields field (some v) } heap
      (heap.store address field v) := by
  constructor
  · simp [store, ho]
  · intro other q hother hq
    simpa [store, List.getElem?_modify, Ne.symm hother] using hq

/-- A constructor that is called for a new object keeps all those before. -/
theorem replaces_construct (platform : Platform) (constructor : MemberRef) (created : Object)
    (ho : heap[address]? = some o) :
    Replaces address o heap (platform.construct constructor heap.length [] (heap ++ [created])) := by
  have hkeeps : ∀ (other : Nat) q, heap[other]? = some q →
      (platform.construct constructor heap.length [] (heap ++ [created]))[other]? = some q := by
    intro other q hq
    obtain ⟨hlt, -⟩ := List.getElem?_eq_some_iff.mp hq
    apply platform.others_construct
    · exact Nat.ne_of_lt hlt
    · rwa [List.getElem?_append_left hlt]
  exact ⟨hkeeps address o ho, fun other q _ hq => hkeeps other q hq⟩

end Heap

namespace Assembly

open Activation

variable {platform : Platform} {owner : String} {spec : AttributeSpec} {heap : Heap} {receiver : Nat}
  {v : Value}

theorem invoke_getterOf (hfield : heap.field? receiver (spec.ref owner) = some v)
    (hkind : v.kind = .ofDescriptor spec.descriptor) (steps : Nat) :
    (getterOf owner spec).invoke platform [.object receiver] heap (steps + 8) =
      .returned (some v) heap := by
  have hstack : (getterOf owner spec).maxStack.toNat = v.slots := by
    rw [Value.slots, hkind]
    rfl
  have hlocals : (getterOf owner spec).maxLocals.toNat = v.slots := hstack
  have hslots : 1 ≤ v.slots := v.kind.one_le_slots
  rw [MethodModel.invoke, if_pos (by simpa [hlocals] using hslots)]
  refine Eq.trans (run_load rfl rfl rfl ?_) <| Eq.trans (run_getField rfl hfield ?_) <|
    run_ret_value rfl hkind
  · simpa [hstack] using hslots
  · simp [hstack]

theorem setterOf_of_accepts (hchecks : spec.nullability.rejectsNull = false) :
    setterOf owner spec = { setterOf owner spec with
      maxStack := (ValueKind.ofDescriptor spec.descriptor).slots + 1
      maxLocals := (ValueKind.ofDescriptor spec.descriptor).slots + 1
      body := [.load .reference 0, .load (.ofDescriptor spec.descriptor) 1,
        .putField (spec.ref owner), .ret none] } := by
  simp [setterOf, AttributeSpec.ref, hchecks]

/-- At its highest, the stack holds the receiver, the value and the exception twice. -/
theorem setterOf_of_rejects (hchecks : spec.nullability.rejectsNull = true)
    (hkind : ValueKind.ofDescriptor spec.descriptor = .reference) :
    setterOf owner spec = { setterOf owner spec with
      maxStack := 4
      maxLocals := 2
      body := [.load .reference 0, .load .reference 1, .dup, .ifNonNull 0, .new nullFailure, .dup,
        .invokeSpecial (plainConstructor nullFailure), .athrow, .label 0,
        .frame [.object owner, .ofDescriptor spec.descriptor] [.object owner, .ofDescriptor spec.descriptor],
        .putField (spec.ref owner), .ret none] } := by
  simp only [setterOf, nullCheck, hchecks, hkind, if_true]
  rfl

theorem invoke_setterOf_of_accepts (hchecks : spec.nullability.rejectsNull = false)
    (hfield : (heap.field? receiver (spec.ref owner)).isSome)
    (hkind : v.kind = .ofDescriptor spec.descriptor) (steps : Nat) :
    (setterOf owner spec).invoke platform [.object receiver, v] heap (steps + 8) =
      .returned none (heap.store receiver (spec.ref owner) v) := by
  have hslots : ((ValueKind.ofDescriptor spec.descriptor).slots + 1).toNat = v.slots + 1 := by
    rw [ValueKind.toNat_slots_succ, Value.slots, hkind]
  rw [setterOf_of_accepts hchecks, MethodModel.invoke, if_pos]
  · refine Eq.trans (run_load rfl rfl rfl ?_) <| Eq.trans (run_load rfl rfl hkind ?_) <|
      Eq.trans (run_putField rfl hkind hfield ?_) <| run_ret rfl
    · exact Nat.le_trans (by simp) hslots.ge
    · exact Nat.le_trans (by simp) hslots.ge
    · simp
  · exact Nat.le_trans (by simp [Nat.add_comm]) hslots.ge

theorem invoke_setterOf_object {address : Nat} (hchecks : spec.nullability.rejectsNull = true)
    (hkind : ValueKind.ofDescriptor spec.descriptor = .reference)
    (hfield : (heap.field? receiver (spec.ref owner)).isSome) (steps : Nat) :
    (setterOf owner spec).invoke platform [.object receiver, .object address] heap (steps + 8) =
      .returned none (heap.store receiver (spec.ref owner) (.object address)) := by
  rw [setterOf_of_rejects hchecks hkind, MethodModel.invoke, if_pos]
  -- The branch takes the copy of the value off the stack and goes on where the check ends.
  · refine Eq.trans (run_load rfl rfl rfl ?_) <| Eq.trans (run_load rfl rfl rfl ?_) <|
      Eq.trans (run_dup rfl rfl ?_) <| Eq.trans (run_ifNonNull_object rfl rfl) <|
      Eq.trans (run_label rfl ?_) <| Eq.trans (run_frame rfl ?_) <|
      Eq.trans (run_putField rfl hkind.symm hfield ?_) <| run_ret rfl
    all_goals simp
  · simp

theorem invoke_setterOf (hstores : ¬ (spec.nullability.rejectsNull = true ∧ v = .null))
    (hreference : spec.nullability.rejectsNull = true →
      ValueKind.ofDescriptor spec.descriptor = .reference)
    (hfield : (heap.field? receiver (spec.ref owner)).isSome)
    (hkind : v.kind = .ofDescriptor spec.descriptor) (steps : Nat) :
    (setterOf owner spec).invoke platform [.object receiver, v] heap (steps + 8) =
      .returned none (heap.store receiver (spec.ref owner) v) := by
  cases hchecks : spec.nullability.rejectsNull with
  | false => exact invoke_setterOf_of_accepts hchecks hfield hkind steps
  | true =>
    rw [hreference hchecks] at hkind
    cases v with
    | object address => exact invoke_setterOf_object hchecks (hreference hchecks) hfield steps
    | null => exact absurd ⟨hchecks, rfl⟩ hstores
    | _ => cases hkind

theorem invoke_setterOf_null (hchecks : spec.nullability.rejectsNull = true)
    (hkind : ValueKind.ofDescriptor spec.descriptor = .reference) (steps : Nat) :
    (setterOf owner spec).invoke platform [.object receiver, .null] heap (steps + 8) =
      .thrown heap.length (platform.construct (plainConstructor nullFailure) heap.length []
        (heap ++ [platform.create nullFailure])) := by
  rw [setterOf_of_rejects hchecks hkind, MethodModel.invoke, if_pos]
  · refine Eq.trans (run_load rfl rfl rfl ?_) <| Eq.trans (run_load rfl rfl rfl ?_) <|
      Eq.trans (run_dup rfl rfl ?_) <| Eq.trans (run_ifNonNull_null rfl ?_) <|
      Eq.trans (run_new rfl ?_) <| Eq.trans (run_dup rfl rfl ?_) <|
      Eq.trans (run_plainConstructor rfl ?_) <| run_athrow rfl
    all_goals simp
  · simp

end Assembly

/-- The method with the given name and descriptor. -/
def ClassModel.method? (model : ClassModel) (name descriptor : String) : Option MethodModel :=
  model.methods.find? fun m => m.name == name && m.descriptor == descriptor

theorem ClassModel.method?_of_mem {model : ClassModel} {m : MethodModel}
    (hkeys : (model.methods.map MethodModel.key).Nodup) (hm : m ∈ model.methods) :
    model.method? m.name m.descriptor = some m := by
  cases hfind : model.method? m.name m.descriptor with
  | none => simpa using List.find?_eq_none.mp hfind m hm
  | some found =>
    have hkey : found.key = m.key := by
      simpa [MethodModel.key] using List.find?_some hfind
    rw [List.inj_on_of_nodup_map hkeys (List.mem_of_find?_eq_some hfind) hm hkey]

/-- An object has a value of its kind in each field that the class declares. -/
def Object.HasFields (o : Object) (model : ClassModel) : Prop :=
  ∀ f ∈ model.fields, ∃ v, o.fields ⟨model.internalName, f.name, f.descriptor⟩ = some v ∧
    v.kind = .ofDescriptor f.descriptor

theorem Object.HasFields.exists_value {o : Object} {a : Assembly} {specs : List AttributeSpec}
    {spec : AttributeSpec} (hfields : o.HasFields a.finish) (ha : a.Holds specs) (hspec : spec ∈ specs) :
    ∃ v, o.fields (spec.ref a.internalName) = some v ∧
      v.kind = .ofDescriptor spec.descriptor :=
  hfields _ (ha.fieldOf_mem hspec)

/-- What a caller sees of a method that was run to its end. -/
inductive Reply where
  | returned (value : Option Value)
  | thrown (className : String)
  deriving DecidableEq, Repr

def Outcome.reply? : Outcome → Option (Reply × Heap)
  | returned value heap => some (.returned value, heap)
  | thrown address heap => heap[address]?.map fun o => (.thrown o.className, heap)
  | stuck | unfinished => none

/-- A call of the getter or the setter of an attribute. -/
inductive AccessorCall where
  | get (spec : AttributeSpec)
  | set (spec : AttributeSpec) (value : Value)

namespace AccessorCall

def name : AccessorCall → String
  | get spec => Name.getter spec.name spec.descriptor
  | set spec _ => Name.setter spec.name

def descriptor : AccessorCall → String
  | get spec => MethodDescriptor.ofGetter spec.descriptor
  | set spec _ => MethodDescriptor.ofSetter spec.descriptor

def arguments : AccessorCall → List Value
  | get _ => []
  | set _ value => [value]

/-- The attribute is one of those given, and the value to set is of its kind. -/
def IsFor (specs : List AttributeSpec) : AccessorCall → Prop
  | get spec => spec ∈ specs
  | set spec value => spec ∈ specs ∧ value.kind = .ofDescriptor spec.descriptor

instance (specs : List AttributeSpec) : DecidablePred (IsFor specs)
  | get spec => inferInstanceAs (Decidable (spec ∈ specs))
  | set spec value =>
    inferInstanceAs (Decidable (spec ∈ specs ∧ value.kind = .ofDescriptor spec.descriptor))

section

variable (platform : Platform) (model : ClassModel) (receiver steps : Nat)

/-- Runs the method of the class that the call names. -/
def perform (call : AccessorCall) (heap : Heap) : Option (Reply × Heap) := do
  let m ← model.method? call.name call.descriptor
  (m.invoke platform (.object receiver :: call.arguments) heap steps).reply?

/-- Performs calls one after another; there is no result if one of them does not end. -/
def performAll : List AccessorCall → Heap → Option (List Reply × Heap)
  | [], heap => some ([], heap)
  | call :: calls, heap => do
    let (reply, heap) ← call.perform platform model receiver steps heap
    let (replies, heap) ← performAll calls heap
    some (reply :: replies, heap)

end

/-- What the call means for the fields of an object of the given class. -/
def apply (owner : String) (fields : MemberRef → Option Value) :
    AccessorCall → Reply × (MemberRef → Option Value)
  | get spec => (.returned (fields (spec.ref owner)), fields)
  | set spec value =>
    if spec.nullability.rejectsNull = true ∧ value = .null then (.thrown nullFailure, fields)
    else
      (.returned none, Function.update fields (spec.ref owner) (some value))

def applyAll (owner : String) (fields : MemberRef → Option Value) :
    List AccessorCall → List Reply × (MemberRef → Option Value)
  | [] => ([], fields)
  | call :: calls =>
    let (reply, fields) := call.apply owner fields
    let (replies, fields) := applyAll owner fields calls
    (reply :: replies, fields)

variable {platform : Platform} {a : Assembly} {specs : List AttributeSpec} {call : AccessorCall}
  {heap : Heap} {receiver : Nat} {o : Object}

theorem hasFields_apply (hcall : call.IsFor specs) (ho : o.HasFields a.finish) :
    Object.HasFields { o with fields := (call.apply a.internalName o.fields).2 } a.finish := by
  cases call with
  | get spec => exact ho
  | set spec value =>
    rw [apply]
    split
    · exact ho
    · intro f hf
      by_cases hsame : ⟨a.internalName, f.name, f.descriptor⟩ = spec.ref a.internalName
      · refine ⟨value, ?_, ?_⟩
        · simp only [Assembly.finish]
          rw [hsame, Function.update_self]
        · have hdescriptor : f.descriptor = spec.descriptor := congrArg MemberRef.descriptor hsame
          rw [hdescriptor]
          exact hcall.2
      · obtain ⟨v, hv, hkind⟩ := ho f hf
        refine ⟨v, ?_, hkind⟩
        rw [← hv]
        exact Function.update_of_ne hsame _ _

theorem perform_of_mem {m : MethodModel} (ha : a.Holds specs) (hm : m ∈ a.finish.methods)
    (hkey : m.key = (call.name, call.descriptor)) (steps : Nat) :
    call.perform platform a.finish receiver steps heap =
      (m.invoke platform (.object receiver :: call.arguments) heap steps).reply? := by
  obtain ⟨hname, hdescriptor⟩ := Prod.mk.inj hkey
  rw [perform, ← hname, ← hdescriptor, ClassModel.method?_of_mem ha.methodKeys hm]
  rfl

/-- What a call does to the heap is what it means for the fields of the receiver. -/
theorem perform_eq_apply (platform : Platform) (ha : a.Holds specs) (hcall : call.IsFor specs)
    (ho : heap[receiver]? = some o) (hfields : o.HasFields a.finish) :
    ∃ after,
      (∀ steps, call.perform platform a.finish receiver (steps + 8) heap =
        some ((call.apply a.internalName o.fields).1, after)) ∧
      Heap.Replaces receiver { o with fields := (call.apply a.internalName o.fields).2 } heap after := by
  cases call with
  | get spec =>
    obtain ⟨v, hv, hkind⟩ := hfields.exists_value ha hcall
    refine ⟨heap, fun steps => ?_, .refl ho⟩
    rw [perform_of_mem ha (ha.getterOf_mem hcall) rfl, arguments,
      Assembly.invoke_getterOf (Heap.field?_eq_some ho hv) hkind, ← hv]
    rfl
  | set spec value =>
    obtain ⟨hspec, hkind⟩ := hcall
    obtain ⟨v, hv, -⟩ := hfields.exists_value ha hspec
    by_cases hthrows : spec.nullability.rejectsNull = true ∧ value = .null
    · obtain ⟨created, hcreated, hname⟩ := platform.className_construct (plainConstructor nullFailure)
        heap.length [] (heap ++ [platform.create nullFailure]) (platform.create nullFailure) (by simp)
      rw [apply, if_pos hthrows]
      obtain ⟨hchecks, rfl⟩ := hthrows
      refine ⟨_, fun steps => ?_, Heap.replaces_construct platform (plainConstructor nullFailure)
        (platform.create nullFailure) ho⟩
      rw [perform_of_mem ha (ha.setterOf_mem hspec) rfl, arguments,
        Assembly.invoke_setterOf_null hchecks hkind.symm, Outcome.reply?, hcreated, Option.map_some, hname,
        platform.className_create]
    · have hfield := Option.isSome_of_eq_some (Heap.field?_eq_some ho hv)
      rw [apply, if_neg hthrows]
      refine ⟨_, fun steps => ?_, Heap.replaces_store ho _ value⟩
      rw [perform_of_mem ha (ha.setterOf_mem hspec) rfl, arguments,
        Assembly.invoke_setterOf hthrows (ha.reference spec hspec) hfield hkind, Outcome.reply?]

theorem performAll_of_holds (platform : Platform) (ha : a.Holds specs) {calls : List AccessorCall}
    (hcalls : ∀ call ∈ calls, call.IsFor specs) (ho : heap[receiver]? = some o)
    (hfields : o.HasFields a.finish) :
    ∃ after,
      (∀ steps, performAll platform a.finish receiver (steps + 8) calls heap =
        some ((applyAll a.internalName o.fields calls).1, after)) ∧
      Heap.Replaces receiver { o with fields := (applyAll a.internalName o.fields calls).2 } heap
        after := by
  induction calls generalizing heap o with
  | nil => exact ⟨heap, fun _ => rfl, .refl ho⟩
  | cons call calls ih =>
    have hcall := hcalls call List.mem_cons_self
    obtain ⟨next, hperform, hnext⟩ := perform_eq_apply platform ha hcall ho hfields
    obtain ⟨after, hperforms, hafter⟩ := ih (fun other hother => hcalls other (.tail _ hother))
      hnext.replaced (hasFields_apply hcall hfields)
    refine ⟨after, fun steps => ?_, hnext.trans hafter⟩
    rw [performAll, hperform]
    simp only [Option.bind_eq_bind, Option.bind_some]
    rw [hperforms]
    rfl

/-- For any attributes offered to a class, and any calls of the accessors of those that are accepted,
on any object that has the fields of the class: no call is stuck, each one replies what it means for
these fields, and at the end the object holds what the calls mean; no other object is changed. -/
theorem performAll_eq_applyAll (platform : Platform) (name : String) (parameters : List String)
    (sourceFile : Option String) (specs : List AttributeSpec) (calls : List AccessorCall) (heap : Heap)
    (receiver : Nat) (o : Object) (ho : heap[receiver]? = some o)
    (hfields : o.HasFields ((Assembly.start name parameters sourceFile).addAll specs).finish)
    (hcalls : ∀ call ∈ calls,
      call.IsFor ((Assembly.start name parameters sourceFile).accepted specs)) :
    ∃ after,
      (∀ steps ≥ 8,
        performAll platform ((Assembly.start name parameters sourceFile).addAll specs).finish receiver
          steps calls heap = some ((applyAll (Name.internal name) o.fields calls).1, after)) ∧
      Heap.Replaces receiver { o with fields := (applyAll (Name.internal name) o.fields calls).2 } heap
        after := by
  have ha := (Assembly.holds_start name parameters sourceFile).addAll specs
  obtain ⟨after, hperforms, hafter⟩ := performAll_of_holds platform ha hcalls ho hfields
  rw [Assembly.internalName_addAll] at hperforms hafter
  refine ⟨after, fun steps hsteps => ?_, hafter⟩
  obtain ⟨more, rfl⟩ := Nat.exists_eq_add_of_le' hsteps
  exact hperforms more

end AccessorCall

/-- Constructors do nothing. -/
def Platform.idle : Platform where
  create name := ⟨name, fun _ => none⟩
  construct _ _ _ heap := heap
  className_create _ := rfl
  className_construct _ _ _ _ o ho := ⟨o, ho, rfl⟩
  others_construct _ _ _ _ _ _ _ ho := ho

namespace AccessorCall

def wide : AttributeSpec := ⟨"x", "J", none, .nullable⟩

def checked : AttributeSpec := ⟨"x", "[I", none, .neverNull⟩

/-- The accessors of this attribute are spelled as those of `checked`. -/
def clashing : AttributeSpec := ⟨"X", "[I", none, .nullable⟩

def pair : Object where
  className := "p/Pair"
  fields := fun field =>
    if field = ⟨"p/Pair", "x", "J"⟩ then some (.long 0)
    else if field = ⟨"p/Pair", "x", "[I"⟩ then some .null
    else none

theorem performAll_eq_applyAll_pair :
    ∃ after, performAll .idle ((Assembly.start "p.Pair" [] none).addAll [wide, checked, clashing]).finish
        0 8 [set checked (.object 1), set checked .null, set wide (.long 7), get checked, get wide]
        [pair, Platform.idle.create "[I"] =
      some ([.returned none, .thrown nullFailure, .returned none, .returned (some (.object 1)),
        .returned (some (.long 7))], after) := by
  have haccepted : (Assembly.start "p.Pair" [] none).accepted [wide, checked, clashing] =
      [wide, checked] := by
    cbv
  have hmodel : ((Assembly.start "p.Pair" [] none).addAll [wide, checked, clashing]).finish.fields =
      [Assembly.fieldOf wide, Assembly.fieldOf checked] := by
    cbv
  have hname : ((Assembly.start "p.Pair" [] none).addAll [wide, checked, clashing]).finish.internalName =
      "p/Pair" := by
    cbv
  have hfields : pair.HasFields
      ((Assembly.start "p.Pair" [] none).addAll [wide, checked, clashing]).finish := by
    intro f hf
    rw [hmodel] at hf
    rw [hname]
    rcases List.mem_pair.mp hf with rfl | rfl
    · exact ⟨.long 0, by decide, by decide⟩
    · exact ⟨.null, by decide, by decide⟩
  obtain ⟨after, hperforms, -⟩ := performAll_eq_applyAll .idle "p.Pair" [] none
    [wide, checked, clashing]
    [set checked (.object 1), set checked .null, set wide (.long 7), get checked, get wide]
    [pair, Platform.idle.create "[I"] 0 pair rfl hfields (by rw [haccepted]; decide)
  exact ⟨after, hperforms 8 (Nat.le_refl 8)⟩

end AccessorCall

end BeanClass
