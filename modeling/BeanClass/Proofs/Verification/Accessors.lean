import BeanClass.Proofs.Model.Assembly
import BeanClass.Proofs.Verification.Flow

/-! # Generated methods flow

The constructor, the getters and the setters of a class with the depths of their operations.
-/

namespace BeanClass

open Instruction Lowering Limits Verification

theorem FrameType.slots_ofDescriptor (descriptor : String) :
    (ofDescriptor descriptor).slots = (ValueKind.ofDescriptor descriptor).slots.toNat := by
  unfold ofDescriptor
  cases ValueKind.ofDescriptor descriptor with
  | reference =>
    dsimp only
    split
    · split
      · rfl
      · rfl
    · rfl
  | _ => rfl

theorem resultKind_of_isFieldType {descriptor : String} (h : IsFieldType descriptor.toList) :
    resultKind descriptor = some (ValueKind.ofDescriptor descriptor) := by
  refine if_neg fun hvoid => h.ne_void ?_
  rw [hvoid]
  rfl

namespace Assembly

variable {owner : String} {spec : AttributeSpec}

theorem split_plain (owner : String) :
    MethodDescriptor.split (plainConstructor owner).descriptor = .ok ⟨[], "V"⟩ := by
  have h : MethodDescriptor.split "()V" = .ok ⟨[], "V"⟩ := by decide
  exact h

theorem effect?_plainConstructor (owner : String) :
    (invokeSpecial (plainConstructor owner)).effect? = some (1, 0) := by
  rw [effect?, split_plain]
  rfl

theorem flows_constructor : defaultConstructor.Flows ⟨[], "V"⟩ [0, 1, 0] where
  access := by decide
  split := split_plain rootClass
  parameters := by decide
  start := rfl
  flows := by
    have hlimits : defaultConstructor.limits ⟨[], "V"⟩ = ⟨1, 1, none, [], []⟩ := rfl
    rw [hlimits]
    refine ⟨⟨0, 1, rfl, ?_⟩, ⟨1, 0, effect?_plainConstructor rootClass, ?_⟩, ⟨0, 0, rfl, ?_⟩, trivial⟩
    · simp [Permits, ValueKind.slots]
    · simp [Permits]
    · simp [Permits, ends]
  frames := by decide
  fits := by decide

theorem flows_getter (h : spec.WellFormed) :
    (getterOf owner spec).Flows ⟨[], spec.descriptor⟩
      [0, 1, (ValueKind.ofDescriptor spec.descriptor).slots.toNat] where
  access := by simp [getterOf]; decide
  split := MethodDescriptor.split_ofGetter h.descriptor
  parameters := ValueKind.one_le_slots _
  start := rfl
  flows := by
    generalize hkind : ValueKind.ofDescriptor spec.descriptor = kind
    have hlimits : (getterOf owner spec).limits ⟨[], spec.descriptor⟩ =
        ⟨kind.slots.toNat, kind.slots.toNat, some kind, [], []⟩ := by
      rw [← hkind, ← resultKind_of_isFieldType h.descriptor]
      rfl
    have hslots := kind.one_le_slots
    rw [hlimits]
    refine ⟨⟨0, 1, rfl, ?_⟩, ⟨1, kind.slots.toNat, ?_⟩, ⟨kind.slots.toNat, 0, ?_⟩, trivial⟩
    · simpa [Permits, ValueKind.slots] using hslots
    · simpa [Permits, effect?, hkind] using hslots
    · simp [Permits, effect?, ends, hkind]
  frames f hf := by cases hf
  fits := ⟨Nat.zero_lt_succ _, fun f hf => by cases hf⟩

theorem flows_setter_of_accepts (h : spec.WellFormed) (hchecks : spec.nullability.rejectsNull = false) :
    (setterOf owner spec).Flows ⟨[spec.descriptor], "V"⟩
      [0, 1, 1 + (ValueKind.ofDescriptor spec.descriptor).slots.toNat, 0] := by
  generalize hkind : ValueKind.ofDescriptor spec.descriptor = kind
  have hbody : (setterOf owner spec).body = [.load .reference 0, .load kind 1,
      .putField ⟨owner, spec.name, spec.descriptor⟩, .ret none] := by
    simp [setterOf, hchecks, hkind]
  have hstack : (setterOf owner spec).maxStack = kind.slots + 1 := by
    simp [setterOf, hchecks, hkind]
  have hlocals : (setterOf owner spec).maxLocals = kind.slots + 1 := by
    simp [setterOf, hkind]
  have hframes : placedFrames (setterOf owner spec).body = [] := by
    rw [hbody]
    rfl
  have hlimits : (setterOf owner spec).limits ⟨[spec.descriptor], "V"⟩ =
      ⟨kind.slots.toNat + 1, kind.slots.toNat + 1, none, [], []⟩ := by
    rw [MethodModel.limits, hstack, hlocals, MethodModel.declared, hframes, hbody,
      kind.toNat_slots_succ]
    rfl
  exact {
    access := by simp [setterOf]; decide
    split := MethodDescriptor.split_ofSetter h.descriptor
    parameters := by
      rw [hlocals, kind.toNat_slots_succ]
      simp [MethodDescriptor.parameterSum, hkind]
    start := rfl
    flows := by
      rw [hlimits, hbody]
      refine ⟨⟨0, 1, rfl, ?_⟩, ⟨0, kind.slots.toNat, rfl, ?_⟩, ⟨1 + kind.slots.toNat, 0, ?_⟩,
        ⟨0, 0, rfl, ?_⟩, trivial⟩
      · simp [Permits, ValueKind.slots]
      · simp [Permits, Nat.add_comm]
      · simp [Permits, effect?, hkind, Nat.add_comm]
      · simp [Permits, ends]
    frames := by simp [MethodModel.declared, hframes]
    fits := by simp [hframes] }

/-- The branch and the path behind `athrow` meet at the frame, where the receiver and the value are on
the stack. -/
theorem flows_setter_of_rejects (h : spec.WellFormed) (hchecks : spec.nullability.rejectsNull = true) :
    (setterOf owner spec).Flows ⟨[spec.descriptor], "V"⟩ [0, 1, 2, 3, 2, 3, 4, 3, 2, 0] := by
  have hkind := h.reference hchecks
  let types := [FrameType.object owner, FrameType.ofDescriptor spec.descriptor]
  have hbody : (setterOf owner spec).body = [.load .reference 0, .load .reference 1, .dup,
      .ifNonNull 0, .new nullFailure, .dup, .invokeSpecial (plainConstructor nullFailure), .athrow,
      .label 0, .frame types types, .putField ⟨owner, spec.name, spec.descriptor⟩, .ret none] := by
    simp [setterOf, nullCheck, hchecks, hkind, types]
  have hstack : (setterOf owner spec).maxStack = 4 := by
    simp [setterOf, hchecks, hkind, ValueKind.slots]
  have hlocals : (setterOf owner spec).maxLocals = 2 := by
    simp [setterOf, hkind, ValueKind.slots]
  have hframes : placedFrames (setterOf owner spec).body = [(14, types, types)] := by
    rw [hbody]
    rfl
  have hdeclared : (setterOf owner spec).declared = [(14, 2)] := by
    rw [MethodModel.declared, hframes]
    simp only [types, List.map_cons, List.map_nil, FrameType.slots_ofDescriptor, hkind]
    rfl
  have hlimits : (setterOf owner spec).limits ⟨[spec.descriptor], "V"⟩ =
      ⟨4, 2, none, [(0, 14)], [(14, 2)]⟩ := by
    rw [MethodModel.limits, hstack, hlocals, hdeclared, hbody]
    rfl
  exact {
    access := by simp [setterOf]; decide
    split := MethodDescriptor.split_ofSetter h.descriptor
    parameters := by
      rw [hlocals]
      simp [MethodDescriptor.parameterSum, hkind, ValueKind.slots]
    start := rfl
    flows := by
      rw [hlimits, hbody]
      -- one goal for each operation, at the offsets 0, 1, 2, 3, 6, 9, 10, 13, 14 and 17
      refine ⟨⟨0, 1, rfl, ?_⟩, ⟨0, 1, rfl, ?_⟩, ⟨1, 2, rfl, ?_⟩, ⟨1, 0, rfl, ?_⟩, ⟨0, 1, rfl, ?_⟩,
        ⟨1, 2, rfl, ?_⟩, ⟨1, 0, effect?_plainConstructor nullFailure, ?_⟩, ⟨1, 0, rfl, ?_⟩,
        ⟨2, 0, ?_⟩, ⟨0, 0, rfl, ?_⟩, trivial⟩
      · simp [Permits, ValueKind.slots]
      · simp [Permits, ValueKind.slots, size]
      · simp [Permits, size]
      · simp [Permits, size]
      · simp [Permits, size]
      · simp [Permits, size]
      · simp [Permits, size]
      · simp [Permits, size, ends]
      · simp [Permits, size, effect?, hkind, ValueKind.slots]
      · simp [Permits, size, ends]
    frames := by
      simp [hdeclared, hbody, operations, isMark, placed, size]
    fits := by simp [hframes, types] }

theorem Generates.flows {m : MethodModel} (h : Generates owner m) :
    ∃ d depths, m.Flows d depths ∧ (m.name = constructorName → d.result = "V") := by
  cases h with
  | constructor => exact ⟨_, _, flows_constructor, fun _ => rfl⟩
  | @getter spec hspec =>
    refine ⟨_, _, flows_getter hspec, fun hname => ?_⟩
    have hlist := congrArg (fun s => s.toList.head?) hname
    simp only [getterOf, Name.getter, String.toList_append] at hlist
    split at hlist
    · cases hlist
    · cases hlist
  | @setter spec hspec =>
    cases hchecks : spec.nullability.rejectsNull with
    | false => exact ⟨_, _, flows_setter_of_accepts hspec hchecks, fun _ => rfl⟩
    | true => exact ⟨_, _, flows_setter_of_rejects hspec hchecks, fun _ => rfl⟩

theorem Generates.access {m : MethodModel} (h : Generates owner m) :
    m.access = AccessFlag.isPublic.mask := by
  cases h <;> rfl

theorem Generates.isMethodSignature {m : MethodModel} (h : Generates owner m) {s : String}
    (hs : m.signature = some s) : Signature.isMethodSignature s.toList = true := by
  cases h with
  | constructor => cases hs
  | getter hspec =>
    obtain ⟨t, ht, rfl⟩ := Option.map_eq_some_iff.mp hs
    exact Signature.isMethodSignature_ofGetter (hspec.signature t ht)
  | setter hspec =>
    obtain ⟨t, ht, rfl⟩ := Option.map_eq_some_iff.mp hs
    exact Signature.isMethodSignature_ofSetter (hspec.signature t ht)

end Assembly

end BeanClass
