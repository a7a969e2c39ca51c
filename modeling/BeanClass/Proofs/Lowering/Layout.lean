import Mathlib
import BeanClass.Lowering.Layout

/-! # Where instructions are laid out

The offset of an instruction is the size of what stands before it. A layout gives every label and
every frame of a body that offset, and no label stands twice.
-/

namespace BeanClass

namespace Instruction

/-- Labels and frames leave no bytes in a code array. -/
def isMark : Instruction → Bool
  | label _ | frame _ _ => true
  | _ => false

/-- The instructions that have bytes in the code array. -/
def operations (body : List Instruction) : List Instruction :=
  body.filter (!·.isMark)

/-- The size of the first `k` instructions. -/
def offsetAt (body : List Instruction) (k : Nat) : Nat :=
  ((body.take k).map size).sum

@[simp] theorem offsetAt_zero (body : List Instruction) : offsetAt body 0 = 0 := rfl

@[simp] theorem offsetAt_succ (instruction : Instruction) (body : List Instruction) (k : Nat) :
    offsetAt (instruction :: body) (k + 1) = instruction.size + offsetAt body k := by
  simp [offsetAt]

theorem offsetAt_le (body : List Instruction) (k : Nat) : offsetAt body k ≤ (body.map size).sum := by
  rw [offsetAt, List.map_take]
  exact (List.sum_take_add_sum_drop (body.map size) k).le.trans' (Nat.le_add_right _ _)

/-- The instructions of a body that starts at offset `pc`, each with its offset. -/
def placed (pc : Nat) : List Instruction → List (Nat × Instruction)
  | [] => []
  | instruction :: body => (pc, instruction) :: placed (pc + instruction.size) body

theorem getElem?_placed (pc : Nat) (body : List Instruction) (k : Nat) :
    (placed pc body)[k]? = body[k]?.map fun instruction => (pc + offsetAt body k, instruction) := by
  induction body generalizing pc k with
  | nil => rfl
  | cons instruction body ih =>
    cases k with
    | zero => rfl
    | succ k => simp [placed, ih, Nat.add_assoc]

theorem forall_mem_placed {body : List Instruction} {good : Nat → Instruction → Prop} :
    (∀ a ∈ placed 0 body, good a.1 a.2) ↔
      ∀ k instruction, body[k]? = some instruction → good (offsetAt body k) instruction := by
  constructor
  · intro h k instruction hk
    refine h (offsetAt body k, instruction) (List.mem_iff_getElem?.mpr ⟨k, ?_⟩)
    rw [getElem?_placed, hk, Option.map_some, Nat.zero_add]
  · intro h a ha
    obtain ⟨k, hk⟩ := List.mem_iff_getElem?.mp ha
    rw [getElem?_placed, Option.map_eq_some_iff] at hk
    obtain ⟨instruction, hk, rfl⟩ := hk
    rw [Nat.zero_add]
    exact h k instruction hk

/-- The label that an instruction at an offset declares, with that offset. -/
def declared? : Nat × Instruction → Option (UInt16 × Nat)
  | (pc, label name) => some (name, pc)
  | _ => none

/-- The offset of a frame. -/
def framed? : Nat × Instruction → Option Nat
  | (pc, frame _ _) => some pc
  | _ => none

def isFrame : Instruction → Bool
  | frame _ _ => true
  | _ => false

def isLabel : Instruction → Bool
  | label _ => true
  | _ => false

/-- The offsets at which the frames of a body stand, in order. -/
def frameOffsets (body : List Instruction) : List Nat :=
  (body.findIdxs isFrame).map (offsetAt body)

theorem frameOffsets_cons (instruction : Instruction) (body : List Instruction) :
    frameOffsets (instruction :: body) =
      (if instruction.isFrame then [0] else []) ++
        (frameOffsets body).map (instruction.size + ·) := by
  have htail : ((body.findIdxs isFrame).map (· + 1)).map (offsetAt (instruction :: body)) =
      (frameOffsets body).map (instruction.size + ·) := by
    rw [frameOffsets, List.map_map, List.map_map]
    exact List.map_congr_left fun k _ => offsetAt_succ instruction body k
  rw [frameOffsets, List.findIdxs_cons, List.findIdxs_start]
  split
  · rw [List.map_cons, htail]
    rfl
  · exact htail

theorem pairwise_frameOffsets (body : List Instruction) :
    (frameOffsets body).Pairwise (· ≤ ·) := by
  induction body with
  | nil => exact .nil
  | cons instruction body ih =>
    have htail : ((frameOffsets body).map (instruction.size + ·)).Pairwise (· ≤ ·) :=
      List.pairwise_map.mpr (ih.imp fun h => Nat.add_le_add_left h _)
    rw [frameOffsets_cons]
    split
    · exact List.pairwise_cons.mpr ⟨fun _ _ => Nat.zero_le _, htail⟩
    · exact htail

theorem le_of_mem_frameOffsets {body : List Instruction} {offset : Nat}
    (h : offset ∈ frameOffsets body) : offset ≤ (body.map size).sum := by
  obtain ⟨k, -, rfl⟩ := List.mem_map.mp h
  exact offsetAt_le body k

theorem filterMap_framed (pc : Nat) (body : List Instruction) :
    (placed pc body).filterMap framed? = (frameOffsets body).map (pc + ·) := by
  induction body generalizing pc with
  | nil => rfl
  | cons instruction body ih =>
    rw [placed, List.filterMap_cons, ih, frameOffsets_cons, List.map_append, List.map_map]
    have htail : (frameOffsets body).map (pc + instruction.size + ·) =
        (frameOffsets body).map ((pc + ·) ∘ (instruction.size + ·)) :=
      List.map_congr_left fun offset _ => Nat.add_assoc pc instruction.size offset
    cases instruction <;> simp only [framed?, isFrame, htail] <;> rfl

theorem mem_declared {body : List Instruction} {name : UInt16} {offset : Nat} :
    (name, offset) ∈ (placed 0 body).filterMap declared? ↔
      ∃ k, body[k]? = some (label name) ∧ offset = offsetAt body k := by
  rw [List.mem_filterMap]
  constructor
  · rintro ⟨a, ha, hdeclared⟩
    obtain ⟨k, hk⟩ := List.mem_iff_getElem?.mp ha
    rw [getElem?_placed, Option.map_eq_some_iff] at hk
    obtain ⟨instruction, hk, rfl⟩ := hk
    cases instruction with
    | label =>
      simp only [declared?, Option.some_inj, Prod.mk.injEq, Nat.zero_add] at hdeclared
      exact ⟨k, by rw [hk, hdeclared.1], hdeclared.2.symm⟩
    | _ => cases hdeclared
  · rintro ⟨k, hk, rfl⟩
    refine ⟨(offsetAt body k, label name), List.mem_iff_getElem?.mpr ⟨k, ?_⟩, rfl⟩
    rw [getElem?_placed, hk, Option.map_some, Nat.zero_add]

/-- The labels that a body declares, in order. -/
def labelsOf (body : List Instruction) : List UInt16 :=
  body.filterMap fun
    | label name => some name
    | _ => none

theorem mem_labelsOf {body : List Instruction} {name : UInt16} :
    name ∈ labelsOf body ↔ label name ∈ body := by
  rw [labelsOf, List.mem_filterMap]
  constructor
  · rintro ⟨instruction, hmem, heq⟩
    cases instruction with
    | label => cases heq; exact hmem
    | _ => cases heq
  · intro hmem
    exact ⟨_, hmem, rfl⟩

end Instruction

namespace Layout

open Instruction

/-- Every frame stands right behind a label. In front of the body there is a label if `atLabel`
holds. -/
def FramesFollow (atLabel : Bool) (body : List Instruction) : Prop :=
  ∀ k locals stack, body[k]? = some (.frame locals stack) →
    (k = 0 ∧ atLabel = true) ∨ ∃ j name, k = j + 1 ∧ body[j]? = some (.label name)

theorem framesFollow_cons {atLabel : Bool} {instruction : Instruction} {body : List Instruction} :
    FramesFollow atLabel (instruction :: body) ↔
      (instruction.isFrame = true → atLabel = true) ∧ FramesFollow instruction.isLabel body := by
  constructor
  · intro h
    constructor
    · intro hframe
      cases instruction with
      | frame locals stack =>
        rcases h 0 locals stack rfl with ⟨-, h⟩ | ⟨j, name, hj, -⟩
        · exact h
        · cases hj
      | _ => cases hframe
    · intro k locals stack hk
      rcases h (k + 1) locals stack hk with ⟨hzero, -⟩ | ⟨j, name, hj, hlabel⟩
      · cases hzero
      · cases hj
        cases k with
        | zero => cases hlabel; exact Or.inl ⟨rfl, rfl⟩
        | succ j => exact Or.inr ⟨j, name, rfl, hlabel⟩
  · rintro ⟨hhead, htail⟩ k locals stack hk
    cases k with
    | zero => cases hk; exact Or.inl ⟨rfl, hhead rfl⟩
    | succ k =>
      right
      rcases htail k locals stack hk with ⟨rfl, hlabel⟩ | ⟨j, name, rfl, hj⟩
      · cases instruction with
        | label name => exact ⟨0, name, rfl, rfl⟩
        | _ => cases hlabel
      · exact ⟨j + 1, name, rfl, hj⟩

theorem isSome_lookup_iff {labels : List (UInt16 × Nat)} {name : UInt16} :
    (labels.lookup name).isSome ↔ name ∈ labels.map Prod.fst := by
  rw [List.lookup_isSome_iff, List.mem_map]
  constructor
  · rintro ⟨entry, hentry, heq⟩
    exact ⟨entry, hentry, (beq_iff_eq.mp heq).symm⟩
  · rintro ⟨entry, hentry, rfl⟩
    exact ⟨entry, hentry, beq_self_eq_true _⟩

/-- When the rest of a body can be laid out behind labels that were found before. -/
theorem exists_ofBodyFrom_iff (method : String) (pc : Nat) (atLabel : Bool)
    (labels : List (UInt16 × Nat)) (frames : List Nat) (body : List Instruction) :
    (∃ layout, ofBodyFrom method pc atLabel labels frames body = .ok layout) ↔
      (labelsOf body).Nodup ∧ (∀ name ∈ labelsOf body, name ∉ labels.map Prod.fst) ∧
        FramesFollow atLabel body := by
  fun_induction ofBodyFrom method pc atLabel labels frames body with
  | case1 => simp [labelsOf, FramesFollow]
  | case2 pc atLabel labels frames body label hold =>
    refine iff_of_false nofun ?_
    rintro ⟨-, hfresh, -⟩
    exact hfresh label (mem_labelsOf.mpr List.mem_cons_self) (isSome_lookup_iff.mp hold)
  | case3 pc atLabel labels frames body label hnew ih =>
    have hlabels : labelsOf (.label label :: body) = label :: labelsOf body := rfl
    rw [isSome_lookup_iff] at hnew
    rw [ih, framesFollow_cons, hlabels, List.nodup_cons, List.forall_mem_cons, List.map_cons]
    simp only [isLabel, isFrame, List.mem_cons, not_or]
    constructor
    · rintro ⟨hnodup, hfresh, hframes⟩
      exact ⟨⟨fun hmem => (hfresh label hmem).1 rfl, hnodup⟩,
        ⟨hnew, fun name hname => (hfresh name hname).2⟩, nofun, hframes⟩
    · rintro ⟨⟨hne, hnodup⟩, ⟨-, hfresh⟩, -, hframes⟩
      exact ⟨hnodup, fun name hname => ⟨fun heq => hne (heq ▸ hname), hfresh name hname⟩, hframes⟩
  | case4 pc labels frames body locals stack ih =>
    have hlabels : labelsOf (.frame locals stack :: body) = labelsOf body := rfl
    rw [ih, framesFollow_cons, hlabels]
    simp only [isLabel, isFrame, forall_const, true_and]
  | case5 pc atLabel labels frames body locals stack hlabel =>
    refine iff_of_false nofun ?_
    rintro ⟨-, -, hframes⟩
    exact hlabel ((framesFollow_cons.mp hframes).1 rfl)
  | case6 pc atLabel labels frames body instruction hlabel hframe ih =>
    have hlabels : labelsOf (instruction :: body) = labelsOf body := by
      cases instruction <;> first | rfl | exact absurd rfl (hlabel _)
    have hisLabel : instruction.isLabel = false := by
      cases instruction <;> first | rfl | exact absurd rfl (hlabel _)
    have hisFrame : instruction.isFrame = false := by
      cases instruction <;> first | rfl | exact absurd rfl (hframe _ _)
    rw [ih, framesFollow_cons, hlabels, hisLabel, hisFrame]
    simp only [Bool.false_eq_true, false_implies, true_and]

theorem exists_ofBody_iff {method : String} {body : List Instruction} :
    (∃ layout, ofBody method body = .ok layout) ↔
      (labelsOf body).Nodup ∧ FramesFollow false body := by
  rw [ofBody, exists_ofBodyFrom_iff]
  simp only [List.map_nil, List.not_mem_nil, not_false_eq_true, implies_true, true_and]

/-- What laying out a body adds to the labels and frames found before, which stand in reverse. -/
theorem ofBodyFrom_eq_ok {method : String} {pc : Nat} {atLabel : Bool} {labels : List (UInt16 × Nat)}
    {frames : List Nat} {body : List Instruction} {layout : Layout}
    (h : ofBodyFrom method pc atLabel labels frames body = .ok layout)
    (hnodup : (labels.map Prod.fst).Nodup) :
    layout.labels = labels.reverse ++ (placed pc body).filterMap declared? ∧
      layout.frames = frames.reverse ++ (placed pc body).filterMap framed? ∧
      (layout.labels.map Prod.fst).Nodup := by
  fun_induction ofBodyFrom method pc atLabel labels frames body with
  | case1 pc atLabel labels frames =>
    cases h
    simpa [placed] using hnodup
  | case2 => cases h
  | case3 pc atLabel labels frames body label hnew ih =>
    rw [isSome_lookup_iff] at hnew
    obtain ⟨hlabels, hframes, hkeys⟩ := ih h (List.nodup_cons.mpr ⟨hnew, hnodup⟩)
    refine ⟨?_, ?_, hkeys⟩
    · simpa [placed, List.filterMap_cons, declared?, size] using hlabels
    · simpa [placed, List.filterMap_cons, framed?, size] using hframes
  | case4 pc labels frames body locals stack ih =>
    obtain ⟨hlabels, hframes, hkeys⟩ := ih h hnodup
    refine ⟨?_, ?_, hkeys⟩
    · simpa [placed, List.filterMap_cons, declared?, size] using hlabels
    · simpa [placed, List.filterMap_cons, framed?, size] using hframes
  | case5 => cases h
  | case6 pc atLabel labels frames body instruction hlabel hframe ih =>
    obtain ⟨hlabels, hframes, hkeys⟩ := ih h hnodup
    have hdeclared : declared? (pc, instruction) = none := by
      cases instruction <;> first | rfl | exact absurd rfl (hlabel _)
    have hframed : framed? (pc, instruction) = none := by
      cases instruction <;> first | rfl | exact absurd rfl (hframe _ _)
    refine ⟨?_, ?_, hkeys⟩
    · simpa [placed, List.filterMap_cons, hdeclared] using hlabels
    · simpa [placed, List.filterMap_cons, hframed] using hframes

theorem ofBody_eq_ok {method : String} {body : List Instruction} {layout : Layout}
    (h : ofBody method body = .ok layout) :
    layout.labels = (placed 0 body).filterMap declared? ∧
      layout.frames = (placed 0 body).filterMap framed? ∧
      (layout.labels.map Prod.fst).Nodup := by
  simpa using ofBodyFrom_eq_ok h List.nodup_nil

theorem lookup_eq_some_of_mem {labels : List (UInt16 × Nat)} {name : UInt16} {offset : Nat}
    (hnodup : (labels.map Prod.fst).Nodup) (h : (name, offset) ∈ labels) :
    labels.lookup name = some offset := by
  induction labels with
  | nil => cases h
  | cons entry labels ih =>
    rw [List.map_cons, List.nodup_cons] at hnodup
    rcases List.mem_cons.mp h with rfl | h
    · simp
    · have hne : name ≠ entry.1 := by
        rintro rfl
        exact hnodup.1 (List.mem_map.mpr ⟨_, h, rfl⟩)
      rw [List.lookup_cons, beq_eq_false_iff_ne.mpr hne]
      exact ih hnodup.2 h

/-- A label is found exactly at the offsets where the body declares it. -/
theorem find?_eq_some {method : String} {body : List Instruction} {layout : Layout}
    (h : ofBody method body = .ok layout) {name : UInt16} {offset : Nat} :
    layout.find? name = some offset ↔
      ∃ k, body[k]? = some (.label name) ∧ offset = offsetAt body k := by
  obtain ⟨hlabels, -, hnodup⟩ := ofBody_eq_ok h
  rw [← mem_declared, ← hlabels, find?]
  constructor
  · intro hfind
    obtain ⟨before, after, heq, -⟩ := List.lookup_eq_some_iff.mp hfind
    rw [heq]
    exact List.mem_append_right _ List.mem_cons_self
  · exact lookup_eq_some_of_mem hnodup

end Layout

end BeanClass
