import BeanClass.Proofs.Lowering.Code

/-! # Lowered frames

The stack map of a lowered body has a full frame for each frame of the body, at the offset at which
the frame stands and with the types that it declares.
-/

namespace BeanClass.Lowering

open ConstantPool Instruction

variable {p q : ConstantPool}

theorem length_framesOf (body : List Instruction) :
    (framesOf body).length = (frameOffsets body).length := by
  induction body with
  | nil => rfl
  | cons instruction body ih =>
    rw [framesOf, List.filterMap_cons, frameOffsets_cons, List.length_append, List.length_map, ← ih]
    cases instruction with
    | frame locals stack => exact Nat.add_comm _ 1
    | _ => exact (Nat.zero_add _).symm

theorem offsets_placedFrames (body : List Instruction) :
    (placedFrames body).map Prod.fst = frameOffsets body := by
  have hoffsets : (placed 0 body).filterMap framed? = frameOffsets body := by
    simp [filterMap_framed]
  rw [placedFrames, hoffsets, List.map_fst_zip (length_framesOf body).ge]

theorem types_placedFrames (body : List Instruction) :
    (placedFrames body).map Prod.snd = framesOf body := by
  have hlength : (framesOf body).length ≤ ((placed 0 body).filterMap framed?).length := by
    rw [length_framesOf, filterMap_framed, List.length_map]
  rw [placedFrames, List.map_snd_zip hlength]

theorem mem_framesOf {body : List Instruction} {locals stack : List FrameType} :
    (locals, stack) ∈ framesOf body ↔ .frame locals stack ∈ body := by
  rw [framesOf, List.mem_filterMap]
  constructor
  · rintro ⟨instruction, hmem, heq⟩
    cases instruction with
    | frame => cases heq; exact hmem
    | _ => cases heq
  · intro hmem
    exact ⟨_, hmem, rfl⟩

/-- Where the frames of a body and their entries can be counted, so can those with offsets. -/
theorem placedFrames_fit {body : List Instruction} (hcount : (framesOf body).length ≤ 65535)
    (htypes : ∀ locals stack, .frame locals stack ∈ body →
      locals.length ≤ 65535 ∧ stack.length ≤ 65535) :
    (placedFrames body).length < 0x10000 ∧
      ∀ f ∈ placedFrames body, f.2.1.length < 0x10000 ∧ f.2.2.length < 0x10000 := by
  constructor
  · rw [← List.length_map Prod.snd, types_placedFrames]
    exact Nat.lt_succ_of_le hcount
  · intro f hf
    have hmem : f.2 ∈ framesOf body := types_placedFrames body ▸ List.mem_map_of_mem hf
    obtain ⟨hlocals, hstack⟩ := htypes f.2.1 f.2.2 (mem_framesOf.mp hmem)
    exact ⟨Nat.lt_succ_of_le hlocals, Nat.lt_succ_of_le hstack⟩

/-- A lowered body has a stack map exactly if it has frames. The map is read back, and it has full
frames at the offsets and with the types of those of the body, classes named through the pool. -/
theorem codeAttribute_stackMap {m : MethodModel} {a : RawAttribute} (hp : p.Reachable)
    (hcount : (framesOf m.body).length ≤ 65535)
    (htypes : ∀ locals stack, .frame locals stack ∈ m.body →
      locals.length ≤ 65535 ∧ stack.length ≤ 65535)
    (h : codeAttribute m p = .ok a q) :
    ∃ c, CodeAttribute.decode a.info = .ok c ∧
      ((∃ table ∈ c.attributes, table.name? q = some "StackMapTable") ↔
        ∃ locals stack, .frame locals stack ∈ m.body) ∧
      ∀ table ∈ c.attributes, table.name? q = some "StackMapTable" →
        ∃ t, StackMap.decode table.info = .ok t ∧ t.offsets = frameOffsets m.body ∧
          List.Forall₂ (FrameShows q) t.frames (framesOf m.body) := by
  obtain ⟨-, c, lines, hlowers⟩ := codeAttribute_ok hp.sound h
  obtain ⟨hlength, hfits⟩ := placedFrames_fit hcount htypes
  refine ⟨c, hlowers.decode, ?_⟩
  rcases hlowers.attributes.decode hlength hfits with ⟨hnone, hattributes⟩ |
    ⟨table, t, hsome, hattributes, hname, hdecode, hoffsets, hframes⟩
  · have hempty : framesOf m.body = [] := by rw [← types_placedFrames, hnone, List.map_nil]
    rw [hattributes]
    constructor
    · simp only [List.not_mem_nil, false_and, exists_false, false_iff]
      rintro ⟨locals, stack, hmem⟩
      rw [← mem_framesOf, hempty] at hmem
      cases hmem
    · exact nofun
  · rw [offsets_placedFrames] at hoffsets
    rw [types_placedFrames] at hframes
    rw [hattributes]
    constructor
    · refine iff_of_true ⟨table, List.mem_singleton_self table, hname⟩ ?_
      obtain ⟨f, hf⟩ := List.exists_mem_of_ne_nil _ hsome
      have hmem : f.2 ∈ framesOf m.body := types_placedFrames m.body ▸ List.mem_map_of_mem hf
      exact ⟨f.2.1, f.2.2, mem_framesOf.mp hmem⟩
    · intro other hother _
      rw [List.mem_singleton.mp hother]
      exact ⟨t, hdecode, hoffsets, hframes⟩

/-- A body with frames at two instructions that follow each other. -/
def twoTargets : MethodModel where
  access := 0
  name := "f"
  descriptor := "()V"
  signature := none
  maxStack := 1
  maxLocals := 2
  body := [.load .reference 0, .ifNonNull 1, .athrow, .label 1, .frame [.object "A"] [], .dup,
    .label 2, .frame [.object "A", .integer] [.long], .ret none]

theorem exists_codeAttribute_twoTargets : ∃ a q, codeAttribute twoTargets empty = .ok a q := by
  simp +decide [codeAttribute, twoTargets, Layout.ofBody, Layout.ofBodyFrom, emitAll, emit, bind,
    EStateM.bind, pure, EStateM.pure, addClass, addUtf8, add, push, empty, count,
    stackMapAttributes, framesOf, stackFrames, slotType, named, Opcode.loadOf, Layout.find?, size,
    List.lookup, Std.ExtHashMap.getElem?_insertIfNew, -getElem?_pos]

theorem codeAttribute_stackMap_twoTargets :
    (framesOf twoTargets.body).length ≤ 65535 ∧
      (∀ locals stack, .frame locals stack ∈ twoTargets.body →
        locals.length ≤ 65535 ∧ stack.length ≤ 65535) ∧
      ∃ a q, codeAttribute twoTargets empty = .ok a q ∧
        ∃ c, CodeAttribute.decode a.info = .ok c ∧
          ∃ table ∈ c.attributes, table.name? q = some "StackMapTable" ∧
            ∃ t, StackMap.decode table.info = .ok t ∧ t.offsets = [5, 6] ∧
              List.Forall₂ (FrameShows q) t.frames
                [([.object "A"], []), ([.object "A", .integer], [.long])] := by
  have hcount : (framesOf twoTargets.body).length ≤ 65535 := by decide
  have htypes : ∀ locals stack, .frame locals stack ∈ twoTargets.body →
      locals.length ≤ 65535 ∧ stack.length ≤ 65535 := by
    intro locals stack hmem
    simp only [twoTargets, List.mem_cons, Instruction.frame.injEq, reduceCtorEq, false_or,
      List.not_mem_nil, or_false] at hmem
    rcases hmem with ⟨rfl, rfl⟩ | ⟨rfl, rfl⟩ <;> decide
  obtain ⟨a, q, h⟩ := exists_codeAttribute_twoTargets
  obtain ⟨c, hdecode, hiff, htable⟩ := codeAttribute_stackMap ⟨[], rfl⟩ hcount htypes h
  obtain ⟨table, hmem, hname⟩ := hiff.mpr ⟨[.object "A"], [], by simp [twoTargets]⟩
  exact ⟨hcount, htypes, a, q, h, c, hdecode, table, hmem, hname, htable table hmem hname⟩

end BeanClass.Lowering
