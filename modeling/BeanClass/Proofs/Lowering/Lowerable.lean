import BeanClass.Proofs.Lowering.Frames
import BeanClass.Proofs.Pool.Success

/-! # Bodies that can be lowered

A body is lowered exactly if its labels, frames, slots and distances are as the class file format
can state them, the pool takes its constants and the attributes do not grow too large.
-/

namespace BeanClass

open ConstantPool

namespace FrameType

/-- The calls that lower an entry of a frame. -/
def calls : FrameType → List Call
  | .object name => [.addClass name]
  | _ => []

/-- The bytes of the entry in a stack map. -/
def entrySize : FrameType → Nat
  | .object _ => 3
  | _ => 1

end FrameType

/-- The calls that lower an instruction. -/
def Instruction.calls : Instruction → List Call
  | .getField field | .putField field => [.addFieldRef field]
  | .new className => [.addClass className]
  | .invokeSpecial target => [.addMethodRef target]
  | _ => []

namespace Lowering

open Instruction

variable {p q : ConstantPool}

def frameCalls (types : List FrameType × List FrameType) : List Call :=
  types.1.flatMap FrameType.calls ++ types.2.flatMap FrameType.calls

def mapCalls (frames : List (List FrameType × List FrameType)) : List Call :=
  if frames.isEmpty then [] else frames.flatMap frameCalls ++ [.addUtf8 "StackMapTable"]

/-- The calls that lower a body, in order. -/
def constants (body : List Instruction) : List Call :=
  body.flatMap Instruction.calls ++ (mapCalls (framesOf body) ++ [.addUtf8 "Code"])

def frameSize (types : List FrameType × List FrameType) : Nat :=
  7 + (types.1.map FrameType.entrySize).sum + (types.2.map FrameType.entrySize).sum

/-- The bytes in the payload of a stack map. -/
def stackMapSize (frames : List (List FrameType × List FrameType)) : Nat :=
  2 + (frames.map frameSize).sum

/-- The bytes in the payload of the `Code` attribute of a body. -/
def codeSize (body : List Instruction) : Nat :=
  12 + (body.map size).sum +
    if (framesOf body).isEmpty then 0 else 6 + stackMapSize (framesOf body)

/-- The instruction at offset `pc` has a short slot and a label in reach. -/
def Allows (layout : Layout) (pc : Nat) : Instruction → Prop
  | .load _ slot => slot ≤ 255
  | .ifNonNull name => ∃ target, layout.find? name = some target ∧
    -32768 ≤ (target : Int) - pc ∧ (target : Int) - pc ≤ 32767
  | _ => True

theorem succeedsIff_emit (method : String) (layout : Layout) (pc : Nat)
    (instruction : Instruction) :
    SucceedsIff (emit method layout pc instruction) (Allows layout pc instruction)
      instruction.calls := by
  cases instruction with
  | load kind slot =>
    rw [emit]
    refine succeedsIff_guard (succeedsIff_pure _) ?_
    rw [and_true, UInt16.not_lt]
    rfl
  | getField field | putField field => exact (Call.succeedsIff (.addFieldRef field)).map _
  | new className => exact (Call.succeedsIff (.addClass className)).map _
  | invokeSpecial target => exact (Call.succeedsIff (.addMethodRef target)).map _
  | ifNonNull name =>
    cases hfind : layout.find? name with
    | none =>
      simp only [emit, hfind]
      refine succeedsIff_throw ?_
      rintro ⟨target, htarget, -⟩
      rw [hfind] at htarget
      cases htarget
    | some target =>
      simp only [emit, hfind]
      refine succeedsIff_guard (succeedsIff_pure _) ?_
      simp only [Allows, hfind, Option.some_inj, exists_eq_left', and_true, not_or, Int.not_lt]
  | _ => exact succeedsIff_pure _

theorem length_emit {method : String} {layout : Layout} {pc : Nat} {instruction : Instruction}
    {bytes : List UInt8} (h : emit method layout pc instruction p = .ok bytes q) :
    bytes.length = instruction.size := by
  cases instruction with
  | load kind slot =>
    simp only [emit] at h
    split at h
    · cases h
    · obtain ⟨rfl, rfl⟩ := pure_eq_ok.mp h
      obtain ⟨hlength, hsize⟩ := length_loadOf kind slot
      rw [List.length_cons, hlength, Nat.add_comm, hsize]
  | getField | putField | new | invokeSpecial =>
    obtain ⟨index, r, -, h⟩ := bind_eq_ok.mp h
    obtain ⟨rfl, rfl⟩ := pure_eq_ok.mp h
    rfl
  | ifNonNull name =>
    cases hfind : layout.find? name with
    | none => simp only [emit, hfind] at h; cases h
    | some target =>
      simp only [emit, hfind] at h
      split at h
      · cases h
      · obtain ⟨rfl, rfl⟩ := pure_eq_ok.mp h
        rfl
  | _ =>
    obtain ⟨rfl, rfl⟩ := pure_eq_ok.mp h
    rfl

theorem emitAll_cons (method : String) (layout : Layout) (pc : Nat) (emitted : List (List UInt8))
    (instruction : Instruction) (body : List Instruction) :
    emitAll method layout pc emitted (instruction :: body) =
      emit method layout pc instruction >>= fun bytes =>
        emitAll method layout (pc + bytes.length) (bytes :: emitted) body := by
  funext p
  change _ = EStateM.bind _ _ p
  rw [emitAll, EStateM.bind]
  cases emit method layout pc instruction p <;> rfl

theorem succeedsIff_emitAll (method : String) (layout : Layout) (pc : Nat)
    (emitted : List (List UInt8)) (body : List Instruction) :
    SucceedsIff (emitAll method layout pc emitted body)
      (∀ a ∈ placed pc body, Allows layout a.1 a.2) (body.flatMap Instruction.calls) := by
  induction body generalizing pc emitted with
  | nil => exact (succeedsIff_pure emitted.reverse.flatten).congr (by simp [placed])
  | cons instruction body ih =>
    rw [emitAll_cons, placed, List.flatMap_cons, List.forall_mem_cons]
    refine (succeedsIff_emit method layout pc instruction).bind fun hbytes => ?_
    rw [← length_emit hbytes]
    exact ih _ _

theorem length_emitAll {method : String} {layout : Layout} {pc : Nat}
    {emitted : List (List UInt8)} {body : List Instruction} {code : List UInt8}
    (h : emitAll method layout pc emitted body p = .ok code q) :
    code.length = (emitted.map List.length).sum + (body.map size).sum := by
  induction body generalizing pc emitted p with
  | nil =>
    cases h
    simp [List.length_flatten]
  | cons instruction body ih =>
    rw [emitAll_cons] at h
    obtain ⟨bytes, r, hbytes, h⟩ := bind_eq_ok.mp h
    rw [ih h, List.map_cons, List.map_cons, List.sum_cons, List.sum_cons, length_emit hbytes]
    omega

theorem succeedsIff_slotType (type : FrameType) : SucceedsIff (slotType type) True type.calls := by
  cases type with
  | object name => exact (Call.succeedsIff (.addClass name)).map _
  | _ => exact succeedsIff_pure _

theorem succeedsIff_slotTypes (types : List FrameType) :
    SucceedsIff (types.mapM slotType) True (types.flatMap FrameType.calls) :=
  (SucceedsIff.mapM succeedsIff_slotType types).congr (iff_of_true (fun _ _ => trivial) trivial)

theorem length_slotType {type : FrameType} {slot : SlotType} (h : slotType type p = .ok slot q) :
    slot.encode.length = type.entrySize := by
  cases type with
  | object name =>
    obtain ⟨index, r, -, h⟩ := bind_eq_ok.mp h
    obtain ⟨rfl, rfl⟩ := pure_eq_ok.mp h
    rfl
  | _ =>
    obtain ⟨rfl, rfl⟩ := pure_eq_ok.mp h
    rfl

theorem length_slotTypes {types : List FrameType} {slots : List SlotType}
    (h : types.mapM slotType p = .ok slots q) :
    (StackFrame.encodeTypes slots).length = (types.map FrameType.entrySize).sum := by
  rw [StackFrame.encodeTypes, List.length_flatMap]
  refine congrArg List.sum (map_eq_map_of_related (forall₂_of_mapM h) ?_).symm
  rintro type slot ⟨p, q, hslot⟩
  exact (length_slotType hslot).symm

/-- Offsets from `least` on, one behind another and at distances of 16 bits. -/
def Spaced : (least : Nat) → List Nat → Prop
  | _, [] => True
  | least, offset :: offsets =>
    (least ≤ offset ∧ offset - least ≤ 65535) ∧ Spaced (offset + 1) offsets

/-- Where the code is short enough for all distances, equal offsets are all that can go wrong. -/
theorem spaced_iff {least : Nat} {offsets : List Nat} (h : ∀ offset ∈ offsets, offset ≤ 65535) :
    Spaced least offsets ↔
      (∀ offset ∈ offsets, least ≤ offset) ∧ offsets.Pairwise (· < ·) := by
  induction offsets generalizing least with
  | nil => simp [Spaced]
  | cons offset offsets ih =>
    obtain ⟨hoffset, hoffsets⟩ := List.forall_mem_cons.mp h
    rw [Spaced, ih hoffsets, List.forall_mem_cons, List.pairwise_cons]
    constructor
    · rintro ⟨⟨hleast, -⟩, hbehind, hpairwise⟩
      refine ⟨⟨hleast, fun other hother => ?_⟩, hbehind, hpairwise⟩
      exact (hleast.trans (Nat.le_succ offset)).trans (hbehind other hother)
    · rintro ⟨⟨hleast, -⟩, hbehind, hpairwise⟩
      exact ⟨⟨hleast, by omega⟩, hbehind, hpairwise⟩

theorem spaced_frameOffsets {body : List Instruction} (h : (body.map size).sum ≤ 65535) :
    Spaced 0 (frameOffsets body) ↔ (frameOffsets body).Nodup := by
  rw [spaced_iff fun offset hoffset => (le_of_mem_frameOffsets hoffset).trans h]
  constructor
  · rintro ⟨-, hlt⟩
    exact hlt.imp Nat.ne_of_lt
  · intro hnodup
    exact ⟨fun _ _ => Nat.zero_le _,
      ((pairwise_frameOffsets body).and hnodup).imp fun h => Nat.lt_of_le_of_ne h.1 h.2⟩

/-- Of two labels in a row only one can have a frame. -/
example : ¬(frameOffsets [.dup, .label 1, .frame [] [], .label 2, .frame [] []]).Nodup := by
  decide

theorem succeedsIff_stackFrames (method : String) (least : Nat)
    (frames : List (Nat × List FrameType × List FrameType)) :
    SucceedsIff (stackFrames method least frames) (Spaced least (frames.map Prod.fst))
      ((frames.map Prod.snd).flatMap frameCalls) := by
  induction frames generalizing least with
  | nil => exact succeedsIff_pure []
  | cons frame frames ih =>
    obtain ⟨offset, locals, stack⟩ := frame
    have hrest := (succeedsIff_slotTypes locals).bind fun {_ l _} _ =>
      (succeedsIff_slotTypes stack).bind fun {_ s _} _ =>
        (ih (offset + 1)).map (StackFrame.full (UInt16.ofNat (offset - least)) l s :: ·)
    rw [List.map_cons, List.map_cons, List.flatMap_cons, frameCalls, List.append_assoc, stackFrames]
    refine succeedsIff_guard hrest ?_
    rw [Spaced, true_and, true_and, not_or, Nat.not_lt, Nat.not_lt]

theorem length_stackFrames {method : String} {least : Nat}
    {frames : List (Nat × List FrameType × List FrameType)} {found : List StackFrame}
    (h : stackFrames method least frames p = .ok found q) :
    (found.flatMap StackFrame.encode).length = ((frames.map Prod.snd).map frameSize).sum := by
  induction frames generalizing least found p with
  | nil =>
    obtain ⟨rfl, rfl⟩ := pure_eq_ok.mp h
    rfl
  | cons frame frames ih =>
    obtain ⟨offset, locals, stack⟩ := frame
    simp only [stackFrames] at h
    split at h
    · cases h
    · obtain ⟨slots, r, hlocals, h⟩ := bind_eq_ok.mp h
      obtain ⟨operands, s, hstack, h⟩ := bind_eq_ok.mp h
      obtain ⟨rest, t, hrest, h⟩ := bind_eq_ok.mp h
      obtain ⟨rfl, rfl⟩ := pure_eq_ok.mp h
      have hhead : (StackFrame.encode (.full (UInt16.ofNat (offset - least)) slots operands)).length
          = frameSize (locals, stack) := by
        rw [frameSize, ← length_slotTypes hlocals, ← length_slotTypes hstack]
        simp only [StackFrame.encode, List.length_append, List.length_cons, length_be16,
          length_count16]
        omega
      rw [List.flatMap_cons, List.length_append, hhead, ih hrest]
      rfl

theorem succeedsIff_named (name : String) (info : List UInt8) :
    SucceedsIff (named name info) (info.length < 0x100000000) [.addUtf8 name] := by
  unfold named
  refine succeedsIff_guard ((Call.succeedsIff (.addUtf8 name)).map (RawAttribute.mk · info)) ?_
  rw [and_true, Nat.not_le]

theorem info_named {name : String} {info : List UInt8} {a : RawAttribute}
    (h : named name info p = .ok a q) : a.info = info := by
  unfold named at h
  split at h
  · cases h
  · obtain ⟨index, r, -, h⟩ := bind_eq_ok.mp h
    obtain ⟨rfl, rfl⟩ := pure_eq_ok.mp h
    rfl

theorem length_encode_stackMap {method : String}
    {frames : List (Nat × List FrameType × List FrameType)} {found : List StackFrame}
    (h : stackFrames method 0 frames p = .ok found q) :
    (StackMap.mk found).encode.length = stackMapSize (frames.map Prod.snd) := by
  rw [StackMap.encode, List.length_append, length_stackFrames h]
  rfl

theorem succeedsIff_stackMapAttributes (method : String)
    (frames : List (Nat × List FrameType × List FrameType)) :
    SucceedsIff (stackMapAttributes method frames)
      (Spaced 0 (frames.map Prod.fst) ∧ stackMapSize (frames.map Prod.snd) < 0x100000000)
      (mapCalls (frames.map Prod.snd)) := by
  cases frames with
  | nil => exact (succeedsIff_pure []).congr (iff_of_true trivial ⟨trivial, by decide⟩)
  | cons frame frames =>
    refine (succeedsIff_stackFrames method 0 (frame :: frames)).bind fun hfound => ?_
    rw [← length_encode_stackMap hfound]
    exact (succeedsIff_named "StackMapTable" _).map ([·])

theorem length_stackMapAttributes {method : String}
    {frames : List (Nat × List FrameType × List FrameType)} {attributes : List RawAttribute}
    (h : stackMapAttributes method frames p = .ok attributes q) :
    (RawAttribute.encodeAll attributes).length =
      2 + if (frames.map Prod.snd).isEmpty then 0 else 6 + stackMapSize (frames.map Prod.snd) := by
  cases frames with
  | nil =>
    obtain ⟨rfl, rfl⟩ := pure_eq_ok.mp h
    rfl
  | cons frame frames =>
    obtain ⟨found, r, hfound, h⟩ := bind_eq_ok.mp h
    obtain ⟨table, s, htable, h⟩ := bind_eq_ok.mp h
    obtain ⟨rfl, rfl⟩ := pure_eq_ok.mp h
    rw [← length_encode_stackMap hfound, ← info_named htable]
    simp only [RawAttribute.encodeAll, List.flatMap_singleton, RawAttribute.encode,
      List.length_append]
    rfl

/-- Every branch goes over a distance of 16 bits. -/
def InReach (body : List Instruction) : Prop :=
  ∀ i j name, body[i]? = some (.ifNonNull name) → body[j]? = some (.label name) →
    -32768 ≤ (offsetAt body j : Int) - offsetAt body i ∧
      (offsetAt body j : Int) - offsetAt body i ≤ 32767

/-- A body that the class file format can state. -/
structure Lowerable (body : List Instruction) : Prop where
  labels : (labelsOf body).Nodup
  targets : ∀ name, .ifNonNull name ∈ body → .label name ∈ body
  frames : ∀ k locals stack, body[k]? = some (.frame locals stack) →
    ∃ j name, k = j + 1 ∧ body[j]? = some (.label name)
  apart : (frameOffsets body).Nodup
  slots : ∀ kind slot, .load kind slot ∈ body → slot ≤ 255
  reach : InReach body
  size_le : (body.map size).sum ≤ 65535

theorem forall_allows_iff {method : String} {body : List Instruction} {layout : Layout}
    (h : Layout.ofBody method body = .ok layout) :
    (∀ a ∈ placed 0 body, Allows layout a.1 a.2) ↔
      (∀ kind slot, .load kind slot ∈ body → slot ≤ 255) ∧
      (∀ name, .ifNonNull name ∈ body → .label name ∈ body) ∧ InReach body := by
  rw [forall_mem_placed]
  constructor
  · intro hallows
    refine ⟨fun kind slot hmem => ?_, fun name hmem => ?_, fun i j name hi hj => ?_⟩
    · obtain ⟨k, hk⟩ := List.mem_iff_getElem?.mp hmem
      exact hallows k _ hk
    · obtain ⟨k, hk⟩ := List.mem_iff_getElem?.mp hmem
      obtain ⟨target, hfind, -⟩ := hallows k _ hk
      obtain ⟨j, hj, -⟩ := (Layout.find?_eq_some h).mp hfind
      exact List.mem_of_getElem? hj
    · obtain ⟨target, hfind, hdistance⟩ := hallows i _ hi
      rw [(Layout.find?_eq_some h).mpr ⟨j, hj, rfl⟩, Option.some_inj] at hfind
      rwa [hfind]
  · rintro ⟨hslots, htargets, hreach⟩ k instruction hk
    cases instruction with
    | load kind slot => exact hslots kind slot (List.mem_of_getElem? hk)
    | ifNonNull name =>
      obtain ⟨j, hj⟩ := List.mem_iff_getElem?.mp (htargets name (List.mem_of_getElem? hk))
      exact ⟨offsetAt body j, (Layout.find?_eq_some h).mpr ⟨j, hj, rfl⟩, hreach k j name hk hj⟩
    | _ => trivial

theorem lowerable_iff {method : String} {body : List Instruction} {layout : Layout}
    (h : Layout.ofBody method body = .ok layout) :
    Lowerable body ↔ (∀ a ∈ placed 0 body, Allows layout a.1 a.2) ∧
      (body.map size).sum ≤ 65535 ∧ Spaced 0 (frameOffsets body) := by
  obtain ⟨hlabels, hframes⟩ := Layout.exists_ofBody_iff.mp ⟨layout, h⟩
  rw [forall_allows_iff h]
  constructor
  · intro hbody
    exact ⟨⟨hbody.slots, hbody.targets, hbody.reach⟩, hbody.size_le,
      (spaced_frameOffsets hbody.size_le).mpr hbody.apart⟩
  · rintro ⟨⟨hslots, htargets, hreach⟩, hsize, hspaced⟩
    exact {
      labels := hlabels
      targets := htargets
      frames := fun k locals stack hk => (hframes k locals stack hk).resolve_left nofun
      apart := (spaced_frameOffsets hsize).mp hspaced
      slots := hslots
      reach := hreach
      size_le := hsize }

theorem Lowerable.exists_layout {body : List Instruction} (h : Lowerable body) (method : String) :
    ∃ layout, Layout.ofBody method body = .ok layout :=
  Layout.exists_ofBody_iff.mpr
    ⟨h.labels, fun k locals stack hk => Or.inr (h.frames k locals stack hk)⟩

theorem length_encode_codeAttribute (m : MethodModel) {code : List UInt8}
    {attributes : List RawAttribute} (hcode : code.length = (m.body.map size).sum)
    (hattributes : (RawAttribute.encodeAll attributes).length =
      2 + if ((placedFrames m.body).map Prod.snd).isEmpty then 0
        else 6 + stackMapSize ((placedFrames m.body).map Prod.snd)) :
    (CodeAttribute.mk m.maxStack m.maxLocals code [] attributes).encode.length =
      codeSize m.body := by
  rw [types_placedFrames] at hattributes
  rw [codeSize, ← hcode, CodeAttribute.encode]
  simp only [List.length_append, hattributes, List.flatMap_nil, List.length_nil, length_be16,
    length_count16, length_count32]
  omega

/-- A stack map fits where the attribute around it does. -/
theorem stackMapSize_le_codeSize (body : List Instruction) :
    stackMapSize (framesOf body) ≤ codeSize body := by
  unfold codeSize
  split
  · rename_i hempty
    rw [List.isEmpty_iff.mp hempty]
    exact (by decide : 2 ≤ 12).trans (Nat.le_add_right 12 _)
  · omega

theorem succeedsIff_codeAttribute (m : MethodModel) :
    SucceedsIff (codeAttribute m) (Lowerable m.body ∧ codeSize m.body < 0x100000000)
      (constants m.body) := by
  cases hlayout : Layout.ofBody m.name m.body with
  | error e =>
    simp only [codeAttribute, hlayout]
    refine succeedsIff_throw ?_
    rintro ⟨hbody, -⟩
    obtain ⟨layout, hok⟩ := hbody.exists_layout m.name
    rw [hlayout] at hok
    cases hok
  | ok layout =>
    have hframes : layout.frames.zip (framesOf m.body) = placedFrames m.body := by
      rw [(Layout.ofBody_eq_ok hlayout).2.1, placedFrames]
    simp only [codeAttribute, hlayout, hframes]
    have hmap := succeedsIff_stackMapAttributes m.name (placedFrames m.body)
    rw [offsets_placedFrames, types_placedFrames] at hmap
    refine SucceedsIff.congr ((succeedsIff_emitAll m.name layout 0 [] m.body).bind fun hcode =>
      (?_ : SucceedsIff _ ((m.body.map size).sum ≤ 65535 ∧ (Spaced 0 (frameOffsets m.body) ∧
        stackMapSize (framesOf m.body) < 0x100000000) ∧ codeSize m.body < 0x100000000) _)) ?_
    · have hlength := (length_emitAll hcode).trans (zero_add _)
      rw [← hlength]
      refine succeedsIff_guard (hmap.bind fun hattributes => ?_) (and_congr_left' Nat.not_lt)
      rw [← length_encode_codeAttribute m hlength (length_stackMapAttributes hattributes)]
      exact succeedsIff_named "Code" _
    · rw [lowerable_iff hlayout]
      have hle := stackMapSize_le_codeSize m.body
      constructor
      · rintro ⟨hallows, hsize, ⟨hspaced, -⟩, hcode⟩
        exact ⟨⟨hallows, hsize, hspaced⟩, hcode⟩
      · rintro ⟨⟨hallows, hsize, hspaced⟩, hcode⟩
        exact ⟨hallows, hsize, ⟨hspaced, Nat.lt_of_le_of_lt hle hcode⟩, hcode⟩

/-- A method is lowered exactly if the class file format can state its body, the pool takes what
the body refers to and the attribute is not too large. -/
theorem exists_codeAttribute_iff {m : MethodModel} :
    (∃ a q, codeAttribute m p = .ok a q) ↔
      Lowerable m.body ∧ (∃ q, Adds (constants m.body) p q) ∧ codeSize m.body < 0x100000000 := by
  rw [exists_comm]
  simp only [succeedsIff_codeAttribute m p, exists_and_left, and_assoc]
  rw [and_comm (a := codeSize m.body < 0x100000000)]

end Lowering

end BeanClass
