import BeanClass.Lowering.Code
import BeanClass.Proofs.ClassFile.StackMap
import BeanClass.Proofs.Pool.Operations

/-! # Lowered stack maps

The frames of a body become full frames at the offsets of the layout, whose entries are those of the
body with class constants in place of names.
-/

namespace BeanClass

open ConstantPool

variable {p q : ConstantPool}

namespace Lowering

/-- The entry of a lowered frame stands for the type, where classes are named through the pool. -/
def SlotShows (pool : ConstantPool) : SlotType → FrameType → Prop
  | .integer, .integer | .float, .float | .long, .long | .double, .double => True
  | .object index, .object name => pool.className? index = some name
  | _, _ => False

theorem SlotShows.grows {slot : SlotType} {type : FrameType} (hpq : Grows Supports p q)
    (h : SlotShows p slot type) : SlotShows q slot type := by
  unfold SlotShows at h ⊢
  split at h
  · trivial
  · trivial
  · trivial
  · trivial
  · exact hpq.className? h
  · cases h

theorem slotType_ok {type : FrameType} {slot : SlotType} (hp : p.Sound)
    (h : slotType type p = .ok slot q) : Grows Supports p q ∧ SlotShows q slot type := by
  cases type with
  | object name =>
    obtain ⟨index, r, hadd, h⟩ := bind_eq_ok.mp h
    obtain ⟨rfl, rfl⟩ := pure_eq_ok.mp h
    exact addClass_ok hp hadd
  | _ =>
    obtain ⟨rfl, rfl⟩ := pure_eq_ok.mp h
    exact ⟨.refl, trivial⟩

theorem slotTypes_ok {types : List FrameType} {slots : List SlotType} (hp : p.Sound)
    (h : types.mapM slotType p = .ok slots q) :
    Grows Supports p q ∧ List.Forall₂ (SlotShows q) slots types :=
  mapM_ok SlotShows (fun hp h => slotType_ok hp h) (fun hpq h => h.grows hpq) hp h

/-- A full frame with the entries that a body declares. -/
def FrameShows (pool : ConstantPool) (frame : StackFrame)
    (types : List FrameType × List FrameType) : Prop :=
  ∃ delta locals stack, frame = .full delta locals stack ∧
    List.Forall₂ (SlotShows pool) locals types.1 ∧ List.Forall₂ (SlotShows pool) stack types.2

theorem FrameShows.grows {frame : StackFrame} {types : List FrameType × List FrameType}
    (hpq : Grows Supports p q) (h : FrameShows p frame types) : FrameShows q frame types := by
  obtain ⟨delta, locals, stack, hframe, hlocals, hstack⟩ := h
  exact ⟨delta, locals, stack, hframe, hlocals.imp fun _ _ h => h.grows hpq,
    hstack.imp fun _ _ h => h.grows hpq⟩

theorem FrameShows.fits {frame : StackFrame} {types : List FrameType × List FrameType}
    (h : FrameShows p frame types) (hlocals : types.1.length < 0x10000)
    (hstack : types.2.length < 0x10000) : frame.Fits := by
  obtain ⟨delta, locals, stack, rfl, hls, hss⟩ := h
  exact ⟨hls.length_eq ▸ hlocals, hss.length_eq ▸ hstack⟩

theorem stackFrames_ok {method : String} {least : Nat}
    {frames : List (Nat × List FrameType × List FrameType)} {found : List StackFrame}
    (hp : p.Sound) (h : stackFrames method least frames p = .ok found q) :
    Grows Supports p q ∧ StackMap.offsetsFrom least found = frames.map Prod.fst ∧
      List.Forall₂ (FrameShows q) found (frames.map Prod.snd) := by
  induction frames generalizing least found p with
  | nil =>
    obtain ⟨rfl, rfl⟩ := pure_eq_ok.mp h
    exact ⟨.refl, rfl, .nil⟩
  | cons frame frames ih =>
    obtain ⟨offset, locals, stack⟩ := frame
    simp only [stackFrames] at h
    split at h
    · cases h
    · rename_i hbounds
      obtain ⟨ls, r, hlocals, h⟩ := bind_eq_ok.mp h
      obtain ⟨ss, s, hstack, h⟩ := bind_eq_ok.mp h
      obtain ⟨rest, t, hrest, h⟩ := bind_eq_ok.mp h
      obtain ⟨rfl, rfl⟩ := pure_eq_ok.mp h
      obtain ⟨hpr, hls⟩ := slotTypes_ok hp hlocals
      obtain ⟨hrs, hss⟩ := slotTypes_ok (hpr.sound hp) hstack
      obtain ⟨hst, hoffsets, hframes⟩ := ih (hrs.sound (hpr.sound hp)) hrest
      have hdelta : least + (UInt16.ofNat (offset - least)).toNat = offset := by
        rw [UInt16.toNat_ofNat_of_lt' (show offset - least < 0x10000 by omega)]
        omega
      refine ⟨(hpr.trans hrs).trans hst, ?_, .cons ?_ hframes⟩
      · simp only [StackMap.offsetsFrom, StackFrame.delta, hdelta, hoffsets, List.map_cons]
      · exact ⟨_, ls, ss, rfl, hls.imp fun _ _ h => h.grows (hrs.trans hst),
          hss.imp fun _ _ h => h.grows hst⟩

end Lowering

end BeanClass
