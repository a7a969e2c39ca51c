import BeanClass.Proofs.ClassFile.Offsets
import BeanClass.Proofs.ClassFile.StackMap
import BeanClass.Proofs.Verification.Table

/-! # Entering frames

The frames of a stack map are entered by their offsets. As these increase, no frame is entered where
another one stands. A stack map that was read has fewer than 65536 frames, so that its offsets can be
added up in 32 bits; the largest one that can be read leaves 65536 values to spare.
-/

namespace BeanClass

open StackMap

/-- A stack map of frames that change nothing, all at one distance. -/
def StackMap.spread (n : Nat) (delta : UInt16) : StackMap :=
  ⟨List.replicate n (.same delta)⟩

theorem StackMap.fits_spread {n : Nat} (hn : n < 0x10000) (delta : UInt16) :
    (spread n delta).Fits where
  count := by rwa [spread, List.length_replicate]
  frames f hf := by
    obtain ⟨-, rfl⟩ := List.mem_replicate.mp hf
    trivial

theorem StackMap.le_of_mem_offsets {bytes : List UInt8} {t : StackMap} {offset : Nat}
    (h : decode bytes = .ok t) (hoffset : offset ∈ t.offsets) : offset ≤ 0xFFFEFFFF := by
  have hcount := (spelling_of_decode h).1.count
  have hlt := lt_of_mem_offsetsFrom hoffset
  omega

namespace Verification

variable {table : CodeTable} {depths out : FrameDepths} {frames : List (Nat × StackFrame)}

/-- Whenever a frame is entered, nothing stands at its offset. -/
def EntersApart (table : CodeTable) (frames : List (Nat × StackFrame)) : Prop :=
  ∀ before offset frame after depths, frames = before ++ (offset, frame) :: after →
    enterFrames table (Array.replicate table.size none) before = .ok depths →
      depths[offset]?.join = none

/-- Nothing changes at other offsets than those of the frames. -/
theorem getElem?_enterFrames {k : Nat} (h : enterFrames table depths frames = .ok out)
    (hk : k ∉ frames.map Prod.fst) : out[k]? = depths[k]? := by
  fun_induction enterFrames table depths frames with
  | case1 =>
    cases h
    rfl
  | case2 depths offset frame frames hinsn slots hslots ih =>
    rw [List.map_cons, List.mem_cons, not_or] at hk
    obtain ⟨hne, hk⟩ := hk
    rw [ih h hk, Array.getElem?_setIfInBounds_ne (Ne.symm hne)]
  | case3 | case4 => cases h

theorem entersApart_of_pairwise (table : CodeTable)
    (h : (frames.map Prod.fst).Pairwise (· < ·)) : EntersApart table frames := by
  rintro before offset frame after depths rfl hdepths
  rw [List.map_append, List.pairwise_append] at h
  obtain ⟨-, -, hbefore⟩ := h
  have hnot : offset ∉ before.map Prod.fst := by
    intro hmem
    exact Nat.lt_irrefl _ (hbefore offset hmem offset List.mem_cons_self)
  rw [getElem?_enterFrames hdepths hnot, join_getElem?_replicate_none]

/-- The frames of a stack map that was read stand at increasing offsets, and no sum on the way to
these overflows in 32 bits. A frame is never entered where another one stands, and in the end the
depth of each is found at its offset. -/
theorem increasing_offsets_of_decode {bytes : List UInt8} {t : StackMap}
    (h : decode bytes = .ok t) :
    (∃ offsets, t.offsets32? = some offsets ∧ offsets.map UInt32.toNat = t.offsets) ∧
      (∀ offset ∈ t.offsets, offset ≤ 0xFFFEFFFF) ∧
      t.offsets.length = t.frames.length ∧ t.offsets.Pairwise (· < ·) ∧
      ∀ table : CodeTable, EntersApart table (t.offsets.zip t.frames) ∧
        ∀ depths, frameDepths table (some t) = .ok depths → ∀ k d, depths[k]?.join = some d ↔
          ∃ frame, (k, frame) ∈ t.offsets.zip t.frames ∧ frameSlots frame = .ok d := by
  have hle : ∀ offset ∈ t.offsets, offset ≤ 0xFFFEFFFF := fun _ => le_of_mem_offsets h
  have hpairwise : t.offsets.Pairwise (· < ·) := pairwise_offsetsFrom 0 t.frames
  refine ⟨?_, hle, length_offsetsFrom 0 t.frames, hpairwise, fun table => ⟨?_, ?_⟩⟩
  · apply exists_offsets32?
    intro offset hoffset
    exact Nat.lt_of_le_of_lt (hle offset hoffset) (by decide)
  · apply entersApart_of_pairwise
    rwa [t.map_fst_zip_offsets]
  · intro depths hdepths
    exact frameDepths_some_eq_ok hdepths

/-- A table of `n` instructions of one byte. -/
def dups (n : Nat) : CodeTable :=
  Array.replicate n (some ⟨.dup, 0, none⟩)

/-- As many frames as can be read, as far apart as can be said, reach the greatest offset. Of two frames
side by side, the second one is entered where nothing stands, and both are found. -/
theorem increasing_offsets_of_decode_spread :
    decode (spread 65535 65535).encode = .ok (spread 65535 65535) ∧
      (∃ offsets, (spread 65535 65535).offsets32? = some offsets ∧
        0xFFFEFFFF ∈ offsets.map UInt32.toNat) ∧
      decode stretchedFrames = .ok twoFrames ∧ twoFrames.offsets.Pairwise (· < ·) ∧
      (∃ depths, enterFrames (dups 7) (Array.replicate (dups 7).size none) [(5, .same 5)] = .ok depths ∧
        depths[6]?.join = none) ∧
      ∃ depths, frameDepths (dups 7) (some twoFrames) = .ok depths ∧
        depths[5]?.join = some 0 ∧ depths[6]?.join = some 1 := by
  have hspread : decode (spread 65535 65535).encode = .ok (spread 65535 65535) :=
    decode_encode (fits_spread (by decide) 65535)
  have hgreatest : 0xFFFEFFFF ∈ (spread 65535 65535).offsets :=
    mem_offsetsFrom_replicate 0 65534 (.same 65535)
  have htwo : decode stretchedFrames = .ok twoFrames := by decide
  have hfirst : enterFrames (dups 7) (Array.replicate (dups 7).size none) [(5, .same 5)] =
      .ok #[none, none, none, none, none, some 0, none] := by decide
  have hboth : frameDepths (dups 7) (some twoFrames) =
      .ok #[none, none, none, none, none, some 0, some 1] := by decide
  obtain ⟨⟨offsets, hsums, hexact⟩, -⟩ := increasing_offsets_of_decode hspread
  obtain ⟨-, -, -, hpairwise, hentered⟩ := increasing_offsets_of_decode htwo
  obtain ⟨hapart, hfound⟩ := hentered (dups 7)
  refine ⟨hspread, ⟨offsets, hsums, hexact ▸ hgreatest⟩, htwo, hpairwise, ⟨_, hfirst, ?_⟩,
    ⟨_, hboth, ?_, ?_⟩⟩
  · exact hapart [(5, .same 5)] 6 (.sameLocals 0 .integer) [] _ rfl hfirst
  · exact (hfound _ hboth 5 0).mpr ⟨.same 5, List.mem_cons_self, rfl⟩
  · exact (hfound _ hboth 6 1).mpr
      ⟨.sameLocals 0 .integer, List.mem_cons_of_mem _ List.mem_cons_self, rfl⟩

end Verification

end BeanClass
