import BeanClass.ClassFile.Basic
import BeanClass.Proofs.Binary.Locality

/-! # No class file starts another

All sections of a class file are read locally, from the constants of the pool to the attributes at the
end. A class file that is cut short therefore ends unexpectedly, wherever the cut is, and bytes behind a
class file are noticed as such.
-/

namespace BeanClass

open Reader

theorem Constant.local_read (index : Nat) : Local (Constant.read index) := by
  refine Local.u8.bind fun tag => ?_
  split
  · refine Local.u16.bind fun length => (Local.bytes _).bind fun encoded => ?_
    split
    · exact .pure _
    · exact .throw _
  · exact Local.u32.bind fun _ => .pure _
  · exact Local.u32.bind fun _ => .pure _
  · exact Local.u64.bind fun _ => .pure _
  · exact Local.u64.bind fun _ => .pure _
  · exact Local.u16.bind fun _ => .pure _
  · exact Local.u16.bind fun _ => .pure _
  · exact Local.u16.bind fun _ => Local.u16.bind fun _ => .pure _
  · exact Local.u16.bind fun _ => Local.u16.bind fun _ => .pure _
  · exact Local.u16.bind fun _ => Local.u16.bind fun _ => .pure _
  · exact Local.u16.bind fun _ => Local.u16.bind fun _ => .pure _
  · exact Local.u8.bind fun _ => Local.u16.bind fun _ => .pure _
  · exact Local.u16.bind fun _ => .pure _
  · exact Local.u16.bind fun _ => Local.u16.bind fun _ => .pure _
  · exact Local.u16.bind fun _ => Local.u16.bind fun _ => .pure _
  · exact Local.u16.bind fun _ => .pure _
  · exact Local.u16.bind fun _ => .pure _
  · exact .throw _

namespace ConstantPool

/-- What follows a constant in the slots that are left. -/
def readBehind (left : Nat) (pool : ConstantPool) (constant : Constant) : Reader ConstantPool :=
  match push constant pool with
  | .error _ _ => throw (.invalidIndex pool.count)
  | .ok _ pool =>
    if constant.isWide then
      match left with
      | 0 => throw (.invalidIndex pool.count)
      | left + 1 => readSlots left pool
    else readSlots left pool

theorem readSlots_succ (left : Nat) (pool : ConstantPool) :
    readSlots (left + 1) pool = Constant.read pool.count >>= readBehind left pool := by
  funext cursor
  rw [readSlots.eq_def]
  dsimp only
  cases hread : Constant.read pool.count cursor with
  | error e => rw [bind_of_error hread]
  | ok p =>
    rw [bind_of_ok hread]
    dsimp only [readBehind]
    cases push p.1 pool with
    | error e q => rfl
    | ok i q =>
      dsimp only
      split
      · cases left <;> rfl
      · rfl

theorem local_readSlots (left : Nat) (pool : ConstantPool) : Local (readSlots left pool) := by
  induction left using Nat.strongRecOn generalizing pool with
  | ind left ih =>
    cases left with
    | zero => exact .pure pool
    | succ left =>
      rw [readSlots_succ]
      refine (Constant.local_read pool.count).bind fun constant => ?_
      unfold readBehind
      split
      · exact .throw _
      · split
        · cases left with
          | zero => exact .throw _
          | succ left => exact ih left (by omega) _
        · exact ih left (by omega) _

theorem local_read : Local read :=
  Local.u16.bind fun _ => .guard (local_readSlots _ _)

end ConstantPool

theorem RawAttribute.local_readAll : Local RawAttribute.readAll :=
  .counted (Local.u16.bind fun _ => Local.u32.bind fun _ => (Local.bytes _).bind fun _ => .pure _)

theorem Member.local_read : Local Member.read :=
  Local.u16.bind fun _ => Local.u16.bind fun _ => Local.u16.bind fun _ =>
    RawAttribute.local_readAll.bind fun _ => .pure _

namespace ClassFile

theorem local_read : Local read := by
  refine Local.u32.bind fun magic => .guard ?_
  refine Local.u16.bind fun minor => Local.u16.bind fun major => ?_
  refine ConstantPool.local_read.bind fun pool => ?_
  refine Local.u16.bind fun access => Local.u16.bind fun this => Local.u16.bind fun super => ?_
  refine (Local.counted Local.u16).bind fun interfaces => ?_
  refine (Local.counted Member.local_read).bind fun fields => ?_
  refine (Local.counted Member.local_read).bind fun methods => ?_
  exact RawAttribute.local_readAll.bind fun attributes => .pure _

/-- Every proper start of a class file ends unexpectedly, and with more bytes behind it their number is
reported. -/
theorem decode_cut_and_extended {bytes : List UInt8} {cf : ClassFile} (h : decode bytes = .ok cf) :
    (∀ cut, cut <+: bytes → cut ≠ bytes →
        ∃ offset ≤ cut.length, decode cut = .error (.unexpectedEnd offset)) ∧
      ∀ extra, extra ≠ [] → decode (bytes ++ extra) = .error (.trailing extra.length) :=
  local_read.runAll h

/-- A class file with a text, a wide constant, and an attribute of two bytes that could be the count of
a list. -/
def attributed : List UInt8 :=
  [0xCA, 0xFE, 0xBA, 0xBE, 0, 0, 0, 51, 0, 4, 1, 0, 1, 0x41, 5, 0, 0, 0, 0, 0, 0, 0, 0,
    0, 1, 0, 1, 0, 0, 0, 0, 0, 0, 0, 0, 0, 1, 0, 1, 0, 0, 0, 2, 0, 0]

/-- One byte less, a cut inside the text, and two bytes more. -/
theorem decode_cut_attributed :
    (∃ cf, decode attributed = .ok cf) ∧
      (∃ offset ≤ 44, decode attributed.dropLast = .error (.unexpectedEnd offset)) ∧
      (∃ offset ≤ 13, decode (attributed.take 13) = .error (.unexpectedEnd offset)) ∧
      decode (attributed ++ [0, 0]) = .error (.trailing 2) := by
  obtain ⟨cf, hcf⟩ : ∃ cf, decode attributed = .ok cf := ⟨_, rfl⟩
  obtain ⟨hcut, hextended⟩ := decode_cut_and_extended hcf
  refine ⟨⟨cf, hcf⟩, ?_, ?_, ?_⟩
  · exact hcut attributed.dropLast (List.dropLast_prefix _) (by decide)
  · exact hcut (attributed.take 13) (List.take_prefix _ _) (by decide)
  · exact hextended [0, 0] (by decide)

end ClassFile

end BeanClass
