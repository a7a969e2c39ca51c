import Mathlib
import BeanClass.Binary.Bytes
import BeanClass.Opcode

/-! # Code arrays as lines

A code array is read from its start: an opcode, as many bytes as it has operands, and then the next
instruction. Both what lowering writes and what verification accepts is stated about these lines.
-/

namespace BeanClass

theorem Opcode.ofByte?_toByte (opcode : Opcode) : ofByte? opcode.toByte = some opcode := by
  cases opcode with
  | load kind => cases kind <;> decide
  | loadAt kind slot => cases kind <;> revert slot <;> decide
  | ret kind =>
    cases kind with
    | none => decide
    | some kind => cases kind <;> decide
  | _ => decide

theorem Opcode.toByte_of_ofByte? {byte : UInt8} {opcode : Opcode} (h : ofByte? byte = some opcode) :
    opcode.toByte = byte := by
  have hfound := List.find?_some h
  rwa [beq_iff_eq] at hfound

/-- An instruction of a code array: the offset at which it starts, its opcode and the bytes behind. -/
structure CodeLine where
  pc : Nat
  opcode : Opcode
  operands : List UInt8
  deriving DecidableEq, Repr

namespace CodeLine

/-- The instructions of a code array that starts at offset `pc`, if all of it can be read. -/
def scan (pc : Nat) (code : List UInt8) : Option (List CodeLine) :=
  match code with
  | [] => some []
  | byte :: rest =>
    match Opcode.ofByte? byte with
    | none => none
    | some opcode =>
      if rest.length < opcode.operandCount then none
      else
        (scan (pc + 1 + opcode.operandCount) (rest.drop opcode.operandCount)).map
          (⟨pc, opcode, rest.take opcode.operandCount⟩ :: ·)
termination_by code.length

/-- The number of bytes. -/
def size (line : CodeLine) : Nat :=
  1 + line.opcode.operandCount

/-- The operand as a number, 0 if there is none. -/
def operand (line : CodeLine) : UInt16 :=
  match line.operands with
  | [a] => a.toUInt16
  | [a, b] => join16 a b
  | _ => 0

/-- The offset that the operand of a branch stands for. -/
def target (line : CodeLine) : Int :=
  line.pc + line.operand.toInt16.toInt

/-- The kind of the value that a line loads, and the local variable that it is loaded from. -/
def loaded? (line : CodeLine) : Option (ValueKind × UInt16) :=
  match line.opcode, line.operands with
  | .load kind, [slot] => some (kind, slot.toUInt16)
  | .loadAt kind slot, [] => some (kind, UInt16.ofNat slot)
  | _, _ => none

theorem scan_nil (pc : Nat) : scan pc [] = some [] := by
  rw [scan]

theorem scan_cons (pc : Nat) (opcode : Opcode) (operands rest : List UInt8)
    (h : operands.length = opcode.operandCount) :
    scan pc (opcode.toByte :: (operands ++ rest)) =
      (scan (pc + 1 + operands.length) rest).map (⟨pc, opcode, operands⟩ :: ·) := by
  rw [scan]
  simp only [Opcode.ofByte?_toByte, ← h, List.length_append, List.drop_left, List.take_left]
  rw [if_neg (by omega)]

/-- Lines start behind each other and have as many operands as their opcodes ask for. -/
theorem scan_eq_some {pc : Nat} {code : List UInt8} {lines : List CodeLine}
    (h : scan pc code = some lines) :
    (∀ line ∈ lines, pc ≤ line.pc ∧ line.operands.length = line.opcode.operandCount) ∧
      lines.Pairwise fun line later => line.pc < later.pc := by
  fun_induction scan pc code generalizing lines with
  | case1 => cases h; simp
  | case2 => cases h
  | case3 => cases h
  | case4 pc byte rest opcode _ hlength ih =>
    obtain ⟨tail, htail, rfl⟩ := Option.map_eq_some_iff.mp h
    obtain ⟨hlines, hpairwise⟩ := ih htail
    constructor
    · intro line hline
      rcases List.mem_cons.mp hline with rfl | hline
      · exact ⟨Nat.le_refl pc, List.length_take_of_le (Nat.le_of_not_lt hlength)⟩
      · exact ⟨Nat.le_trans (by omega) (hlines line hline).1, (hlines line hline).2⟩
    · refine List.pairwise_cons.mpr ⟨fun line hline => ?_, hpairwise⟩
      have hle := (hlines line hline).1
      change pc < line.pc
      omega

theorem nodup_pcs {pc : Nat} {code : List UInt8} {lines : List CodeLine}
    (h : scan pc code = some lines) : (lines.map CodeLine.pc).Nodup :=
  List.pairwise_map.mpr ((scan_eq_some h).2.imp Nat.ne_of_lt)

theorem eq_of_pc_eq {pc : Nat} {code : List UInt8} {lines : List CodeLine} {line other : CodeLine}
    (h : scan pc code = some lines) (hline : line ∈ lines) (hother : other ∈ lines)
    (hpc : line.pc = other.pc) : line = other :=
  List.inj_on_of_nodup_map (nodup_pcs h) hline hother hpc

end CodeLine

end BeanClass
