import BeanClass.ClassFile.Pool
import BeanClass.Opcode

/-! # Disassembly

One line for each instruction of a code array, behind the offset at which it starts.
-/

namespace BeanClass.Disassembly

/-- The operand of an instruction that refers to the pool, with what it names if it names
something. -/
def reference (pool : ConstantPool) (opcode : Opcode) (index : UInt16) : String :=
  let target :=
    if opcode = .new then pool.className? index
    else (pool.memberRef? index).map fun m => s!"{m.owner}.{m.name}:{m.descriptor}"
  match target with
  | some target => s!"#{index} // {target}"
  | none => s!"#{index}"

/-- The offset that a branch at `pc` goes to. -/
def branchTarget (pc : Nat) (offset : UInt16) : Int :=
  pc + offset.toInt16.toInt

def line (pc : Nat) (text : String) : String :=
  Text.padLeft 4 (toString pc) ++ ": " ++ text

/-- The lines of the instructions from `pc` on; the lines before are given in reverse order. -/
def linesFrom (pool : ConstantPool) :
    (pc : Nat) → List String → List UInt8 → Except DecodeError (List String)
  | _, found, [] => .ok found.reverse
  | pc, found, byte :: rest =>
    match Opcode.ofByte? byte with
    | none => .error (.unsupportedOpcode byte pc)
    | some opcode =>
      match opcode.operandCount, rest with
      | 0, rest => linesFrom pool (pc + 1) (line pc opcode.mnemonic :: found) rest
      | 1, a :: rest =>
        linesFrom pool (pc + 2) (line pc s!"{opcode.mnemonic} {a}" :: found) rest
      | 2, a :: b :: rest =>
        let operand :=
          if opcode = .ifNonNull then toString (branchTarget pc (join16 a b))
          else reference pool opcode (join16 a b)
        linesFrom pool (pc + 3) (line pc s!"{opcode.mnemonic} {operand}" :: found) rest
      | _, _ => .error (.unexpectedEnd (pc + 1))

def lines (pool : ConstantPool) (code : List UInt8) : Except DecodeError (List String) :=
  linesFrom pool 0 [] code

end BeanClass.Disassembly
