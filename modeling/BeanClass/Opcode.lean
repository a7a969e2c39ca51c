import BeanClass.Descriptor

/-! # Opcodes

The operations that accessor classes use, with their bytes and mnemonics.
-/

namespace BeanClass

inductive Opcode where
  | load (kind : ValueKind)
  | loadAt (kind : ValueKind) (slot : Fin 4)
  | dup
  | ret (kind : Option ValueKind)
  | getField
  | putField
  | invokeSpecial
  | new
  | athrow
  | ifNonNull
  deriving DecidableEq, Repr

namespace ValueKind

def all : List ValueKind :=
  [int, long, float, double, reference]

/-- The position among the kinds, in the order of the opcodes. -/
def index : ValueKind → Nat
  | int => 0
  | long => 1
  | float => 2
  | double => 3
  | reference => 4

/-- The first letter of the mnemonics for this kind. -/
def letter : ValueKind → String
  | int => "i"
  | long => "l"
  | float => "f"
  | double => "d"
  | reference => "a"

end ValueKind

namespace Opcode

def toByte : Opcode → UInt8
  | load kind => UInt8.ofNat (0x15 + kind.index)
  | loadAt kind slot => UInt8.ofNat (0x1A + 4 * kind.index + slot)
  | dup => 0x59
  | ret (some kind) => UInt8.ofNat (0xAC + kind.index)
  | ret none => 0xB1
  | getField => 0xB4
  | putField => 0xB5
  | invokeSpecial => 0xB7
  | new => 0xBB
  | athrow => 0xBF
  | ifNonNull => 0xC7

def all : List Opcode :=
  ValueKind.all.map load ++
    ValueKind.all.flatMap (fun kind => (List.finRange 4).map (loadAt kind)) ++
    ValueKind.all.map (fun kind => ret (some kind)) ++
    [ret none, dup, getField, putField, invokeSpecial, new, athrow, ifNonNull]

def ofByte? (byte : UInt8) : Option Opcode :=
  all.find? (·.toByte == byte)

def mnemonic : Opcode → String
  | load kind => kind.letter ++ "load"
  | loadAt kind slot => kind.letter ++ "load_" ++ toString slot.val
  | dup => "dup"
  | ret (some kind) => kind.letter ++ "return"
  | ret none => "return"
  | getField => "getfield"
  | putField => "putfield"
  | invokeSpecial => "invokespecial"
  | new => "new"
  | athrow => "athrow"
  | ifNonNull => "ifnonnull"

/-- The number of bytes that follow the opcode. -/
def operandCount : Opcode → Nat
  | load _ => 1
  | getField | putField | invokeSpecial | new | ifNonNull => 2
  | _ => 0

/-- The load of a local variable: the first four have opcodes of their own, of any other index the
low byte follows. -/
def loadOf (kind : ValueKind) (slot : UInt16) : Opcode × Option UInt8 :=
  if h : slot.toNat < 4 then (loadAt kind ⟨slot.toNat, h⟩, none)
  else (load kind, some (UInt8.ofNat slot.toNat))

end Opcode

end BeanClass
