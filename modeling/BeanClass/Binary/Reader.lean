import BeanClass.Binary.Bytes
import BeanClass.Text.Cut

/-! # Reading bytes

A reader takes bytes off the front of its input and keeps count of them, so that a failure can name
the offset at which it ran out.
-/

namespace BeanClass

/-- Why bytes cannot be decoded. -/
inductive DecodeError where
  | unexpectedEnd (offset : Nat)
  | badMagic (magic : UInt32)
  | unknownTag (tag : UInt8) (index : Nat)
  | invalidIndex (index : Nat)
  | invalidText (index : Nat)
  | trailing (count : Nat)
  | reservedFrame (tag : UInt8)
  | unknownSlotType (tag : UInt8)
  | unsupportedOpcode (opcode : UInt8) (pc : Nat)
  /-- The payload of a `Code` attribute cannot be decoded. -/
  | inCode (cause : DecodeError)
  /-- The payload of a `StackMapTable` attribute cannot be decoded. -/
  | inStackMap (cause : DecodeError)
  deriving DecidableEq, Repr

def DecodeError.message : DecodeError → String
  | unexpectedEnd offset => s!"Unexpected end of class file at offset {offset}"
  | badMagic magic => "Bad magic number 0x" ++ (Text.hex 8 magic.toNat).toUpper
  | unknownTag tag index => s!"Unknown constant pool tag {tag} at index {index}"
  | invalidIndex index => s!"Invalid constant pool index: {index}"
  | invalidText index => s!"Constant pool entry {index} is not valid modified UTF-8"
  | trailing count => s!"{count} trailing bytes after class file"
  | reservedFrame tag => s!"Malformed StackMapTable attribute: reserved frame type {tag}"
  | unknownSlotType tag => s!"Malformed StackMapTable attribute: unknown verification type {tag}"
  | unsupportedOpcode opcode pc =>
    s!"Malformed Code attribute: unsupported opcode 0x{Text.hex 2 opcode.toNat} at {pc}"
  | inCode cause => s!"Malformed Code attribute: {cause.message}"
  | inStackMap cause => s!"Malformed StackMapTable attribute: {cause.message}"

/-- The bytes still to be read and the number of those read before. -/
structure Cursor where
  offset : Nat
  rest : List UInt8

abbrev Reader := StateT Cursor (Except DecodeError)

namespace Reader

def u8 : Reader UInt8
  | ⟨offset, a :: rest⟩ => .ok (a, ⟨offset + 1, rest⟩)
  | ⟨offset, _⟩ => .error (.unexpectedEnd offset)

def u16 : Reader UInt16
  | ⟨offset, a :: b :: rest⟩ => .ok (join16 a b, ⟨offset + 2, rest⟩)
  | ⟨offset, _⟩ => .error (.unexpectedEnd offset)

def u32 : Reader UInt32
  | ⟨offset, a :: b :: c :: d :: rest⟩ => .ok (join32 a b c d, ⟨offset + 4, rest⟩)
  | ⟨offset, _⟩ => .error (.unexpectedEnd offset)

def u64 : Reader UInt64 := do
  let high ← u32
  let low ← u32
  return join64 high low

/-- The next `n` bytes. -/
def bytes (n : Nat) : Reader (List UInt8)
  | ⟨offset, rest⟩ =>
    let taken := rest.take n
    if taken.length = n then .ok (taken, ⟨offset + n, rest.drop n⟩)
    else .error (.unexpectedEnd offset)

variable {α : Type}

/-- Runs a reader `n` times; the items found before are given in reverse order. -/
def repeatOnto (item : Reader α) : (n : Nat) → List α → Reader (List α)
  | 0, found, cursor => .ok (found.reverse, cursor)
  | n + 1, found, cursor =>
    match item cursor with
    | .ok (a, cursor) => repeatOnto item n (a :: found) cursor
    | .error e => .error e

def times (n : Nat) (item : Reader α) : Reader (List α) :=
  repeatOnto item n []

/-- A list behind the 16-bit number of its items. -/
def counted (item : Reader α) : Reader (List α) := do
  let count ← u16
  times count.toNat item

/-- Runs a reader that has to use up all bytes. -/
def runAll (reader : Reader α) (bytes : List UInt8) : Except DecodeError α :=
  match reader ⟨0, bytes⟩ with
  | .ok (a, ⟨_, []⟩) => .ok a
  | .ok (_, cursor) => .error (.trailing cursor.rest.length)
  | .error e => .error e

end Reader

end BeanClass
