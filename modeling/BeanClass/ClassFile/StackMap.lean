import BeanClass.Binary.Reader

/-! # Stack maps

A stack map describes local variables and operand stack at branch targets. Each frame gives its
distance from the frame before.
-/

namespace BeanClass

/-- The type of one entry of a frame. -/
inductive SlotType where
  | top
  | integer
  | float
  | double
  | long
  | null
  | uninitializedThis
  /-- The index of a class constant. -/
  | object (index : UInt16)
  /-- The offset of the instruction that created the object. -/
  | uninitialized (offset : UInt16)
  deriving DecidableEq, Repr

namespace SlotType

def slots : SlotType → UInt16
  | long | double => 2
  | _ => 1

def encode : SlotType → List UInt8
  | top => [0]
  | integer => [1]
  | float => [2]
  | double => [3]
  | long => [4]
  | null => [5]
  | uninitializedThis => [6]
  | object index => 7 :: be16 index
  | uninitialized offset => 8 :: be16 offset

open Reader in
def read : Reader SlotType := do
  match ← u8 with
  | 0 => return top
  | 1 => return integer
  | 2 => return float
  | 3 => return double
  | 4 => return long
  | 5 => return null
  | 6 => return uninitializedThis
  | 7 => return object (← u16)
  | 8 => return uninitialized (← u16)
  | tag => throw (.unknownSlotType tag)

def describe : SlotType → String
  | top => "Top"
  | integer => "Integer"
  | float => "Float"
  | double => "Double"
  | long => "Long"
  | null => "Null"
  | uninitializedThis => "UninitializedThis"
  | object index => s!"Object({index})"
  | uninitialized offset => s!"Uninitialized({offset})"

def describeAll (types : List SlotType) : String :=
  "[" ++ String.intercalate ", " (types.map describe) ++ "]"

end SlotType

inductive StackFrame where
  | same (delta : UInt16)
  | sameLocals (delta : UInt16) (stack : SlotType)
  | chop (delta : UInt16) (removed : UInt8)
  | append (delta : UInt16) (locals : List SlotType)
  | full (delta : UInt16) (locals stack : List SlotType)
  deriving DecidableEq, Repr

namespace StackFrame

def delta : StackFrame → UInt16
  | same delta | sameLocals delta _ | chop delta _ | append delta _ | full delta _ _ => delta

def encodeTypes (types : List SlotType) : List UInt8 :=
  types.flatMap SlotType.encode

/-- Distances up to 63 fit into the tag of the two simplest forms. -/
def encode : StackFrame → List UInt8
  | same delta => if delta ≤ 63 then [delta.toUInt8] else 251 :: be16 delta
  | sameLocals delta type =>
    (if delta ≤ 63 then [64 + delta.toUInt8] else 247 :: be16 delta) ++ type.encode
  | chop delta removed => (251 - removed) :: be16 delta
  | append delta locals =>
    (251 + UInt8.ofNat locals.length) :: be16 delta ++ encodeTypes locals
  | full delta locals stack =>
    255 :: be16 delta ++ count16 locals.length ++ encodeTypes locals ++
      count16 stack.length ++ encodeTypes stack

open Reader in
def read : Reader StackFrame := do
  let tag ← u8
  if tag < 64 then return same tag.toUInt16
  else if tag < 128 then return sameLocals (tag - 64).toUInt16 (← SlotType.read)
  else if tag < 247 then throw (.reservedFrame tag)
  else if tag = 247 then return sameLocals (← u16) (← SlotType.read)
  else if tag < 251 then return chop (← u16) (251 - tag)
  else if tag = 251 then return same (← u16)
  else if tag < 255 then return append (← u16) (← times (tag - 251).toNat SlotType.read)
  else return full (← u16) (← counted SlotType.read) (← counted SlotType.read)

def describe (offset : Nat) (frame : StackFrame) : String :=
  "@" ++ Text.padLeft 4 (toString offset) ++ " " ++ match frame with
    | same delta => s!"SAME (delta={delta})"
    | sameLocals delta type => s!"SAME_LOCALS_1 (delta={delta}, stack={type.describe})"
    | chop delta removed => s!"CHOP{removed} (delta={delta})"
    | append delta locals => s!"APPEND (delta={delta}, locals={SlotType.describeAll locals})"
    | full delta locals stack =>
      s!"FULL (delta={delta}, locals={SlotType.describeAll locals}, stack={SlotType.describeAll stack})"

end StackFrame

structure StackMap where
  frames : List StackFrame
  deriving DecidableEq, Repr

namespace StackMap

def encode (t : StackMap) : List UInt8 :=
  count16 t.frames.length ++ t.frames.flatMap StackFrame.encode

def decode (payload : List UInt8) : Except DecodeError StackMap :=
  (Reader.runAll (StackMap.mk <$> Reader.counted StackFrame.read) payload).mapError .inStackMap

/-- The offsets of frames of which the first may stand at `least` and each other one behind the one
before it. -/
def offsetsFrom : (least : Nat) → List StackFrame → List Nat
  | _, [] => []
  | least, frame :: frames =>
    let offset := least + frame.delta.toNat
    offset :: offsetsFrom (offset + 1) frames

/-- The code offset of every frame. -/
def offsets (t : StackMap) : List Nat :=
  offsetsFrom 0 t.frames

def describe (t : StackMap) : List String :=
  (t.offsets.zip t.frames).map fun (offset, frame) => frame.describe offset

end StackMap

end BeanClass
