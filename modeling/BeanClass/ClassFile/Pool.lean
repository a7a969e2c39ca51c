import BeanClass.ClassFile.Constant
import Std.Data.ExtHashMap

/-! # The constant pool

Constants are numbered from one, and a wide constant leaves the number after it unused. Adding a
constant that the pool holds already gives its first index.
-/

namespace BeanClass

/-- Why a class cannot be encoded. -/
inductive EncodeError where
  | poolOverflow
  | textTooLong (length : Nat)
  | undefinedLabel (method : String) (label : UInt16)
  | duplicateLabel (method : String) (label : UInt16)
  | frameWithoutLabel (method : String)
  | branchTooFar (method : String) (offset : Int)
  | codeTooLarge (method : String) (size : Nat)
  | localOutOfBounds (index : UInt16)
  | tooMany (what : String) (count : Nat)
  | attributeTooLarge (size : Nat)
  deriving DecidableEq, Repr

def EncodeError.message : EncodeError → String
  | poolOverflow => "Constant pool is out of space"
  | textTooLong length => s!"Constant string is {length} bytes long"
  | undefinedLabel method label => s!"Method {method}: jump to undeclared label L{label}"
  | duplicateLabel method label => s!"Method {method}: label L{label} declared twice"
  | frameWithoutLabel method => s!"Method {method}: stack map frame does not follow a label"
  | branchTooFar method offset => s!"Method {method}: branch offset {offset} out of range"
  | codeTooLarge method size => s!"Method {method}: code is {size} bytes long"
  | localOutOfBounds index => s!"Local variable index out of bounds: {index}"
  | tooMany what count => s!"Too many {what}: {count}"
  | attributeTooLarge size => s!"Attribute data too large: {size} bytes"

/-- Slot `i` holds the constant with index `i + 1`, or nothing behind a wide constant; `lookup`
gives the first index of a constant. -/
structure ConstantPool where
  slots : Array (Option Constant)
  lookup : Std.ExtHashMap Constant UInt16

/-- A field or method as named from outside its class. -/
structure MemberRef where
  owner : String
  name : String
  descriptor : String
  deriving DecidableEq, Repr

namespace ConstantPool

def empty : ConstantPool := ⟨#[], ∅⟩

/-- One more than the number of slots. -/
def count (pool : ConstantPool) : Nat :=
  pool.slots.size + 1

def get? (pool : ConstantPool) (index : UInt16) : Option Constant :=
  if index = 0 then none else (pool.slots[index.toNat - 1]?).join

/-- The constants with their indices, in the order of the pool. -/
def entries (pool : ConstantPool) : List (UInt16 × Constant) :=
  (pool.slots.toList.zipIdx 1).filterMap fun (slot, i) =>
    slot.map fun constant => (UInt16.ofNat i, constant)

def utf8? (pool : ConstantPool) (index : UInt16) : Option String :=
  match pool.get? index with
  | some (.utf8 text) => some text
  | _ => none

def className? (pool : ConstantPool) (index : UInt16) : Option String :=
  match pool.get? index with
  | some (.classRef name) => pool.utf8? name
  | _ => none

def nameAndType? (pool : ConstantPool) (index : UInt16) : Option (String × String) :=
  match pool.get? index with
  | some (.nameAndType name descriptor) => do
    let name ← pool.utf8? name
    let descriptor ← pool.utf8? descriptor
    return (name, descriptor)
  | _ => none

def memberRef? (pool : ConstantPool) (index : UInt16) : Option MemberRef :=
  match pool.get? index with
  | some (.fieldRef owner nameAndType) | some (.methodRef owner nameAndType)
  | some (.interfaceMethodRef owner nameAndType) => do
    let owner ← pool.className? owner
    let (name, descriptor) ← pool.nameAndType? nameAndType
    return ⟨owner, name, descriptor⟩
  | _ => none

/-- The largest count that a class file can state. -/
def maxCount : Nat := 65535

/-- A step that may extend the pool; what it added before a failure stays. -/
abbrev PoolM := EStateM EncodeError ConstantPool

/-- Appends a constant whether or not the pool holds it already. -/
def push (constant : Constant) : PoolM UInt16 := fun pool =>
  if maxCount < pool.count + constant.width then .error .poolOverflow pool
  else
    let index := UInt16.ofNat pool.count
    let slots := pool.slots.push (some constant)
    .ok index
      { slots := if constant.isWide then slots.push none else slots
        lookup := pool.lookup.insertIfNew constant index }

/-- The index of a constant, which is appended if the pool does not hold it. -/
def add (constant : Constant) : PoolM UInt16 := fun pool =>
  match pool.lookup[constant]? with
  | some index => .ok index pool
  | none => push constant pool

/-- The longest text, in bytes, that a constant can hold. -/
def maxText : Nat := 65535

def addUtf8 (text : String) : PoolM UInt16 := do
  let length := (Text.encode text.toList).length
  if maxText < length then throw (.textTooLong length)
  add (.utf8 text)

def addClass (name : String) : PoolM UInt16 := do
  let name ← addUtf8 name
  add (.classRef name)

def addNameAndType (name descriptor : String) : PoolM UInt16 := do
  let name ← addUtf8 name
  let descriptor ← addUtf8 descriptor
  add (.nameAndType name descriptor)

def addFieldRef (member : MemberRef) : PoolM UInt16 := do
  let owner ← addClass member.owner
  let nameAndType ← addNameAndType member.name member.descriptor
  add (.fieldRef owner nameAndType)

def addMethodRef (member : MemberRef) : PoolM UInt16 := do
  let owner ← addClass member.owner
  let nameAndType ← addNameAndType member.name member.descriptor
  add (.methodRef owner nameAndType)

/-- The count and then the constants. -/
def encode (pool : ConstantPool) : List UInt8 :=
  count16 pool.count ++ pool.entries.flatMap fun (_, constant) => constant.encode

/-- Reads constants into the slots that are left. A wide constant in the last slot leaves the pool
one too long. -/
def readSlots : (left : Nat) → ConstantPool → Reader ConstantPool
  | 0, pool, cursor => .ok (pool, cursor)
  | left + 1, pool, cursor =>
    match Constant.read pool.count cursor with
    | .error e => .error e
    | .ok (constant, cursor) =>
      match push constant pool with
      | .error _ _ => .error (.invalidIndex pool.count)
      | .ok _ pool =>
        if constant.isWide then
          match left with
          | 0 => .error (.invalidIndex pool.count)
          | left + 1 => readSlots left pool cursor
        else readSlots left pool cursor

def read : Reader ConstantPool := do
  let count ← Reader.u16
  if count = 0 then throw (.invalidIndex 1)
  readSlots (count.toNat - 1) empty

end ConstantPool

end BeanClass
