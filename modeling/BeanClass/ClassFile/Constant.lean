import BeanClass.Binary.Reader
import BeanClass.Text.ModifiedUtf8

/-! # Constants

The entries of a constant pool. Floating-point constants are kept as their bits.
-/

namespace BeanClass

inductive Constant where
  | utf8 (text : String)
  | integer (value : Int32)
  | float (bits : UInt32)
  | long (value : Int64)
  | double (bits : UInt64)
  | classRef (name : UInt16)
  | string (text : UInt16)
  | fieldRef (owner nameAndType : UInt16)
  | methodRef (owner nameAndType : UInt16)
  | interfaceMethodRef (owner nameAndType : UInt16)
  | nameAndType (name descriptor : UInt16)
  | methodHandle (kind : UInt8) (target : UInt16)
  | methodType (descriptor : UInt16)
  | dynamic (bootstrap nameAndType : UInt16)
  | invokeDynamic (bootstrap nameAndType : UInt16)
  | module (name : UInt16)
  | package (name : UInt16)
  deriving DecidableEq, Hashable, Repr

namespace Constant

def tag : Constant → UInt8
  | utf8 _ => 1
  | integer _ => 3
  | float _ => 4
  | long _ => 5
  | double _ => 6
  | classRef _ => 7
  | string _ => 8
  | fieldRef .. => 9
  | methodRef .. => 10
  | interfaceMethodRef .. => 11
  | nameAndType .. => 12
  | methodHandle .. => 15
  | methodType _ => 16
  | dynamic .. => 17
  | invokeDynamic .. => 18
  | module _ => 19
  | package _ => 20

/-- Eight-byte constants take two slots of the pool. -/
def isWide : Constant → Bool
  | long _ | double _ => true
  | _ => false

def width (c : Constant) : Nat :=
  if c.isWide then 2 else 1

/-- The pool indices that a constant refers to. -/
def references : Constant → List UInt16
  | classRef i | string i | methodType i | module i | package i | methodHandle _ i => [i]
  | fieldRef i j | methodRef i j | interfaceMethodRef i j | nameAndType i j => [i, j]
  | dynamic _ i | invokeDynamic _ i => [i]
  | _ => []

/-- What follows the tag. -/
def payload : Constant → List UInt8
  | utf8 text =>
    let bytes := Text.encode text.toList
    count16 bytes.length ++ bytes
  | integer value => be32 value.toUInt32
  | float bits => be32 bits
  | long value => be64 value.toUInt64
  | double bits => be64 bits
  | classRef i | string i | methodType i | module i | package i => be16 i
  | fieldRef i j | methodRef i j | interfaceMethodRef i j | nameAndType i j | dynamic i j
  | invokeDynamic i j => be16 i ++ be16 j
  | methodHandle kind i => kind :: be16 i

def encode (c : Constant) : List UInt8 :=
  c.tag :: c.payload

open Reader in
/-- Reads the constant for the pool index `index`. -/
def read (index : Nat) : Reader Constant := do
  match ← u8 with
  | 1 =>
    let length ← u16
    let encoded ← bytes length.toNat
    match Text.decode? encoded with
    | some text => return utf8 (String.ofList text)
    | none => throw (.invalidText index)
  | 3 => return integer (← u32).toInt32
  | 4 => return float (← u32)
  | 5 => return long (← u64).toInt64
  | 6 => return double (← u64)
  | 7 => return classRef (← u16)
  | 8 => return string (← u16)
  | 9 => return fieldRef (← u16) (← u16)
  | 10 => return methodRef (← u16) (← u16)
  | 11 => return interfaceMethodRef (← u16) (← u16)
  | 12 => return nameAndType (← u16) (← u16)
  | 15 => return methodHandle (← u8) (← u16)
  | 16 => return methodType (← u16)
  | 17 => return dynamic (← u16) (← u16)
  | 18 => return invokeDynamic (← u16) (← u16)
  | 19 => return module (← u16)
  | 20 => return package (← u16)
  | tag => throw (.unknownTag tag index)

end Constant

end BeanClass
