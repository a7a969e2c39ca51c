import BeanClass.ClassFile.Pool

/-! # Attributes

An attribute is a named run of bytes. The payload of a `Code` attribute has attributes of its own.
-/

namespace BeanClass

structure RawAttribute where
  nameIndex : UInt16
  info : List UInt8
  deriving DecidableEq, Repr

namespace RawAttribute

def name? (pool : ConstantPool) (a : RawAttribute) : Option String :=
  pool.utf8? a.nameIndex

def find? (pool : ConstantPool) (name : String) (attributes : List RawAttribute) :
    Option RawAttribute :=
  attributes.find? fun a => a.name? pool == some name

def encode (a : RawAttribute) : List UInt8 :=
  be16 a.nameIndex ++ count32 a.info.length ++ a.info

def encodeAll (attributes : List RawAttribute) : List UInt8 :=
  count16 attributes.length ++ attributes.flatMap encode

open Reader in
def read : Reader RawAttribute := do
  let nameIndex ← u16
  let length ← u32
  let info ← bytes length.toNat
  return ⟨nameIndex, info⟩

def readAll : Reader (List RawAttribute) :=
  Reader.counted read

end RawAttribute

structure ExceptionEntry where
  start : UInt16
  stop : UInt16
  handler : UInt16
  catchType : UInt16
  deriving DecidableEq, Repr

namespace ExceptionEntry

def encode (e : ExceptionEntry) : List UInt8 :=
  be16 e.start ++ be16 e.stop ++ be16 e.handler ++ be16 e.catchType

open Reader in
def read : Reader ExceptionEntry := do
  return ⟨← u16, ← u16, ← u16, ← u16⟩

end ExceptionEntry

structure CodeAttribute where
  maxStack : UInt16
  maxLocals : UInt16
  code : List UInt8
  exceptions : List ExceptionEntry
  attributes : List RawAttribute
  deriving DecidableEq, Repr

namespace CodeAttribute

def encode (c : CodeAttribute) : List UInt8 :=
  be16 c.maxStack ++ be16 c.maxLocals ++ count32 c.code.length ++ c.code ++
    count16 c.exceptions.length ++ c.exceptions.flatMap ExceptionEntry.encode ++
    RawAttribute.encodeAll c.attributes

open Reader in
def read : Reader CodeAttribute := do
  let maxStack ← u16
  let maxLocals ← u16
  let length ← u32
  let code ← bytes length.toNat
  let exceptions ← counted ExceptionEntry.read
  let attributes ← RawAttribute.readAll
  return { maxStack, maxLocals, code, exceptions, attributes }

def decode (payload : List UInt8) : Except DecodeError CodeAttribute :=
  (Reader.runAll read payload).mapError .inCode

end CodeAttribute

end BeanClass
