import BeanClass.ClassFile.Access
import BeanClass.ClassFile.Attribute

/-! # Class files

The sections of a class file in their order, read from bytes and written back.
-/

namespace BeanClass

/-- A field or a method. -/
structure Member where
  access : UInt16
  nameIndex : UInt16
  descriptorIndex : UInt16
  attributes : List RawAttribute
  deriving DecidableEq, Repr

namespace Member

def encode (m : Member) : List UInt8 :=
  be16 m.access ++ be16 m.nameIndex ++ be16 m.descriptorIndex ++
    RawAttribute.encodeAll m.attributes

open Reader in
def read : Reader Member := do
  return ⟨← u16, ← u16, ← u16, ← RawAttribute.readAll⟩

end Member

/-- The number that every class file starts with. -/
def classMagic : UInt32 := 0xCAFEBABE

structure ClassFile where
  magic : UInt32
  minor : UInt16
  major : UInt16
  pool : ConstantPool
  access : UInt16
  thisClass : UInt16
  superClass : UInt16
  interfaces : List UInt16
  fields : List Member
  methods : List Member
  attributes : List RawAttribute

namespace ClassFile

def thisName? (cf : ClassFile) : Option String :=
  cf.pool.className? cf.thisClass

def superName? (cf : ClassFile) : Option String :=
  cf.pool.className? cf.superClass

def findField? (cf : ClassFile) (name : String) : Option Member :=
  cf.fields.find? fun f => cf.pool.utf8? f.nameIndex == some name

def findMethod? (cf : ClassFile) (name descriptor : String) : Option Member :=
  cf.methods.find? fun m =>
    cf.pool.utf8? m.nameIndex == some name && cf.pool.utf8? m.descriptorIndex == some descriptor

def encode (cf : ClassFile) : List UInt8 :=
  be32 cf.magic ++ be16 cf.minor ++ be16 cf.major ++ cf.pool.encode ++
    be16 cf.access ++ be16 cf.thisClass ++ be16 cf.superClass ++
    count16 cf.interfaces.length ++ cf.interfaces.flatMap be16 ++
    count16 cf.fields.length ++ cf.fields.flatMap Member.encode ++
    count16 cf.methods.length ++ cf.methods.flatMap Member.encode ++
    RawAttribute.encodeAll cf.attributes

open Reader in
def read : Reader ClassFile := do
  let magic ← u32
  if magic ≠ classMagic then throw (.badMagic magic)
  let minor ← u16
  let major ← u16
  let pool ← ConstantPool.read
  let access ← u16
  let thisClass ← u16
  let superClass ← u16
  let interfaces ← counted u16
  let fields ← counted Member.read
  let methods ← counted Member.read
  let attributes ← RawAttribute.readAll
  return { magic, minor, major, pool, access, thisClass, superClass, interfaces, fields, methods,
           attributes }

def decode (bytes : List UInt8) : Except DecodeError ClassFile :=
  Reader.runAll read bytes

end ClassFile

end BeanClass
