import BeanClass.Model.Instruction

/-! # Class models

A class before it is lowered to a class file.
-/

namespace BeanClass

structure FieldModel where
  access : UInt16
  name : String
  descriptor : String
  signature : Option String
  deriving DecidableEq, Repr

structure MethodModel where
  access : UInt16
  name : String
  descriptor : String
  signature : Option String
  maxStack : UInt16
  maxLocals : UInt16
  body : List Instruction
  deriving DecidableEq, Repr

structure ClassModel where
  access : UInt16
  internalName : String
  superName : String
  signature : Option String
  sourceFile : Option String
  fields : List FieldModel
  methods : List MethodModel
  deriving DecidableEq, Repr

namespace ClassModel

def findField? (model : ClassModel) (name : String) : Option FieldModel :=
  model.fields.find? (·.name == name)

def findMethod? (model : ClassModel) (name : String) : Option MethodModel :=
  model.methods.find? (·.name == name)

end ClassModel

end BeanClass
