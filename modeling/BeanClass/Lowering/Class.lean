import BeanClass.ClassFile.Basic
import BeanClass.Lowering.Code

/-! # Lowering classes

The pool is filled in a fixed order: the class and its superclass, then fields, methods and the
attributes of the class.
-/

namespace BeanClass.Lowering

open ConstantPool (PoolM)

/-- The most entries that a 16-bit count can state. -/
def maxEntries : Nat := 65535

def checkCount (what : String) (count : Nat) : PoolM Unit :=
  if maxEntries < count then throw (.tooMany what count) else return ()

def signatureAttributes : Option String → PoolM (List RawAttribute)
  | none => return []
  | some signature => do
    let found ← textAttribute "Signature" signature
    return [found]

def sourceAttributes : Option String → PoolM (List RawAttribute)
  | none => return []
  | some name => do
    let found ← textAttribute "SourceFile" name
    return [found]

def field (f : FieldModel) : PoolM Member := do
  let nameIndex ← ConstantPool.addUtf8 f.name
  let descriptorIndex ← ConstantPool.addUtf8 f.descriptor
  let attributes ← signatureAttributes f.signature
  return { access := f.access, nameIndex, descriptorIndex, attributes }

def method (m : MethodModel) : PoolM Member := do
  let nameIndex ← ConstantPool.addUtf8 m.name
  let descriptorIndex ← ConstantPool.addUtf8 m.descriptor
  let code ← codeAttribute m
  let signature ← signatureAttributes m.signature
  return { access := m.access, nameIndex, descriptorIndex, attributes := code :: signature }

def classFileM (major : UInt16) (model : ClassModel) : PoolM ClassFile := do
  checkCount "fields" model.fields.length
  checkCount "methods" model.methods.length
  let thisClass ← ConstantPool.addClass model.internalName
  let superClass ← ConstantPool.addClass model.superName
  let fields ← model.fields.mapM field
  let methods ← model.methods.mapM method
  let signature ← signatureAttributes model.signature
  let sourceFile ← sourceAttributes model.sourceFile
  return {
    magic := classMagic
    minor := 0
    major
    pool := ← get
    access := model.access
    thisClass
    superClass
    interfaces := []
    fields
    methods
    attributes := signature ++ sourceFile }

/-- The class file of a model, with a pool of its own. -/
def classFile (major : UInt16) (model : ClassModel) : Except EncodeError ClassFile :=
  match classFileM major model ConstantPool.empty with
  | .ok cf _ => .ok cf
  | .error e _ => .error e

end BeanClass.Lowering
