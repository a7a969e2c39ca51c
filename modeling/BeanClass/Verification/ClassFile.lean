import BeanClass.Verification.Method

/-! # Verifying class files

The checks of all parts, in the order in which their failures are reported.
-/

namespace BeanClass.Verification

inductive AttributeError where
  | pool (error : PoolError)
  | duplicate (name : String)
  | invalidSignature (signature : String)
  | invalidContent (name : String)
  | misplaced (name : String)
  deriving DecidableEq, Repr

def AttributeError.message : AttributeError → String
  | pool error => error.message
  | duplicate name => s!"Duplicate class attribute: {name}"
  | invalidSignature signature => s!"Invalid class Signature '{signature}'"
  | invalidContent name => s!"Invalid attribute content: {name}"
  | misplaced name => s!"Attribute {name} is not allowed on a class"

inductive VerifyError where
  | badMagic (magic : UInt32)
  | unsupportedVersion (major minor : UInt16)
  | invalidClassName (name : String)
  | missingSuperclass
  | pool (error : PoolError)
  | invalidAccess (access : UInt16)
  | field (error : FieldError)
  | method (error : MethodError)
  | attributes (error : AttributeError)
  deriving DecidableEq, Repr

def VerifyError.message : VerifyError → String
  | badMagic magic => s!"Bad magic number 0x{Text.hex 8 magic.toNat}"
  | unsupportedVersion major minor => s!"Unsupported class file version {major}.{minor}"
  | invalidClassName name => s!"Invalid class name '{name}'"
  | missingSuperclass => "Missing superclass"
  | pool error => error.message
  | invalidAccess access => s!"Invalid class access flags: 0x{Text.hex 4 access.toNat}"
  | field error => error.message
  | method error => error.message
  | attributes error => error.message

def VerifyError.crash? : VerifyError → Option Crash
  | method error => error.crash?
  | _ => none

/-- Checks one attribute of a class. The names of attributes that may occur only once are collected
in `seen`. -/
def checkClassAttribute (pool : ConstantPool) (seen : List String) (a : RawAttribute) :
    Except AttributeError (List String) := do
  let name ← (textAt pool a.nameIndex).mapError .pool
  if name = "Signature" ∨ name = "SourceFile" then
    if name ∈ seen then .error (.duplicate name)
    else match payloadIndex? a.info with
      | none => .error (.invalidContent name)
      | some index =>
        let text ← (textAt pool index).mapError .pool
        if name = "SourceFile" || Signature.isClassSignature text.toList then .ok (name :: seen)
        else .error (.invalidSignature text)
  else if name ∈ ["Code", "StackMapTable", "ConstantValue"] then .error (.misplaced name)
  else .ok seen

def checkClassAttributes (cf : ClassFile) : Except AttributeError Unit := do
  let _ ← cf.attributes.foldlM (checkClassAttribute cf.pool) []

def minMajor : UInt16 := 50
def maxMajor : UInt16 := 65

def isSupportedMajor (major : UInt16) : Bool :=
  minMajor ≤ major && major ≤ maxMajor

/-- A class constant with a well-formed name. -/
def checkClassName (pool : ConstantPool) (index : UInt16) : Except VerifyError Unit := do
  let name ← (classAt pool index).mapError .pool
  if isInternalName name.toList then .ok () else .error (.invalidClassName name)

/-- Only the root class and modules have no superclass. -/
def checkSuperclass (cf : ClassFile) : Except VerifyError Unit :=
  if cf.superClass = 0 then
    if AccessFlag.isModule.isIn cf.access || cf.thisName? == some "java/lang/Object" then .ok ()
    else .error .missingSuperclass
  else checkClassName cf.pool cf.superClass

def checkInterfaces (cf : ClassFile) : Except PoolError Unit :=
  cf.interfaces.forM fun index => do
    let _ ← classAt cf.pool index

def verify (cf : ClassFile) : Except VerifyError Unit := do
  if cf.magic ≠ classMagic then throw (.badMagic cf.magic)
  if !isSupportedMajor cf.major then throw (.unsupportedVersion cf.major cf.minor)
  (checkPool cf).mapError .pool
  if !isClassAccess cf.thisName? cf.access then throw (.invalidAccess cf.access)
  checkClassName cf.pool cf.thisClass
  checkSuperclass cf
  (checkInterfaces cf).mapError .pool
  (checkFields cf).mapError .field
  (checkMethods cf).mapError .method
  (checkClassAttributes cf).mapError .attributes

end BeanClass.Verification
