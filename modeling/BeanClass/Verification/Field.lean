import BeanClass.Signature.Checker
import BeanClass.Verification.Access
import BeanClass.Verification.Pool
import BeanClass.Descriptor
import Std.Data.HashSet

/-! # Verifying fields -/

namespace BeanClass.Verification

inductive FieldError where
  | pool (error : PoolError)
  | invalidName (name : String)
  | invalidDescriptor (descriptor : String)
  | duplicate (name : String)
  | invalidAccess (access : UInt16)
  | invalidAttribute (name : String)
  | duplicateAttribute (name : String)
  | invalidSignature (signature : String)
  | constantOnInstanceField
  | invalidConstant
  deriving DecidableEq, Repr

def FieldError.message : FieldError → String
  | pool error => error.message
  | invalidName name => s!"Invalid field name '{name}'"
  | invalidDescriptor descriptor => s!"Invalid field descriptor '{descriptor}'"
  | duplicate name => s!"Duplicate field '{name}'"
  | invalidAccess access => s!"Invalid field access flags: 0x{Text.hex 4 access.toNat}"
  | invalidAttribute name => s!"Invalid field attribute: {name}"
  | duplicateAttribute name => s!"Duplicate field attribute: {name}"
  | invalidSignature signature => s!"Invalid Signature '{signature}'"
  | constantOnInstanceField => "ConstantValue on non-static field"
  | invalidConstant => "ConstantValue refers to invalid constant kind for field"

/-- Names and descriptors of the members seen so far. -/
abbrev MemberNames := Std.HashSet (String × String)

/-- The index that a payload of two bytes holds. -/
def payloadIndex? : List UInt8 → Option UInt16
  | [a, b] => some (join16 a b)
  | _ => none

def isFieldName (s : List Char) : Bool :=
  !s.isEmpty && s.all fun c => !(c == '.' || c == ';' || c == '[' || c == '/')

def isConstantValue : Constant → Bool
  | .integer _ | .float _ | .long _ | .double _ | .string _ => true
  | _ => false

/-- Checks one attribute of a field. The names of attributes that may occur only once are collected
in `seen`. -/
def checkFieldAttribute (pool : ConstantPool) (access : UInt16) (seen : List String)
    (a : RawAttribute) : Except FieldError (List String) := do
  let name ← (textAt pool a.nameIndex).mapError .pool
  if name = "ConstantValue" then
    if name ∈ seen then .error (.duplicateAttribute name)
    else if !AccessFlag.isStatic.isIn access then .error .constantOnInstanceField
    else match payloadIndex? a.info with
      | none => .error (.invalidAttribute name)
      | some index =>
        if (pool.get? index).any isConstantValue then .ok (name :: seen)
        else .error .invalidConstant
  else if name = "Signature" then
    if name ∈ seen then .error (.duplicateAttribute name)
    else match payloadIndex? a.info with
      | none => .error (.invalidAttribute name)
      | some index =>
        let signature ← (textAt pool index).mapError .pool
        if Signature.isFieldSignature signature.toList then .ok (name :: seen)
        else .error (.invalidSignature signature)
  else if name ∈ ["Code", "StackMapTable", "SourceFile", "BootstrapMethods"] then
    .error (.invalidAttribute name)
  else .ok seen

/-- Checks a field against the names of those before it. -/
def checkField (cf : ClassFile) (seen : MemberNames) (field : Member) :
    Except FieldError MemberNames := do
  let name ← (textAt cf.pool field.nameIndex).mapError .pool
  if !isFieldName name.toList then .error (.invalidName name)
  else
    let descriptor ← (textAt cf.pool field.descriptorIndex).mapError .pool
    if !isFieldDescriptor descriptor.toList then .error (.invalidDescriptor descriptor)
    else if seen.contains (name, descriptor) then .error (.duplicate name)
    else if !isFieldAccess cf.access field.access then .error (.invalidAccess field.access)
    else
      let _ ← field.attributes.foldlM (checkFieldAttribute cf.pool field.access) []
      .ok (seen.insert (name, descriptor))

def checkFields (cf : ClassFile) : Except FieldError Unit := do
  let _ ← cf.fields.foldlM (checkField cf) ∅

end BeanClass.Verification
