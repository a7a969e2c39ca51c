import BeanClass.Verification.Code
import BeanClass.Verification.Field

/-! # Verifying methods -/

namespace BeanClass.Verification

inductive MethodError where
  | pool (error : PoolError)
  | invalidAccess (access : UInt16)
  | invalidDescriptor (descriptor : String)
  | constructorNotVoid (descriptor : String)
  | duplicate (name descriptor : String)
  | missingCode
  | forbiddenCode
  | invalidAttribute (name : String)
  | duplicateAttribute (name : String)
  | invalidSignature (signature : String)
  | malformed (error : DecodeError)
  | code (method : String) (error : CodeError)
  /-- The descriptor cannot be cut between characters. -/
  | splitsCharacter
  deriving DecidableEq, Repr

def MethodError.message : MethodError → String
  | pool error => error.message
  | invalidAccess access => s!"Invalid method access flags: 0x{Text.hex 4 access.toNat}"
  | invalidDescriptor descriptor => s!"Invalid method descriptor '{descriptor}'"
  | constructorNotVoid descriptor => s!"Constructor must return void, found '{descriptor}'"
  | duplicate name descriptor => s!"Duplicate method {name}{descriptor}"
  | missingCode => "Method must have Code attribute unless abstract or native"
  | forbiddenCode => "Abstract or native method must not have Code attribute"
  | invalidAttribute name => s!"Invalid method attribute: {name}"
  | duplicateAttribute name => s!"Duplicate method attribute: {name}"
  | invalidSignature signature => s!"Invalid Signature '{signature}'"
  | malformed error => s!"Malformed attribute: {error.message}"
  | code method error => s!"In method {method}: {error.message}"
  | splitsCharacter => Crash.splitsCharacter.message

def MethodError.crash? : MethodError → Option Crash
  | splitsCharacter => some .splitsCharacter
  | code _ error => error.crash?
  | _ => none

/-- The stack map among the attributes of a body, which may have one at most. -/
def stackMapOf (pool : ConstantPool) (body : CodeAttribute) :
    Except MethodError (Option StackMap) :=
  match body.attributes.filter (fun a => a.name? pool == some "StackMapTable") with
  | [] => .ok none
  | [a] => do
    let table ← (StackMap.decode a.info).mapError .malformed
    .ok (some table)
  | _ => .error (.duplicateAttribute "StackMapTable")

def checkBody (pool : ConstantPool) (access : UInt16) (name descriptor : String)
    (payload : List UInt8) : Except MethodError Unit := do
  let body ← (CodeAttribute.decode payload).mapError .malformed
  let stackMap ← stackMapOf pool body
  (checkCode pool body descriptor (AccessFlag.isStatic.isIn access) stackMap).mapError (.code name)

/-- Checks one attribute of a method. The names of attributes that may occur only once are collected
in `seen`. -/
def checkMethodAttribute (pool : ConstantPool) (access : UInt16) (name descriptor : String)
    (seen : List String) (a : RawAttribute) : Except MethodError (List String) := do
  let attributeName ← (textAt pool a.nameIndex).mapError .pool
  if attributeName = "Code" then
    if attributeName ∈ seen then .error (.duplicateAttribute attributeName)
    else
      checkBody pool access name descriptor a.info
      .ok (attributeName :: seen)
  else if attributeName = "Signature" then
    if attributeName ∈ seen then .error (.duplicateAttribute attributeName)
    else match payloadIndex? a.info with
      | none => .error (.invalidAttribute attributeName)
      | some index =>
        let signature ← (textAt pool index).mapError .pool
        if Signature.isMethodSignature signature.toList then .ok (attributeName :: seen)
        else .error (.invalidSignature signature)
  else if attributeName ∈ ["ConstantValue", "StackMapTable", "SourceFile", "BootstrapMethods"] then
    .error (.invalidAttribute attributeName)
  else .ok seen

/-- A method has a body unless it is abstract or native. -/
def checkHasCode (access : UInt16) (hasCode : Bool) : Except MethodError Unit :=
  if AccessFlag.isAbstract.isIn access || AccessFlag.isNative.isIn access then
    if hasCode then .error .forbiddenCode else .ok ()
  else if hasCode then .ok () else .error .missingCode

/-- Checks a method against the names of those before it. -/
def checkMethod (cf : ClassFile) (seen : MemberNames) (method : Member) :
    Except MethodError MemberNames := do
  if !isMethodAccess cf.access method.access then .error (.invalidAccess method.access)
  else
    let name ← (textAt cf.pool method.nameIndex).mapError .pool
    let descriptor ← (textAt cf.pool method.descriptorIndex).mapError .pool
    match MethodDescriptor.split descriptor with
    | .error .malformed => .error (.invalidDescriptor descriptor)
    | .error .splitsCharacter => .error .splitsCharacter
    | .ok d =>
      if name = "<init>" ∧ d.result ≠ "V" then .error (.constructorNotVoid descriptor)
      else if seen.contains (name, descriptor) then .error (.duplicate name descriptor)
      else
        let found ← method.attributes.foldlM
          (checkMethodAttribute cf.pool method.access name descriptor) []
        checkHasCode method.access (found.contains "Code")
        .ok (seen.insert (name, descriptor))

def checkMethods (cf : ClassFile) : Except MethodError Unit := do
  let _ ← cf.methods.foldlM (checkMethod cf) ∅

end BeanClass.Verification
