import BeanClass.ClassFile.Basic

/-! # Verifying the constant pool

Every constant refers to constants of the right kind.
-/

namespace BeanClass.Verification

inductive PoolError where
  | invalidIndex (index : UInt16)
  | invalidKind (index : UInt16)
  | missingBootstrapMethods
  deriving DecidableEq, Repr

def PoolError.message : PoolError → String
  | invalidIndex index => s!"Invalid constant pool index {index}"
  | invalidKind index => s!"Invalid constant pool index type {index}"
  | missingBootstrapMethods => "BootstrapMethods attribute not defined"

/-- The failure of a look-up that did not find a constant of the right kind. -/
def PoolError.at (index : UInt16) : Option Constant → PoolError
  | none => invalidIndex index
  | some _ => invalidKind index

def textAt (pool : ConstantPool) (index : UInt16) : Except PoolError String :=
  match pool.get? index with
  | some (.utf8 text) => .ok text
  | found => .error (.at index found)

/-- The internal name of a class constant. -/
def classAt (pool : ConstantPool) (index : UInt16) : Except PoolError String :=
  match pool.get? index with
  | some (.classRef name) => textAt pool name
  | found => .error (.at index found)

def checkNameAndType (pool : ConstantPool) (index : UInt16) : Except PoolError Unit :=
  match pool.get? index with
  | some (.nameAndType _ _) => .ok ()
  | found => .error (.at index found)

def checkMember (pool : ConstantPool) (index : UInt16) : Except PoolError Unit :=
  match pool.get? index with
  | some (.fieldRef _ _) | some (.methodRef _ _) | some (.interfaceMethodRef _ _) => .ok ()
  | found => .error (.at index found)

/-- A constant is checked one level deep: those that it refers to are checked in their turn. -/
def checkConstant (pool : ConstantPool) (hasBootstrap : Bool) : Constant → Except PoolError Unit
  | .classRef i | .module i | .package i | .string i | .methodType i => do
    let _ ← textAt pool i
  | .fieldRef i j | .methodRef i j | .interfaceMethodRef i j => do
    let _ ← classAt pool i
    checkNameAndType pool j
  | .nameAndType i j => do
    let _ ← textAt pool i
    let _ ← textAt pool j
  | .methodHandle _ i => checkMember pool i
  | .dynamic _ i | .invokeDynamic _ i =>
    if hasBootstrap then checkNameAndType pool i else .error .missingBootstrapMethods
  | .utf8 _ | .integer _ | .float _ | .long _ | .double _ => .ok ()

def checkPool (cf : ClassFile) : Except PoolError Unit :=
  let hasBootstrap := cf.attributes.any fun a => a.name? cf.pool == some "BootstrapMethods"
  cf.pool.entries.forM fun (_, constant) => checkConstant cf.pool hasBootstrap constant

end BeanClass.Verification
