import BeanClass.Types.Expr
import BeanClass.Types.Scope

/-! # Resolving types

A resolved type has a field descriptor and, if its shape is generic, a signature.
-/

namespace BeanClass

structure ResolvedType where
  descriptor : String
  signature : Option String
  deriving DecidableEq, Repr

/-- The internal name of the class at the top of the hierarchy. -/
def rootClass : String := "java/lang/Object"

/-- The descriptor of a class with the given internal name. -/
def classDescriptor (name : String) : String :=
  "L" ++ name ++ ";"

namespace ResolvedType

/-- The signature of a generic type, the descriptor of any other. -/
def genericForm (t : ResolvedType) : String :=
  t.signature.getD t.descriptor

/-- A type variable is erased to the root class. -/
def ofVariable (name : String) : ResolvedType :=
  ⟨classDescriptor rootClass, some ("T" ++ name ++ ";")⟩

def ofClass (name : String) (args : List ResolvedType) : ResolvedType where
  descriptor := classDescriptor name
  signature :=
    if args.isEmpty then none
    else some ("L" ++ name ++ "<" ++ String.join (args.map genericForm) ++ ">;")

def array (t : ResolvedType) (dims : Nat) : ResolvedType :=
  let brackets := String.ofList (List.replicate dims '[')
  ⟨brackets ++ t.descriptor, t.signature.map (brackets ++ ·)⟩

end ResolvedType

namespace Scope

/-- What a raw type name stands for. -/
inductive Referent where
  | type (internalName : String)
  | parameter (name : String)
  deriving DecidableEq, Repr

/-- Imports come first, then known types, also those of the language package, and type parameters
last. -/
def find? (scope : Scope) (raw : String) : Option Referent :=
  match scope.imports.find? raw with
  | some name => some (.type (Name.internal name))
  | none =>
    if Name.isQualified raw.toList && scope.isKnown raw then
      some (.type (Name.internal raw))
    else if Name.isQualified raw.toList && scope.isKnown ("java.lang." ++ raw) then
      some (.type (Name.internal ("java.lang." ++ raw)))
    else if raw ∈ scope.parameters then some (.parameter raw)
    else none

mutual

/-- Primitive types are accepted if `primitives` is set, and always as elements of an array. Type
arguments are resolved before the name they belong to and are never primitive. -/
def resolveExpr (scope : Scope) (primitives : Bool) : TypeExpr → Except TypeError ResolvedType
  | ⟨raw, args, dims⟩ =>
    let primitive := if args.isEmpty then primitiveDescriptor? raw else none
    match primitive with
    | some descriptor =>
      if primitives || 0 < dims then .ok (ResolvedType.array ⟨descriptor, none⟩ dims)
      else .error (.primitiveArgument raw)
    | none => do
      let resolved ← resolveArgs scope args
      match scope.find? raw, args with
      | some (.type name), _ => .ok ((ResolvedType.ofClass name resolved).array dims)
      | some (.parameter name), [] => .ok ((ResolvedType.ofVariable name).array dims)
      | _, _ => .error (.unresolved (TypeExpr.render ⟨raw, args, 0⟩))

def resolveArgs (scope : Scope) : List TypeExpr → Except TypeError (List ResolvedType)
  | [] => .ok []
  | arg :: args => do
    let first ← resolveExpr scope false arg
    let rest ← resolveArgs scope args
    .ok (first :: rest)

end

/-- Resolves the text of a type. -/
def resolve (scope : Scope) (text : String) (primitives : Bool) : Except TypeError ResolvedType := do
  let expr ← TypeExpr.parse text.toList
  scope.resolveExpr primitives expr

end Scope

end BeanClass
