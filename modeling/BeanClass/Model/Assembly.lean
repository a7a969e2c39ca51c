import BeanClass.ClassFile.Access
import BeanClass.Model.Class
import BeanClass.Signature.Basic
import BeanClass.Source.Declaration
import BeanClass.Source.Fault

/-! # Assembling accessor classes

A class starts with a constructor. Each attribute adds a private field, a getter and a setter.
-/

namespace BeanClass

/-- An attribute whose type is resolved. -/
structure AttributeSpec where
  name : String
  descriptor : String
  signature : Option String
  nullability : Nullability
  deriving DecidableEq, Repr

/-- A class under construction. -/
structure Assembly where
  internalName : String
  signature : Option String
  sourceFile : Option String
  fields : Array FieldModel
  methods : Array MethodModel

def constructorName : String := "<init>"

/-- The constructor without parameters of the given class. -/
def plainConstructor (owner : String) : MemberRef :=
  ⟨owner, constructorName, "()V"⟩

/-- What a setter throws instead of storing null. -/
def nullFailure : String := "java/lang/NullPointerException"

namespace Assembly

/-- Does nothing but call the constructor of the root class. -/
def defaultConstructor : MethodModel where
  access := AccessFlag.isPublic.mask
  name := constructorName
  descriptor := "()V"
  signature := none
  maxStack := 1
  maxLocals := 1
  body := [.load .reference 0, .invokeSpecial (plainConstructor rootClass), .ret none]

/-- Starts the class with the given dotted name. -/
def start (name : String) (parameters : List String) (sourceFile : Option String) : Assembly where
  internalName := Name.internal name
  signature := Signature.ofParameters? parameters
  sourceFile := sourceFile
  fields := #[]
  methods := #[defaultConstructor]

def fieldOf (spec : AttributeSpec) : FieldModel :=
  ⟨AccessFlag.isPrivate.mask, spec.name, spec.descriptor, spec.signature⟩

def getterOf (owner : String) (spec : AttributeSpec) : MethodModel :=
  let kind := ValueKind.ofDescriptor spec.descriptor
  { access := AccessFlag.isPublic.mask
    name := Name.getter spec.name spec.descriptor
    descriptor := MethodDescriptor.ofGetter spec.descriptor
    signature := spec.signature.map Signature.ofGetter
    maxStack := kind.slots
    maxLocals := kind.slots
    body := [.load .reference 0, .getField ⟨owner, spec.name, spec.descriptor⟩, .ret (some kind)] }

/-- Throws if the value on top of the stack is null, and leaves the stack as it is otherwise. -/
def nullCheck (owner descriptor : String) : List Instruction :=
  let types := [.object owner, FrameType.ofDescriptor descriptor]
  [.dup, .ifNonNull 0, .new nullFailure, .dup, .invokeSpecial (plainConstructor nullFailure),
    .athrow, .label 0, .frame types types]

def setterOf (owner : String) (spec : AttributeSpec) : MethodModel :=
  let kind := ValueKind.ofDescriptor spec.descriptor
  let checks := spec.nullability.rejectsNull
  { access := AccessFlag.isPublic.mask
    name := Name.setter spec.name
    descriptor := MethodDescriptor.ofSetter spec.descriptor
    signature := spec.signature.map Signature.ofSetter
    maxStack := kind.slots + if checks then 3 else 1
    maxLocals := kind.slots + 1
    body :=
      [.load .reference 0, .load kind 1] ++
        (if checks then nullCheck owner spec.descriptor else []) ++
        [.putField ⟨owner, spec.name, spec.descriptor⟩, .ret none] }

def hasField (a : Assembly) (name descriptor : String) : Bool :=
  a.fields.any fun f => f.name == name && f.descriptor == descriptor

def hasMethod (a : Assembly) (name descriptor : String) : Bool :=
  a.methods.any fun m => m.name == name && m.descriptor == descriptor

/-- A step that may extend the class; what it stored before a failure stays. -/
abbrev AssemblyM := EStateM LineFault Assembly

def refuseClash (method : MethodModel) : AssemblyM Unit := do
  if (← get).hasMethod method.name method.descriptor then
    throw (.accessorClash method.name method.descriptor)

def storeMethod (method : MethodModel) : AssemblyM Unit :=
  modify fun a => { a with methods := a.methods.push method }

def storeField (field : FieldModel) : AssemblyM Unit :=
  modify fun a => { a with fields := a.fields.push field }

/-- Stores the field and the accessors of an attribute, unless they clash with those before. -/
def enter (spec : AttributeSpec) : AssemblyM Unit := do
  let a ← get
  if a.hasField spec.name spec.descriptor then
    throw (.duplicateAttribute spec.name spec.descriptor)
  if spec.nullability.rejectsNull && ValueKind.ofDescriptor spec.descriptor != .reference then
    throw (.rejectedNull spec.name)
  let getter := getterOf a.internalName spec
  let setter := setterOf a.internalName spec
  refuseClash getter
  refuseClash setter
  storeMethod getter
  storeMethod setter
  storeField (fieldOf spec)

/-- The class with one more attribute. -/
def add (a : Assembly) (spec : AttributeSpec) : Except LineFault Assembly :=
  match enter spec a with
  | .ok _ b => .ok b
  | .error fault _ => .error fault

def finish (a : Assembly) : ClassModel where
  access := AccessFlag.isPublic.mask ||| AccessFlag.isSuper.mask
  internalName := a.internalName
  superName := rootClass
  signature := a.signature
  sourceFile := a.sourceFile
  fields := a.fields.toList
  methods := a.methods.toList

end Assembly

end BeanClass
