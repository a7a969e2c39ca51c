import BeanClass.ClassFile.Basic
import BeanClass.ClassFile.Disassembly
import BeanClass.ClassFile.StackMap
import BeanClass.Text.Quoted
import BeanClass.Verification.Field

/-! # Inspecting class files

A summary of a class file. What was shown before a failure stays.
-/

namespace BeanClass

def Constant.describe : Constant → String
  | utf8 text => s!"Utf8({Text.quote text})"
  | integer value => s!"Integer({value.toInt})"
  | float bits => s!"Float({bits})"
  | long value => s!"Long({value.toInt})"
  | double bits => s!"Double({bits})"
  | classRef i => s!"Class({i})"
  | string i => s!"String({i})"
  | fieldRef i j => s!"FieldRef({i}, {j})"
  | methodRef i j => s!"MethodRef({i}, {j})"
  | interfaceMethodRef i j => s!"InterfaceMethodRef({i}, {j})"
  | nameAndType i j => s!"NameAndType({i}, {j})"
  | methodHandle kind i => s!"MethodHandle({kind}, {i})"
  | methodType i => s!"MethodType({i})"
  | dynamic i j => s!"Dynamic({i}, {j})"
  | invokeDynamic i j => s!"InvokeDynamic({i}, {j})"
  | module i => s!"Module({i})"
  | package i => s!"Package({i})"

/-- The flags of a class, as a number and in words. -/
def describeClassAccess (access : UInt16) : String :=
  let words : List (AccessFlag × String) :=
    [(.isPublic, "public"), (.isFinal, "final"), (.isSuper, "super"),
     (.isInterface, "interface"), (.isAbstract, "abstract")]
  let shown := words.filterMap fun (flag, word) => if flag.isIn access then some word else none
  "0x" ++ Text.hex 4 access.toNat ++ " (" ++ String.intercalate " " shown ++ ")"

/-- The text of an attribute that consists of one text. -/
def RawAttribute.text? (pool : ConstantPool) (name : String) (attributes : List RawAttribute) :
    Option String := do
  let found ← find? pool name attributes
  let index ← Verification.payloadIndex? found.info
  pool.utf8? index

namespace Inspection

inductive Failure where
  | unnamedClass
  | malformed (error : DecodeError)
  deriving DecidableEq, Repr

def Failure.message : Failure → String
  | unnamedClass => "this_class is not a class constant"
  | malformed error => error.message

/-- Shows lines; the state holds what was shown before. -/
abbrev Show := EStateM Failure String

def line (text : String) : Show Unit :=
  modify (· ++ text ++ "\n")

def orFail {α : Type} : Except DecodeError α → Show α
  | .ok a => return a
  | .error e => throw (.malformed e)

def signatureLine (pool : ConstantPool) (attributes : List RawAttribute) : Show Unit :=
  match RawAttribute.text? pool "Signature" attributes with
  | some signature => line s!"  signature: {signature}"
  | none => return ()

def sourceLine (cf : ClassFile) : Show Unit :=
  match RawAttribute.text? cf.pool "SourceFile" cf.attributes with
  | some source => line s!"  source: {source}"
  | none => return ()

def showField (pool : ConstantPool) (f : Member) : Show Unit := do
  line ""
  let words := String.intercalate " " (describeAccess f.access)
  let name := (pool.utf8? f.nameIndex).getD "?"
  let descriptor := (pool.utf8? f.descriptorIndex).getD "?"
  line s!"{words} {name} : {descriptor}"
  signatureLine pool f.attributes

def showStackMap (pool : ConstantPool) (code : CodeAttribute) : Show Unit :=
  match RawAttribute.find? pool "StackMapTable" code.attributes with
  | none => return ()
  | some found => do
    line "  StackMapTable:"
    let table ← orFail (StackMap.decode found.info)
    table.describe.forM fun text => line ("    " ++ text)

def showCode (pool : ConstantPool) (payload : List UInt8) : Show Unit := do
  let code ← orFail (CodeAttribute.decode payload)
  line s!"  Code: max_stack={code.maxStack}, max_locals={code.maxLocals}"
  let lines ← orFail (Disassembly.lines pool code.code)
  lines.forM fun text => line ("    " ++ text)
  showStackMap pool code

def showMethod (pool : ConstantPool) (m : Member) : Show Unit := do
  line ""
  let words := String.intercalate " " (describeAccess m.access)
  let name := (pool.utf8? m.nameIndex).getD "?"
  let descriptor := (pool.utf8? m.descriptorIndex).getD "?"
  line s!"{words} {name}{descriptor}"
  signatureLine pool m.attributes
  match RawAttribute.find? pool "Code" m.attributes with
  | none => return ()
  | some found => showCode pool found.info

def showConstants (pool : ConstantPool) : Show Unit := do
  line ""
  line s!"Constant pool ({pool.count - 1} slots):"
  pool.entries.forM fun (index, constant) =>
    line ("  #" ++ Text.padRight 4 (toString index) ++ " " ++ constant.describe)

def showClass (cf : ClassFile) (constants : Bool) : Show Unit := do
  match cf.thisName? with
  | none => throw .unnamedClass
  | some name =>
    line s!"class {name} (version {cf.major}.{cf.minor})"
    line s!"  flags: {describeClassAccess cf.access}"
    let superName := cf.superName?.getD "<none>"
    line s!"  extends {superName}"
    signatureLine cf.pool cf.attributes
    sourceLine cf
    if constants then showConstants cf.pool
    cf.fields.forM (showField cf.pool)
    cf.methods.forM (showMethod cf.pool)

end Inspection

end BeanClass
