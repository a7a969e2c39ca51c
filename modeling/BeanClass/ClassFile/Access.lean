/-! # Access flags -/

namespace BeanClass

inductive AccessFlag where
  | isPublic
  | isPrivate
  | isProtected
  | isStatic
  | isFinal
  /-- On classes; methods use the same bit for `synchronized`. -/
  | isSuper
  | isVolatile
  | isTransient
  | isNative
  | isInterface
  | isAbstract
  | isStrict
  | isAnnotationType
  | isEnum
  | isModule
  deriving DecidableEq, Repr

namespace AccessFlag

def mask : AccessFlag → UInt16
  | isPublic => 0x0001
  | isPrivate => 0x0002
  | isProtected => 0x0004
  | isStatic => 0x0008
  | isFinal => 0x0010
  | isSuper => 0x0020
  | isVolatile => 0x0040
  | isTransient => 0x0080
  | isNative => 0x0100
  | isInterface => 0x0200
  | isAbstract => 0x0400
  | isStrict => 0x0800
  | isAnnotationType => 0x2000
  | isEnum => 0x4000
  | isModule => 0x8000

/-- Whether the flag is set in the access word. -/
def isIn (flag : AccessFlag) (access : UInt16) : Bool :=
  access &&& flag.mask != 0

/-- The keywords of a member, in the order in which they are shown. -/
def memberKeywords : List (AccessFlag × String) :=
  [(isPublic, "public"), (isPrivate, "private"), (isProtected, "protected"),
   (isStatic, "static"), (isFinal, "final"), (isVolatile, "volatile"),
   (isTransient, "transient"), (isAbstract, "abstract")]

end AccessFlag

def describeAccess (access : UInt16) : List String :=
  AccessFlag.memberKeywords.filterMap fun (flag, keyword) =>
    if flag.isIn access then some keyword else none

end BeanClass
