import BeanClass.ClassFile.Access
import BeanClass.Text.Cut

/-! # Verifying access flags

The combinations of flags that classes, methods and fields may have.
-/

namespace BeanClass.Verification

open AccessFlag

/-- An interface is abstract, unless it only describes a package. -/
def isClassAccess (name : Option String) (access : UInt16) : Bool :=
  if isInterface.isIn access then
    let describesPackage :=
      name.any fun name => Text.afterLast '/' name.toList == "package-info".toList
    (isAbstract.isIn access || describesPackage) &&
      !(isFinal.isIn access || isSuper.isIn access || isEnum.isIn access || isModule.isIn access)
  else !isAnnotationType.isIn access && !(isFinal.isIn access && isAbstract.isIn access)

/-- At most one of the three visibilities is stated. -/
def hasOneVisibility (access : UInt16) : Bool :=
  !((isPublic.isIn access && isProtected.isIn access) ||
    (isPublic.isIn access && isPrivate.isIn access) ||
    (isProtected.isIn access && isPrivate.isIn access))

/-- The access flags of a method in a class with the given flags. -/
def isMethodAccess (owner access : UInt16) : Bool :=
  hasOneVisibility access &&
    !(isInterface.isIn owner &&
      (isProtected.isIn access || isFinal.isIn access || isSuper.isIn access ||
        isNative.isIn access)) &&
    !(isAbstract.isIn access &&
      (isPrivate.isIn access || isStatic.isIn access || isFinal.isIn access ||
        isSuper.isIn access || isNative.isIn access || isStrict.isIn access))

/-- The access flags of a field in a class with the given flags. -/
def isFieldAccess (owner access : UInt16) : Bool :=
  hasOneVisibility access &&
    if isInterface.isIn owner then
      isPublic.isIn access && isStatic.isIn access && isFinal.isIn access &&
        !(isPrivate.isIn access || isProtected.isIn access || isVolatile.isIn access ||
          isTransient.isIn access || isEnum.isIn access)
    else !(isFinal.isIn access && isVolatile.isIn access)

end BeanClass.Verification
