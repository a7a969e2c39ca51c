import BeanClass.Types.Resolution

/-! # Signatures

The generic form of a class, a field or an accessor.
-/

namespace BeanClass.Signature

/-- Each type parameter is bounded by the root class, which is also the superclass; a class without
type parameters has no signature. -/
def ofParameters? (parameters : List String) : Option String :=
  if parameters.isEmpty then none
  else some ("<" ++ String.join (parameters.map (· ++ ":" ++ classDescriptor rootClass)) ++ ">" ++
    classDescriptor rootClass)

def ofGetter (field : String) : String :=
  "()" ++ field

def ofSetter (field : String) : String :=
  "(" ++ field ++ ")V"

end BeanClass.Signature
