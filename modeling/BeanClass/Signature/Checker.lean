import BeanClass.Descriptor

/-! # Checking signatures

Each function reads one phrase off the front of a text and gives the rest. The number bounds the
nesting of calls; a text is never nested deeper than a multiple of its length.
-/

namespace BeanClass.Signature

def isIdentifierChar (c : Char) : Bool :=
  !(c == '/' || c == ';' || c == '<' || c == '>' || c == ':' || c == '.' || c == '[')

/-- One or more characters without a meaning of their own. -/
def identifier? : List Char → Option (List Char)
  | [] => none
  | c :: s => if isIdentifierChar c then some (s.dropWhile isIdentifierChar) else none

def expect? (c : Char) : List Char → Option (List Char)
  | [] => none
  | d :: s => if d = c then some s else none

/-- A type variable behind its `T`. -/
def typeVariable? (s : List Char) : Option (List Char) :=
  (identifier? s).bind (expect? ';')

mutual

/-- A class type, a type variable or an array. -/
def reference? : Nat → List Char → Option (List Char)
  | 0, _ => none
  | _, [] => none
  | n + 1, c :: s =>
    if c = 'L' then segments? n s
    else if c = 'T' then typeVariable? s
    else if c = '[' then javaType? n s
    else none

/-- A base type or a reference type. -/
def javaType? : Nat → List Char → Option (List Char)
  | 0, _ => none
  | _, [] => none
  | n + 1, c :: s => if isBaseType c then some s else reference? n (c :: s)

/-- The names of a class type behind its `L`, each with optional type arguments. -/
def segments? : Nat → List Char → Option (List Char)
  | 0, _ => none
  | n + 1, s =>
    match identifier? s with
    | none => none
    | some ('<' :: s) =>
      match arguments? n s with
      | none => none
      | some s => segmentsEnd? n s
    | some s => segmentsEnd? n s

/-- Another segment, or the semicolon that ends the class type. -/
def segmentsEnd? : Nat → List Char → Option (List Char)
  | 0, _ => none
  | _, [] => none
  | n + 1, c :: s =>
    if c = '/' ∨ c = '.' then segments? n s else if c = ';' then some s else none

/-- Type arguments behind their `<`. -/
def arguments? : Nat → List Char → Option (List Char)
  | 0, _ => none
  | _, [] => none
  | n + 1, c :: s =>
    if c = '*' then argumentsEnd? n s
    else
      match reference? n (if c = '+' ∨ c = '-' then s else c :: s) with
      | none => none
      | some s => argumentsEnd? n s

/-- The end of the type arguments, or another one. -/
def argumentsEnd? : Nat → List Char → Option (List Char)
  | 0, _ => none
  | _, [] => none
  | n + 1, c :: s => if c = '>' then some s else arguments? n (c :: s)

end

/-- A bound on the nesting of calls for a text of this length. -/
def depth (s : List Char) : Nat :=
  4 * s.length + 4

def classType? (n : Nat) (s : List Char) : Option (List Char) :=
  (expect? 'L' s).bind (segments? n)

/-- The bounds of a type parameter behind the first one. -/
def bounds? (n : Nat) : Nat → List Char → Option (List Char)
  | 0, _ => none
  | k + 1, ':' :: s => (reference? n s).bind (bounds? n k)
  | _, s => some s

/-- A type parameter. Its first bound may be missing before another bound and before the end of the
list. -/
def parameter? (n k : Nat) (s : List Char) : Option (List Char) := do
  let s ← identifier? s
  let s ← expect? ':' s
  let s ← if s.head? = some ':' ∨ s.head? = some '>' then some s else reference? n s
  bounds? n k s

/-- One or more type parameters behind their `<`. -/
def parameters? (n : Nat) : Nat → List Char → Option (List Char)
  | 0, _ => none
  | k + 1, s => do
    let s ← parameter? n k s
    if s.head? = some '>' then some s.tail else parameters? n k s

/-- Type parameters, if the text starts with them. -/
def optionalParameters? (n : Nat) : List Char → Option (List Char)
  | '<' :: s => parameters? n n s
  | s => some s

/-- One or more class types that fill the text. -/
def classTypes (n : Nat) : Nat → List Char → Bool
  | 0, _ => false
  | k + 1, s =>
    match classType? n s with
    | none => false
    | some [] => true
    | some s => classTypes n k s

/-- The parameter types of a method up to the closing parenthesis. -/
def methodParameters? (n : Nat) : Nat → List Char → Option (List Char)
  | 0, _ => none
  | _, ')' :: s => some s
  | k + 1, s => (javaType? n s).bind (methodParameters? n k)

/-- The exceptions that fill the rest of the text. -/
def throws (n : Nat) : Nat → List Char → Bool
  | 0, _ => false
  | _, [] => true
  | k + 1, '^' :: s =>
    match (if s.head? = some 'T' then typeVariable? s.tail else classType? n s) with
    | none => false
    | some s => throws n k s
  | _, _ => false

/-- Type parameters, the superclass and the interfaces. -/
def isClassSignature (s : List Char) : Bool :=
  match optionalParameters? (depth s) s with
  | none => false
  | some rest => classTypes (depth s) (depth s) rest

def isFieldSignature (s : List Char) : Bool :=
  javaType? (depth s) s == some []

/-- Type parameters, parameter types, the result and exceptions. -/
def isMethodSignature (s : List Char) : Bool :=
  let rest := do
    let rest ← optionalParameters? (depth s) s
    let rest ← expect? '(' rest
    let rest ← methodParameters? (depth s) (depth s) rest
    if rest.head? = some 'V' then some rest.tail else javaType? (depth s) rest
  match rest with
  | none => false
  | some rest => throws (depth s) (depth s) rest

end BeanClass.Signature
