import Mathlib

/-! # The grammar of signatures

The texts of types, type parameters and whole signatures, said without a reader.
-/

namespace BeanClass.Signature

/-- One or more characters without a meaning of their own. -/
structure IsIdentifier (s : List Char) : Prop where
  ne_nil : s ≠ []
  chars : ∀ c ∈ s, c ∉ ['/', ';', '<', '>', ':', '.', '[']

/-- The kinds of phrases of a signature that nest in each other. -/
inductive Nonterminal where
  | javaType
  | reference
  | typeVariable
  | classType
  /-- Segments between slashes. -/
  | simpleType
  /-- A name with optional type arguments. -/
  | segment
  | argument

inductive Derives : Nonterminal → List Char → Prop
  | base {c : Char} : c ∈ ['B', 'C', 'D', 'F', 'I', 'J', 'S', 'Z'] → Derives .javaType [c]
  | ofReference {s : List Char} : Derives .reference s → Derives .javaType s
  | ofClass {s : List Char} : Derives .classType s → Derives .reference s
  | ofVariable {s : List Char} : Derives .typeVariable s → Derives .reference s
  | array {s : List Char} : Derives .javaType s → Derives .reference ('[' :: s)
  | typeVariable {s : List Char} : IsIdentifier s → Derives .typeVariable ('T' :: (s ++ [';']))
  | classType {parts : List (List Char)} : parts ≠ [] → (∀ p ∈ parts, Derives .simpleType p) →
      Derives .classType ('L' :: (List.intercalate ['.'] parts ++ [';']))
  | simpleType {segments : List (List Char)} : segments ≠ [] → (∀ p ∈ segments, Derives .segment p) →
      Derives .simpleType (List.intercalate ['/'] segments)
  | plain {s : List Char} : IsIdentifier s → Derives .segment s
  | applied {s : List Char} {args : List (List Char)} : IsIdentifier s → args ≠ [] →
      (∀ arg ∈ args, Derives .argument arg) → Derives .segment (s ++ '<' :: (args.flatten ++ ['>']))
  | wildcard : Derives .argument ['*']
  | exact {s : List Char} : Derives .reference s → Derives .argument s
  | bounded {c : Char} {s : List Char} : c ∈ ['+', '-'] → Derives .reference s →
      Derives .argument (c :: s)

/-- A type parameter in front of another text. Its first bound may be missing only if a colon or the
end of the list follows. -/
inductive IsParameter (next : List Char) : List Char → Prop
  | bounded {name first : List Char} {bounds : List (List Char)} : IsIdentifier name →
      Derives .reference first → (∀ bound ∈ bounds, Derives .reference bound) →
      IsParameter next (name ++ ':' :: (first ++ bounds.flatMap (':' :: ·)))
  | unbounded {name : List Char} {bounds : List (List Char)} : IsIdentifier name →
      (∀ bound ∈ bounds, Derives .reference bound) →
      (bounds.flatMap (':' :: ·) ++ next).head? ∈ [some ':', some '>'] →
      IsParameter next (name ++ ':' :: bounds.flatMap (':' :: ·))

/-- One or more type parameters and the end of their list. -/
inductive IsParameterList : List Char → Prop
  | last {p : List Char} : IsParameter ['>'] p → IsParameterList (p ++ ['>'])
  | cons {p s : List Char} : IsParameter s p → IsParameterList s → IsParameterList (p ++ s)

def IsOptionalParameters (s : List Char) : Prop :=
  s = [] ∨ ∃ t, s = '<' :: t ∧ IsParameterList t

inductive IsClassSig : List Char → Prop
  | mk {parameters : List Char} {types : List (List Char)} : IsOptionalParameters parameters →
      types ≠ [] → (∀ t ∈ types, Derives .classType t) → IsClassSig (parameters ++ types.flatten)

inductive IsMethodSig : List Char → Prop
  | mk {parameters result : List Char} {types exceptions : List (List Char)} :
      IsOptionalParameters parameters → (∀ t ∈ types, Derives .javaType t) →
      (result = ['V'] ∨ Derives .javaType result) →
      (∀ e ∈ exceptions, Derives .classType e ∨ Derives .typeVariable e) →
      IsMethodSig (parameters ++ '(' :: (types.flatten ++ ')' ::
        (result ++ exceptions.flatMap ('^' :: ·))))

end BeanClass.Signature
