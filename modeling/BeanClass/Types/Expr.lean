import BeanClass.Text.Blank

/-! # Type expressions

A type expression is a raw name, type arguments and array dimensions, as in `Map<K,V>[][]`.
-/

namespace BeanClass

structure TypeExpr where
  raw : String
  args : List TypeExpr
  dims : Nat
  deriving Repr

/-- Why a type expression has no meaning. -/
inductive TypeError where
  | unresolved (expr : String)
  /-- A bare primitive type stands where only a reference type can. -/
  | primitiveArgument (expr : String)
  deriving DecidableEq, Repr

namespace TypeExpr

open Text

def isGeneric (t : TypeExpr) : Bool :=
  !t.args.isEmpty

mutual

/-- The expression without white space. -/
def render : TypeExpr → String
  | ⟨raw, args, dims⟩ =>
    raw ++ (if args.isEmpty then "" else "<" ++ renderArgs args ++ ">") ++
      String.join (List.replicate dims "[]")

def renderArgs : List TypeExpr → String
  | [] => ""
  | [arg] => render arg
  | arg :: args => render arg ++ "," ++ renderArgs args

end

/-- The most dimensions an array type has. -/
def maxDims : Nat := 255

/-- Counts the trailing `[]` groups of a reversed text and drops them with the white space before
each. -/
def cutDims (s : List Char) : Nat × List Char :=
  match s with
  | ']' :: '[' :: rest =>
    let (dims, base) := cutDims (rest.dropWhile isBlank)
    (dims + 1, base)
  | s => (0, s)
termination_by s.length
decreasing_by
  have := (List.dropWhile_suffix isBlank (l := rest)).length_le
  simp only [List.length_cons]
  omega

/-- Cuts a text at the commas outside all angle brackets; `none` if the brackets do not match.
`depth` counts the open brackets and `piece` holds the current piece, reversed. -/
def cutArgs : (depth : Nat) → (piece : List Char) → List Char → Option (List (List Char))
  | depth, piece, [] => if depth = 0 then some [piece.reverse] else none
  | depth, piece, c :: s =>
    if c = '<' then cutArgs (depth + 1) (c :: piece) s
    else if c = '>' then if depth = 0 then none else cutArgs (depth - 1) (c :: piece) s
    else if c = ',' ∧ depth = 0 then (cutArgs 0 [] s).map (piece.reverse :: ·)
    else cutArgs depth (c :: piece) s

/-- The arguments of an argument list, none of which may be blank. -/
def argTexts? (s : List Char) : Option (List (List Char)) := do
  let pieces ← cutArgs 0 [] s
  let pieces := pieces.map trim
  if pieces.any (·.isEmpty) then none else some pieces

/-- The outer structure of a type expression. -/
structure Shape where
  raw : List Char
  args : List (List Char)
  dims : Nat

/-- Takes a trimmed text apart at its first `<` and its trailing `[]` groups. -/
def shape? (s : List Char) : Option Shape :=
  let (dims, reversed) := cutDims s.reverse
  let base := reversed.reverse
  if maxDims < dims then none
  else match base.dropWhile (· != '<') with
    | [] => some ⟨base, [], dims⟩
    | _ :: rest =>
      if rest.getLast? = some '>' then
        (argTexts? rest.dropLast).map fun args => ⟨trim (base.takeWhile (· != '<')), args, dims⟩
      else none

/-- A raw name is not empty and free of brackets and commas. -/
def isRaw (s : List Char) : Bool :=
  !s.isEmpty && s.all fun c => !(c == '[' || c == ']' || c == '<' || c == '>' || c == ',')

theorem length_cutDims_le (s : List Char) : (cutDims s).2.length ≤ s.length := by
  fun_induction cutDims s with
  | case1 rest dims base h ih =>
    have := (List.dropWhile_suffix isBlank (l := rest)).length_le
    simp only [h] at ih
    simp only [List.length_cons]
    omega
  | case2 => simp

theorem length_le_of_mem_cutArgs {depth : Nat} {piece s : List Char} {pieces : List (List Char)}
    (h : cutArgs depth piece s = some pieces) : ∀ p ∈ pieces, p.length ≤ piece.length + s.length := by
  fun_induction cutArgs depth piece s generalizing pieces with
  | case1 => cases h; simp
  | case2 => cases h
  | case3 depth piece s ih =>
    intro p hp
    have := ih h p hp
    simp only [List.length_cons] at *
    omega
  | case4 => cases h
  | case5 depth piece s _ _ ih =>
    intro p hp
    have := ih h p hp
    simp only [List.length_cons] at *
    omega
  | case6 depth piece c s _ _ _ ih =>
    obtain ⟨rest, hrest, rfl⟩ := Option.map_eq_some_iff.1 h
    intro p hp
    rcases List.mem_cons.1 hp with rfl | hp
    · simp
    · have := ih hrest p hp
      simp only [List.length_cons, List.length_nil] at *
      omega
  | case7 depth piece c s _ _ _ ih =>
    intro p hp
    have := ih h p hp
    simp only [List.length_cons] at *
    omega

theorem length_lt_of_mem_shape {s : List Char} {shape : Shape} (h : shape? s = some shape) :
    ∀ p ∈ shape.args, p.length < s.length := by
  intro p hp
  have hbase := length_cutDims_le s.reverse
  simp only [shape?] at h
  split at h
  · cases h
  split at h
  · cases h; cases hp
  rename_i c rest hrest
  split at h
  · obtain ⟨args, hargs, rfl⟩ := Option.map_eq_some_iff.1 h
    simp only [argTexts?, Option.bind_eq_bind, Option.bind_eq_some_iff] at hargs
    obtain ⟨pieces, hpieces, hargs⟩ := hargs
    split at hargs
    · cases hargs
    cases hargs
    obtain ⟨q, hq, rfl⟩ := List.mem_map.1 hp
    have h₁ := length_le_of_mem_cutArgs hpieces q hq
    have h₂ := length_trim_le q
    have h₃ := (List.dropWhile_suffix (· != '<') (l := (cutDims s.reverse).2.reverse)).length_le
    simp only [hrest, List.length_cons, List.length_reverse, List.length_dropLast,
      List.length_nil] at *
    omega
  · cases h

/-- Reads a type expression. A part that cannot be read is named in the error as it stands in the
text, without the white space around it; parts are read from left to right. -/
def parse (s : List Char) : Except TypeError TypeExpr :=
  match _h : shape? (trim s) with
  | none => .error (.unresolved (String.ofList (trim s)))
  | some shape => do
    let args ← shape.args.attach.mapM fun ⟨arg, _⟩ => parse arg
    if isRaw shape.raw then .ok ⟨String.ofList shape.raw, args, shape.dims⟩
    else .error (.unresolved (String.ofList (trim s)))
termination_by s.length
decreasing_by
  have h₁ := length_lt_of_mem_shape _h arg (by assumption)
  have h₂ := length_trim_le s
  omega

end TypeExpr

end BeanClass
