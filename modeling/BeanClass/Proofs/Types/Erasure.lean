import BeanClass.Proofs.Types.Resolution

/-! # Signatures and descriptors of resolved types agree

The erasure of a signature drops type arguments and replaces a type variable by the root class. A
signature that was resolved is erased to the descriptor beside it, and its type variables, at any
depth, are type parameters of the class.
-/

namespace BeanClass

open Name

namespace Signature

/-- The text without what stands between angle brackets, of which `depth` are open. -/
def dropArguments : (depth : Nat) → List Char → List Char
  | _, [] => []
  | depth, c :: s =>
    if c = '<' then dropArguments (depth + 1) s
    else if c = '>' then dropArguments (depth - 1) s
    else if depth = 0 then c :: dropArguments 0 s
    else dropArguments depth s

/-- The descriptor of the type that is left of the signature of a field at run time. -/
def erase (s : List Char) : List Char :=
  let element := s.dropWhile (· == '[')
  s.takeWhile (· == '[') ++
    if element.head? = some 'T' then (classDescriptor rootClass).toList else dropArguments 0 element

/-- Where a scan of a signature stands. -/
inductive Place where
  | typeStart
  | className
  /-- Inside a type variable, whose characters up to here are given in reverse order. -/
  | inVariable (found : List Char)

/-- The type variables of a signature from a place in it on. -/
def typeVariablesFrom : Place → List Char → List String
  | _, [] => []
  | .typeStart, c :: s =>
    if c = 'T' then typeVariablesFrom (.inVariable []) s
    else if c = 'L' ∨ c = '>' then typeVariablesFrom .className s
    else typeVariablesFrom .typeStart s
  | .className, c :: s =>
    if c = ';' ∨ c = '<' then typeVariablesFrom .typeStart s else typeVariablesFrom .className s
  | .inVariable found, c :: s =>
    if c = ';' then String.ofList found.reverse :: typeVariablesFrom .typeStart s
    else typeVariablesFrom (.inVariable (c :: found)) s

/-- The type variables of a signature, at any depth. -/
def typeVariables (s : List Char) : List String :=
  typeVariablesFrom .typeStart s

/-- A type as it stands in a signature: the scan is at the start of a type again behind it, its
brackets are closed, and its type variables are among the parameters. -/
structure Phrase (parameters : List String) (s : List Char) : Prop where
  scan : ∃ found, (∀ name ∈ found, name ∈ parameters) ∧
    ∀ rest, typeVariablesFrom .typeStart (s ++ rest) = found ++ typeVariablesFrom .typeStart rest
  closed : ∀ depth rest, dropArguments (depth + 1) (s ++ rest) = dropArguments (depth + 1) rest

variable {parameters : List String} {name s : List Char} {c : Char}

theorem dropArguments_succ_append (h : '<' ∉ s ∧ '>' ∉ s) (depth : Nat) (rest : List Char) :
    dropArguments (depth + 1) (s ++ rest) = dropArguments (depth + 1) rest := by
  induction s with
  | nil => rfl
  | cons c s ih =>
    simp only [List.mem_cons, not_or] at h
    rw [List.cons_append, dropArguments, if_neg (Ne.symm h.1.1), if_neg (Ne.symm h.2.1),
      if_neg (Nat.succ_ne_zero depth), ih ⟨h.1.2, h.2.2⟩]

theorem dropArguments_zero_append (h : '<' ∉ s ∧ '>' ∉ s) (rest : List Char) :
    dropArguments 0 (s ++ rest) = s ++ dropArguments 0 rest := by
  induction s with
  | nil => rfl
  | cons c s ih =>
    simp only [List.mem_cons, not_or] at h
    rw [List.cons_append, dropArguments, if_neg (Ne.symm h.1.1), if_neg (Ne.symm h.2.1), if_pos rfl,
      ih ⟨h.1.2, h.2.2⟩]
    rfl

theorem typeVariablesFrom_className (h : ';' ∉ name ∧ '<' ∉ name) (rest : List Char) :
    typeVariablesFrom .className (name ++ rest) = typeVariablesFrom .className rest := by
  induction name with
  | nil => rfl
  | cons c name ih =>
    simp only [List.mem_cons, not_or] at h
    have hc : ¬(c = ';' ∨ c = '<') := by
      rintro (rfl | rfl)
      · exact h.1.1 rfl
      · exact h.2.1 rfl
    rw [List.cons_append, typeVariablesFrom, if_neg hc, ih ⟨h.1.2, h.2.2⟩]

theorem typeVariablesFrom_inVariable (h : ';' ∉ name) (found rest : List Char) :
    typeVariablesFrom (.inVariable found) (name ++ ';' :: rest) =
      String.ofList (found.reverse ++ name) :: typeVariablesFrom .typeStart rest := by
  induction name generalizing found with
  | nil => rw [List.nil_append, typeVariablesFrom, if_pos rfl, List.append_nil]
  | cons c name ih =>
    rw [List.mem_cons, not_or] at h
    rw [List.cons_append, typeVariablesFrom, if_neg (Ne.symm h.1), ih h.2]
    simp

theorem not_mem_angles_of_isInternal (h : IsInternal name) : '<' ∉ name ∧ '>' ∉ name :=
  ⟨h.not_mem (by decide) (by decide), h.not_mem (by decide) (by decide)⟩

theorem not_mem_ends_of_isInternal (h : IsInternal name) : ';' ∉ name ∧ '<' ∉ name :=
  ⟨h.not_mem (by decide) (by decide), h.not_mem (by decide) (by decide)⟩

theorem phrase_array (h : Phrase parameters s) : Phrase parameters ('[' :: s) where
  scan := by
    obtain ⟨found, hfound, hscan⟩ := h.scan
    refine ⟨found, hfound, fun rest => ?_⟩
    rw [List.cons_append, typeVariablesFrom, if_neg (by decide), if_neg (by decide), hscan]
  closed depth rest := by
    rw [List.cons_append, dropArguments, if_neg (by decide), if_neg (by decide),
      if_neg (Nat.succ_ne_zero depth), h.closed]

theorem Phrase.replicate (h : Phrase parameters s) (dims : Nat) :
    Phrase parameters (List.replicate dims '[' ++ s) := by
  induction dims with
  | zero => exact h
  | succ dims ih => exact phrase_array ih

theorem phrase_base (h : isBaseType c = true) : Phrase parameters [c] where
  scan := by
    have hvariable : c ≠ 'T' := ne_of_isBaseType h (by decide)
    have hname : ¬(c = 'L' ∨ c = '>') := by
      rintro (rfl | rfl)
      · exact absurd h (by decide)
      · exact absurd h (by decide)
    refine ⟨[], nofun, fun rest => ?_⟩
    rw [List.singleton_append, typeVariablesFrom, if_neg hvariable, if_neg hname, List.nil_append]
  closed := by
    have hless : c ≠ '<' := ne_of_isBaseType h (by decide)
    have hgreater : c ≠ '>' := ne_of_isBaseType h (by decide)
    exact dropArguments_succ_append (by simp [Ne.symm hless, Ne.symm hgreater])

theorem phrase_variable (h : isIdentifier name = true) (hmem : String.ofList name ∈ parameters) :
    Phrase parameters ('T' :: (name ++ [';'])) where
  scan := by
    have hname : ';' ∉ name := not_mem_of_isIdentifier h (by decide)
    refine ⟨[String.ofList name], by simpa using hmem, fun rest => ?_⟩
    rw [List.cons_append, List.append_assoc, typeVariablesFrom, if_pos rfl, List.singleton_append,
      typeVariablesFrom_inVariable hname]
    rfl
  closed := by
    have hless : '<' ∉ name := not_mem_of_isIdentifier h (by decide)
    have hgreater : '>' ∉ name := not_mem_of_isIdentifier h (by decide)
    exact dropArguments_succ_append (by simp [hless, hgreater])

theorem phrase_class (h : IsInternal name) : Phrase parameters ('L' :: (name ++ [';'])) where
  scan := by
    refine ⟨[], nofun, fun rest => ?_⟩
    rw [List.cons_append, List.append_assoc, typeVariablesFrom, if_neg (by decide), if_pos (by decide),
      typeVariablesFrom_className (not_mem_ends_of_isInternal h), List.singleton_append, typeVariablesFrom,
      if_pos (by decide), List.nil_append]
  closed := by
    obtain ⟨hless, hgreater⟩ := not_mem_angles_of_isInternal h
    exact dropArguments_succ_append (by simp [hless, hgreater])

theorem phrase_flatten {args : List (List Char)} (h : ∀ arg ∈ args, Phrase parameters arg) :
    Phrase parameters args.flatten := by
  induction args with
  | nil => exact ⟨⟨[], nofun, fun _ => rfl⟩, fun _ _ => rfl⟩
  | cons arg args ih =>
    obtain ⟨harg, hargs⟩ := List.forall_mem_cons.mp h
    obtain ⟨found, hfound, hscan⟩ := harg.scan
    obtain ⟨more, hmore, hrest⟩ := (ih hargs).scan
    constructor
    · refine ⟨found ++ more, ?_, fun rest => ?_⟩
      · intro name hname
        rcases List.mem_append.mp hname with hname | hname
        · exact hfound name hname
        · exact hmore name hname
      · rw [List.flatten_cons, List.append_assoc, hscan, hrest, List.append_assoc]
    · intro depth rest
      rw [List.flatten_cons, List.append_assoc, harg.closed, (ih hargs).closed]

theorem phrase_generic {args : List (List Char)} (h : IsInternal name)
    (hargs : ∀ arg ∈ args, Phrase parameters arg) :
    Phrase parameters ('L' :: (name ++ '<' :: (args.flatten ++ ['>', ';']))) where
  scan := by
    obtain ⟨found, hfound, hscan⟩ := (phrase_flatten hargs).scan
    refine ⟨found, hfound, fun rest => ?_⟩
    have htext : 'L' :: (name ++ '<' :: (args.flatten ++ ['>', ';'])) ++ rest =
        'L' :: (name ++ '<' :: (args.flatten ++ '>' :: ';' :: rest)) := by simp
    have hend : typeVariablesFrom .typeStart ('>' :: ';' :: rest) = typeVariablesFrom .typeStart rest := by
      rw [typeVariablesFrom, if_neg (by decide), if_pos (by decide), typeVariablesFrom, if_pos (by decide)]
    rw [htext, typeVariablesFrom, if_neg (by decide), if_pos (by decide),
      typeVariablesFrom_className (not_mem_ends_of_isInternal h), typeVariablesFrom, if_pos (by decide), hscan,
      hend]
  closed depth rest := by
    have htext : 'L' :: (name ++ '<' :: (args.flatten ++ ['>', ';'])) ++ rest =
        ('L' :: name) ++ '<' :: (args.flatten ++ '>' :: ';' :: rest) := by simp
    obtain ⟨hless, hgreater⟩ := not_mem_angles_of_isInternal h
    rw [htext, dropArguments_succ_append (by simp [hless, hgreater]), dropArguments, if_pos rfl,
      (phrase_flatten hargs).closed]
    simp [dropArguments]

theorem erase_replicate (dims : Nat) (s : List Char) :
    erase (List.replicate dims '[' ++ s) = List.replicate dims '[' ++ erase s := by
  unfold erase
  rw [List.takeWhile_append_of_pos (by simp), List.dropWhile_append_of_pos (by simp),
    List.append_assoc]

theorem erase_base (h : isBaseType c = true) : erase [c] = [c] := by
  have hless : c ≠ '<' := ne_of_isBaseType h (by decide)
  have hgreater : c ≠ '>' := ne_of_isBaseType h (by decide)
  have hbracket : c ≠ '[' := ne_of_isBaseType h (by decide)
  have hvariable : c ≠ 'T' := ne_of_isBaseType h (by decide)
  simp [erase, dropArguments, hless, hgreater, hbracket, hvariable]

theorem erase_variable (name : List Char) :
    erase ('T' :: (name ++ [';'])) = (classDescriptor rootClass).toList := by
  simp [erase]

theorem erase_class (h : IsInternal name) : erase ('L' :: (name ++ [';'])) = 'L' :: (name ++ [';']) := by
  obtain ⟨hless, hgreater⟩ := not_mem_angles_of_isInternal h
  have hdrop := dropArguments_zero_append (s := 'L' :: (name ++ [';'])) (by simp [hless, hgreater]) []
  simpa [erase, dropArguments] using hdrop

theorem erase_generic {args : List (List Char)} (h : IsInternal name)
    (hargs : ∀ arg ∈ args, Phrase parameters arg) :
    erase ('L' :: (name ++ '<' :: (args.flatten ++ ['>', ';']))) = 'L' :: (name ++ [';']) := by
  obtain ⟨hless, hgreater⟩ := not_mem_angles_of_isInternal h
  have hdrop := dropArguments_zero_append (s := 'L' :: name) (by simp [hless, hgreater])
    ('<' :: (args.flatten ++ ['>', ';']))
  have hargs : dropArguments 0 ('<' :: (args.flatten ++ ['>', ';'])) = [';'] := by
    rw [dropArguments, if_pos rfl, (phrase_flatten hargs).closed]
    simp [dropArguments]
  rw [hargs] at hdrop
  simpa [erase] using hdrop

end Signature

open Signature

/-- The signature of a type, or else its descriptor, is erased to the descriptor. -/
structure ResolvedType.Agrees (parameters : List String) (t : ResolvedType) : Prop where
  phrase : Phrase parameters t.genericForm.toList
  erase : erase t.genericForm.toList = t.descriptor.toList

namespace ResolvedType

variable {parameters : List String} {t : ResolvedType} {name : String}

theorem Agrees.array (h : t.Agrees parameters) (dims : Nat) : (t.array dims).Agrees parameters where
  phrase := by
    rw [toList_genericForm_array]
    exact h.phrase.replicate dims
  erase := by
    rw [toList_genericForm_array, erase_replicate, h.erase]
    simp [ResolvedType.array]

theorem agrees_primitive {keyword descriptor : String}
    (h : primitiveDescriptor? keyword = some descriptor) :
    Agrees parameters ⟨descriptor, none⟩ := by
  obtain ⟨c, hbase, heq⟩ := toList_of_primitiveDescriptor? h
  have hform : (ResolvedType.mk descriptor none).genericForm.toList = [c] := heq
  constructor
  · rw [hform]
    exact phrase_base hbase
  · rw [hform, erase_base hbase]
    exact heq.symm

theorem agrees_variable (h : isIdentifier name.toList = true) (hmem : name ∈ parameters) :
    (ofVariable name).Agrees parameters := by
  have hform : (ofVariable name).genericForm.toList = 'T' :: (name.toList ++ [';']) := by
    simp [ofVariable, genericForm]
  constructor
  · rw [hform]
    exact phrase_variable h (by rwa [String.ofList_toList])
  · rw [hform, erase_variable]
    rfl

theorem agrees_class {args : List ResolvedType} (h : IsInternal name.toList)
    (hargs : ∀ arg ∈ args, arg.Agrees parameters) : (ofClass name args).Agrees parameters := by
  have hdescriptor : (ofClass name args).descriptor.toList = 'L' :: (name.toList ++ [';']) :=
    toList_classDescriptor name
  cases args with
  | nil =>
    have hform : (ofClass name []).genericForm.toList = 'L' :: (name.toList ++ [';']) :=
      toList_classDescriptor name
    constructor
    · rw [hform]
      exact phrase_class h
    · rw [hform, hdescriptor, erase_class h]
  | cons arg args =>
    have hform : (ofClass name (arg :: args)).genericForm.toList = 'L' :: (name.toList ++
        '<' :: (((arg :: args).map fun arg => arg.genericForm.toList).flatten ++ ['>', ';'])) := by
      simp [ofClass, genericForm, List.flatMap_def, Function.comp_def]
    have hphrases : ∀ text ∈ (arg :: args).map fun arg => arg.genericForm.toList,
        Phrase parameters text := by
      intro text htext
      obtain ⟨arg, harg, rfl⟩ := List.mem_map.mp htext
      exact (hargs arg harg).phrase
    constructor
    · rw [hform]
      exact phrase_generic h hphrases
    · rw [hform, hdescriptor, erase_generic h hphrases]

theorem signature_array (t : ResolvedType) (dims : Nat) :
    (t.array dims).signature.isSome = t.signature.isSome := by
  simp [ResolvedType.array]

end ResolvedType

namespace Scope

open ResolvedType

variable {scope : Scope}

mutual

theorem resolveExpr_agrees (hscope : scope.WellNamed) {primitives : Bool} {t : ResolvedType} :
    (expr : TypeExpr) → scope.resolveExpr primitives expr = .ok t → t.Agrees scope.parameters
  | ⟨raw, args, dims⟩, h => by
    rcases resolveExpr_eq_ok h with ⟨-, -, descriptor, hprimitive, rfl⟩ |
      ⟨name, ts, hfind, hts, rfl⟩ | ⟨-, -, name, hfind, rfl⟩
    · exact (agrees_primitive hprimitive).array dims
    · have hargs := resolveArgs_agrees hscope args hts
      exact (agrees_class (hscope.isInternal_of_find? hfind) hargs).array dims
    · have hname := hscope.isIdentifier_of_find? hfind
      obtain ⟨rfl, hmem⟩ := parameter_of_find? hfind
      exact (agrees_variable hname hmem).array dims

theorem resolveArgs_agrees (hscope : scope.WellNamed) {ts : List ResolvedType} :
    (args : List TypeExpr) → scope.resolveArgs args = .ok ts →
      ∀ t ∈ ts, t.Agrees scope.parameters
  | [], h => by
    cases h
    exact nofun
  | arg :: args, h => by
    rw [resolveArgs] at h
    obtain ⟨first, hfirst, h⟩ := bind_ok_iff.mp h
    obtain ⟨rest, hrest, h⟩ := bind_ok_iff.mp h
    cases h
    exact List.forall_mem_cons.mpr ⟨resolveExpr_agrees hscope arg hfirst,
      resolveArgs_agrees hscope args hrest⟩

end

/-- The raw name stands for a type parameter; the keywords of primitive types never do. -/
def IsVariable (scope : Scope) (raw : String) : Prop :=
  primitiveDescriptor? raw = none ∧ ∃ name, scope.find? raw = some (.parameter name)

theorem isEmpty_of_resolveArgs {args : List TypeExpr} {ts : List ResolvedType}
    (h : scope.resolveArgs args = .ok ts) : ts.isEmpty = args.isEmpty := by
  cases args with
  | nil =>
    cases h
    rfl
  | cons arg args =>
    rw [resolveArgs] at h
    obtain ⟨first, -, h⟩ := bind_ok_iff.mp h
    obtain ⟨rest, -, h⟩ := bind_ok_iff.mp h
    cases h
    rfl

theorem isSome_signature_iff {primitives : Bool} {expr : TypeExpr} {t : ResolvedType}
    (h : scope.resolveExpr primitives expr = .ok t) :
    t.signature.isSome = true ↔ expr.isGeneric = true ∨ scope.IsVariable expr.raw := by
  obtain ⟨raw, args, dims⟩ := expr
  rcases resolveExpr_eq_ok h with ⟨rfl, -, descriptor, hprimitive, rfl⟩ |
    ⟨name, ts, hfind, hts, rfl⟩ | ⟨rfl, hprimitive, name, hfind, rfl⟩
  · simp [signature_array, TypeExpr.isGeneric, IsVariable, hprimitive]
  · have hempty := isEmpty_of_resolveArgs hts
    rw [signature_array]
    simp only [ofClass, hempty, TypeExpr.isGeneric, IsVariable, hfind]
    cases args <;> simp
  · simp [signature_array, ofVariable, TypeExpr.isGeneric, IsVariable, hprimitive, hfind]

/-- A resolved type has a field descriptor. It has a signature exactly if the expression has type
arguments or names a type parameter, and then the signature is well formed, is erased to the
descriptor, and has no other type variables than the parameters. -/
theorem resolve_agrees (hscope : scope.WellNamed) {text : String} {primitives : Bool}
    {t : ResolvedType} (h : scope.resolve text primitives = .ok t) :
    isFieldDescriptor t.descriptor.toList = true ∧
      (∃ expr, TypeExpr.parse text.toList = .ok expr ∧
        (t.signature.isSome = true ↔ expr.isGeneric = true ∨ scope.IsVariable expr.raw)) ∧
      ∀ s, t.signature = some s → isFieldSignature s.toList = true ∧
        erase s.toList = t.descriptor.toList ∧ ∀ name ∈ typeVariables s.toList, name ∈ scope.parameters := by
  obtain ⟨hdescriptor, hreference⟩ := resolve_ok hscope h
  obtain ⟨expr, hexpr, h⟩ := bind_ok_iff.mp h
  refine ⟨hdescriptor.isFieldDescriptor, ⟨expr, hexpr, isSome_signature_iff h⟩, fun s hs => ?_⟩
  have hagrees := resolveExpr_agrees hscope expr h
  have hform : t.genericForm = s := by rw [genericForm, hs, Option.getD_some]
  obtain ⟨found, hfound, hscan⟩ := hagrees.phrase.scan
  refine ⟨isFieldSignature_of_isType (hreference s hs).isType, hform ▸ hagrees.erase, ?_⟩
  have hvariables := hscan []
  rw [List.append_nil, hform] at hvariables
  rw [typeVariables, hvariables]
  simpa [typeVariablesFrom] using hfound

/-- One imported class and two type parameters. -/
def nested : Scope :=
  ⟨.ofList ["b.C"], ["T", "U"], fun _ => false⟩

theorem wellNamed_nested : nested.WellNamed where
  imports := by decide
  parameters := by decide

theorem resolve_nested : nested.resolve "C<T[],C<U>>[]" false =
    .ok ⟨"[Lb/C;", some "[Lb/C<[TT;Lb/C<TU;>;>;"⟩ := by
  have houter : TypeExpr.shape? (Text.trim "C<T[],C<U>>[]".toList) =
      some ⟨"C".toList, ["T[]".toList, "C<U>".toList], 1⟩ := by cbv
  have harray : TypeExpr.shape? (Text.trim "T[]".toList) = some ⟨"T".toList, [], 1⟩ := by cbv
  have hclass : TypeExpr.shape? (Text.trim "C<U>".toList) = some ⟨"C".toList, ["U".toList], 0⟩ := by cbv
  have hvariable : TypeExpr.shape? (Text.trim "U".toList) = some ⟨"U".toList, [], 0⟩ := by cbv
  have hparse : TypeExpr.parse "C<T[],C<U>>[]".toList =
      .ok ⟨"C", [⟨"T", [], 1⟩, ⟨"C", [⟨"U", [], 0⟩], 0⟩], 1⟩ := by
    simp only [TypeExpr.parse_of_shape houter, TypeExpr.parse_of_shape harray,
      TypeExpr.parse_of_shape hclass, TypeExpr.parse_of_shape hvariable, List.mapM_cons, List.mapM_nil]
    rfl
  rw [resolve, hparse, ok_bind]
  cbv

theorem resolve_agrees_nested : nested.WellNamed ∧
    nested.resolve "C<T[],C<U>>[]" false = .ok ⟨"[Lb/C;", some "[Lb/C<[TT;Lb/C<TU;>;>;"⟩ ∧
      isFieldSignature "[Lb/C<[TT;Lb/C<TU;>;>;".toList = true ∧
      erase "[Lb/C<[TT;Lb/C<TU;>;>;".toList = "[Lb/C;".toList ∧
      ∀ name ∈ typeVariables "[Lb/C<[TT;Lb/C<TU;>;>;".toList, name ∈ ["T", "U"] :=
  ⟨wellNamed_nested, resolve_nested, (resolve_agrees wellNamed_nested resolve_nested).2.2 _ rfl⟩

example : typeVariables "[Lb/C<[TT;Lb/C<TU;>;>;".toList = ["T", "U"] := by cbv

end Scope

end BeanClass
