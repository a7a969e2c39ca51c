import BeanClass.Proofs.Descriptors.Grammar
import BeanClass.Proofs.Signatures.Grammar
import BeanClass.Signature.Checker

/-! # Reading signatures

A text of the grammar is read off the front of every text as just this text, as long as calls may nest
as deep as four times its length; so every signature of the grammar is accepted.
-/

namespace BeanClass.Signature

/-- The text is read as a reference type, whatever follows it. -/
structure IsReference (s : List Char) : Prop where
  head : ∃ c rest, s = c :: rest ∧ c ∈ ['L', 'T', '[']
  reads : ∀ n rest, 4 * s.length ≤ n → reference? n (s ++ rest) = some rest

/-- The text is read as a type, whatever follows it. -/
def IsType (s : List Char) : Prop :=
  ∀ n rest, 4 * s.length + 1 ≤ n → javaType? n (s ++ rest) = some rest

/-- Behind the text, the reader of a class type looks for a separator or for the end. -/
def IsSegments (s : List Char) : Prop :=
  s ≠ [] ∧ ∀ n c rest, c ∈ ['/', '.', ';'] → 4 * s.length ≤ n →
    ∃ m, n ≤ m + s.length ∧ segments? n (s ++ c :: rest) = segmentsEnd? m (c :: rest)

/-- Behind the text, the reader of type arguments looks for another one or for the end. -/
structure IsArgument (s : List Char) : Prop where
  head : ∃ c rest, s = c :: rest ∧ c ≠ '>'
  reads : ∀ n rest, 4 * s.length ≤ n → arguments? (n + 1) (s ++ rest) = argumentsEnd? n rest

/-- What the checker makes of a phrase. -/
def Reads : Nonterminal → List Char → Prop
  | .javaType, s => IsType s
  | .reference, s => IsReference s
  | .typeVariable, s => ∃ t, s = 'T' :: t ∧ ∀ rest, typeVariable? (t ++ rest) = some rest
  | .classType, s => ∃ t, s = 'L' :: t ∧ ∀ n rest, 4 * t.length ≤ n → segments? n (t ++ rest) = some rest
  | .simpleType, s | .segment, s => IsSegments s
  | .argument, s => IsArgument s

variable {c : Char} {s t rest : List Char} {n k : Nat}

theorem isIdentifierChar_iff : isIdentifierChar c = true ↔ c ∉ ['/', ';', '<', '>', ':', '.', '['] := by
  simp [isIdentifierChar, and_assoc]

theorem identifier?_append (rest : List Char) (h : IsIdentifier s) (hc : isIdentifierChar c = false) :
    identifier? (s ++ c :: rest) = some (c :: rest) := by
  have hall : ∀ d ∈ s, isIdentifierChar d = true := fun d hd => isIdentifierChar_iff.mpr (h.chars d hd)
  obtain ⟨d, s, rfl⟩ := List.exists_cons_of_ne_nil h.ne_nil
  obtain ⟨hd, hs⟩ := List.forall_mem_cons.mp hall
  rw [List.cons_append, identifier?, if_pos hd, List.dropWhile_append_of_pos hs,
    List.dropWhile_cons_of_neg (by simp [hc])]

theorem isType_base (h : isBaseType c = true) : IsType [c] := by
  intro n rest hn
  obtain ⟨n, rfl⟩ : ∃ m, n = m + 1 := Nat.exists_eq_add_one.mpr (by omega)
  rw [List.singleton_append, javaType?, if_pos h]

theorem IsReference.isType (h : IsReference s) : IsType s := by
  intro n rest hn
  obtain ⟨n, rfl⟩ : ∃ m, n = m + 1 := Nat.exists_eq_add_one.mpr (by omega)
  have hread := h.reads n rest (by omega)
  obtain ⟨c, tail, rfl, hc⟩ := h.head
  have hall : ['L', 'T', '['].all (!isBaseType ·) = true := by decide
  have hbase := List.all_eq_true.mp hall c hc
  rw [Bool.not_eq_true'] at hbase
  rw [List.cons_append, javaType?, hbase]
  exact hread

theorem IsType.isReference_array (h : IsType s) : IsReference ('[' :: s) where
  head := ⟨'[', s, rfl, by decide⟩
  reads n rest hn := by
    rw [List.length_cons] at hn
    obtain ⟨n, rfl⟩ : ∃ m, n = m + 1 := Nat.exists_eq_add_one.mpr (by omega)
    rw [List.cons_append, reference?, if_neg (by decide), if_neg (by decide), if_pos rfl]
    exact h n rest (by omega)

theorem IsReference.replicate (h : IsReference s) (dims : Nat) :
    IsReference (List.replicate dims '[' ++ s) := by
  induction dims with
  | zero => exact h
  | succ dims ih =>
    rw [List.replicate_succ, List.cons_append]
    exact ih.isType.isReference_array

/-- A reference type is not taken for a wildcard or for the end of type arguments. -/
theorem IsReference.ne (h : IsReference (c :: s)) : c ≠ '*' ∧ c ≠ '+' ∧ c ≠ '-' ∧ c ≠ '>' := by
  obtain ⟨d, rest, heq, hmem⟩ := h.head
  cases heq
  simp only [List.mem_cons, List.not_mem_nil, or_false] at hmem
  rcases hmem with rfl | rfl | rfl <;> decide

/-! ## Class types and their arguments -/

/-- Two texts with a separator between them. -/
theorem IsSegments.append {sep : Char} (hs : IsSegments s) (ht : IsSegments t) (hsep : sep ∈ ['/', '.']) :
    IsSegments (s ++ sep :: t) := by
  refine ⟨by simp, fun n c rest hc hn => ?_⟩
  simp only [List.length_append, List.length_cons] at hn ⊢
  obtain ⟨m, hm, hread⟩ := hs.2 n sep (t ++ c :: rest) (by simp at hsep ⊢; tauto) (by omega)
  obtain ⟨m, rfl⟩ : ∃ k, m = k + 1 := Nat.exists_eq_add_one.mpr (by omega)
  obtain ⟨k, hk, hmore⟩ := ht.2 m c rest hc (by omega)
  refine ⟨k, by omega, ?_⟩
  have hskip : segmentsEnd? (m + 1) (sep :: (t ++ c :: rest)) = segments? m (t ++ c :: rest) := by
    rw [segmentsEnd?, if_pos (by simpa using hsep)]
  rw [List.append_assoc, List.cons_append, hread, hskip, hmore]

theorem isSegments_intercalate {sep : Char} {pieces : List (List Char)} (hsep : sep ∈ ['/', '.'])
    (hne : pieces ≠ []) (h : ∀ p ∈ pieces, IsSegments p) : IsSegments (List.intercalate [sep] pieces) := by
  induction pieces with
  | nil => exact absurd rfl hne
  | cons p pieces ih =>
    obtain ⟨hp, hpieces⟩ := List.forall_mem_cons.mp h
    cases pieces with
    | nil =>
      rw [List.intercalate_singleton]
      exact hp
    | cons q pieces =>
      rw [List.intercalate_cons_cons, List.append_assoc, List.singleton_append]
      exact hp.append (ih (List.cons_ne_nil _ _) hpieces) hsep

theorem IsSegments.reads_end (h : IsSegments s) (n : Nat) (rest : List Char)
    (hn : 4 * (s ++ [';']).length ≤ n) : segments? n (s ++ [';'] ++ rest) = some rest := by
  rw [List.length_append, List.length_singleton] at hn
  obtain ⟨m, hm, hread⟩ := h.2 n ';' rest (by decide) (by omega)
  obtain ⟨m, rfl⟩ : ∃ k, m = k + 1 := Nat.exists_eq_add_one.mpr (by omega)
  rw [List.append_assoc, List.singleton_append, hread]
  rfl

theorem isReference_of_segments? (h : ∀ n rest, 4 * t.length ≤ n → segments? n (t ++ rest) = some rest) :
    IsReference ('L' :: t) where
  head := ⟨'L', t, rfl, by decide⟩
  reads n rest hn := by
    rw [List.length_cons] at hn
    obtain ⟨n, rfl⟩ : ∃ m, n = m + 1 := Nat.exists_eq_add_one.mpr (by omega)
    rw [List.cons_append, reference?, if_pos rfl]
    exact h n rest (by omega)

theorem isReference_of_typeVariable? (h : ∀ rest, typeVariable? (t ++ rest) = some rest) :
    IsReference ('T' :: t) where
  head := ⟨'T', t, rfl, by decide⟩
  reads n rest hn := by
    rw [List.length_cons] at hn
    obtain ⟨n, rfl⟩ : ∃ m, n = m + 1 := Nat.exists_eq_add_one.mpr (by omega)
    rw [List.cons_append, reference?, if_neg (by decide), if_pos rfl]
    exact h rest

theorem isSegments_identifier (h : IsIdentifier s) : IsSegments s := by
  refine ⟨h.ne_nil, fun n c rest hc hn => ?_⟩
  have hpos := List.length_pos_of_ne_nil h.ne_nil
  obtain ⟨n, rfl⟩ : ∃ m, n = m + 1 := Nat.exists_eq_add_one.mpr (by omega)
  have hchar : isIdentifierChar c = false := by
    simp only [List.mem_cons, List.not_mem_nil, or_false] at hc
    rcases hc with rfl | rfl | rfl <;> decide
  refine ⟨n, by omega, ?_⟩
  rw [segments?, identifier?_append rest h hchar]
  simp only [List.mem_cons, List.not_mem_nil, or_false] at hc
  rcases hc with rfl | rfl | rfl <;> rfl

theorem isArgument_wildcard : IsArgument ['*'] where
  head := ⟨'*', [], rfl, by decide⟩
  reads n rest _ := by rw [List.singleton_append, arguments?, if_pos rfl]

theorem IsReference.isArgument (h : IsReference s) : IsArgument s := by
  obtain ⟨c, t, rfl, -⟩ := h.head
  obtain ⟨hstar, hplus, hminus, hclose⟩ := h.ne
  refine ⟨⟨c, t, rfl, hclose⟩, fun n rest hn => ?_⟩
  have hread := h.reads n rest hn
  rw [List.cons_append] at hread ⊢
  rw [arguments?, if_neg hstar, if_neg (by simp [hplus, hminus]), hread]

theorem IsReference.isArgument_bounded (h : IsReference s) (hc : c ∈ ['+', '-']) : IsArgument (c :: s) := by
  have hsign : c = '+' ∨ c = '-' := by simpa using hc
  refine ⟨⟨c, s, rfl, ?_⟩, fun n rest hn => ?_⟩
  · rcases hsign with rfl | rfl <;> decide
  · have hstar : c ≠ '*' := by rcases hsign with rfl | rfl <;> decide
    rw [List.length_cons] at hn
    rw [List.cons_append, arguments?, if_neg hstar, if_pos hsign, h.reads n rest (by omega)]

theorem arguments?_flatten {args : List (List Char)} (rest : List Char) (hne : args ≠ [])
    (h : ∀ arg ∈ args, IsArgument arg) (hn : 4 * args.flatten.length + 2 ≤ n) :
    arguments? n (args.flatten ++ '>' :: rest) = some rest := by
  induction args generalizing n with
  | nil => exact absurd rfl hne
  | cons arg args ih =>
    obtain ⟨harg, hargs⟩ := List.forall_mem_cons.mp h
    rw [List.flatten_cons, List.length_append] at hn
    obtain ⟨n, rfl⟩ : ∃ m, n = m + 2 := Nat.exists_eq_add_of_le' (by omega)
    rw [List.flatten_cons, List.append_assoc, harg.reads (n + 1) _ (by omega)]
    cases args with
    | nil => rfl
    | cons next args =>
      have hread := ih (n := n) (List.cons_ne_nil _ _) hargs (by
        obtain ⟨c, t, rfl, -⟩ := harg.head
        rw [List.length_cons] at hn
        omega)
      obtain ⟨c, t, rfl, hc⟩ := (List.forall_mem_cons.mp hargs).1.head
      rw [List.flatten_cons, List.cons_append, List.cons_append] at hread ⊢
      rw [argumentsEnd?, if_neg hc, hread]

theorem isSegments_applied {args : List (List Char)} (h : IsIdentifier s) (hne : args ≠ [])
    (hargs : ∀ arg ∈ args, IsArgument arg) : IsSegments (s ++ '<' :: (args.flatten ++ ['>'])) := by
  refine ⟨by simp, fun n c rest hc hn => ?_⟩
  simp only [List.length_append, List.length_cons, List.length_nil] at hn
  obtain ⟨n, rfl⟩ : ∃ m, n = m + 1 := Nat.exists_eq_add_one.mpr (by omega)
  refine ⟨n, by simp; omega, ?_⟩
  have htext : s ++ '<' :: (args.flatten ++ ['>']) ++ c :: rest =
      s ++ '<' :: (args.flatten ++ '>' :: c :: rest) := by simp
  rw [htext, segments?, identifier?_append _ h (by decide)]
  simp only [arguments?_flatten (c :: rest) hne hargs (by omega : 4 * args.flatten.length + 2 ≤ n)]

/-! ## Nested phrases -/

/-- Each phrase is read off the front of every text. -/
theorem Derives.reads {p : Nonterminal} (h : Derives p s) : Reads p s := by
  induction h with
  | base hc => exact isType_base (isBaseType_iff.mpr hc)
  | ofReference _ ih => exact IsReference.isType ih
  | ofClass _ ih =>
    obtain ⟨t, rfl, hread⟩ := ih
    exact isReference_of_segments? hread
  | ofVariable _ ih =>
    obtain ⟨t, rfl, hread⟩ := ih
    exact isReference_of_typeVariable? hread
  | array _ ih => exact IsType.isReference_array ih
  | typeVariable h =>
    refine ⟨_, rfl, fun rest => ?_⟩
    rw [List.append_assoc, List.singleton_append, typeVariable?, identifier?_append rest h (by decide)]
    rfl
  | classType hne _ ih =>
    have hsegments : IsSegments (List.intercalate ['.'] _) := isSegments_intercalate (by decide) hne ih
    exact ⟨_, rfl, hsegments.reads_end⟩
  | simpleType hne _ ih => exact isSegments_intercalate (by decide) hne ih
  | plain h => exact isSegments_identifier h
  | applied h hne _ ih => exact isSegments_applied h hne ih
  | wildcard => exact isArgument_wildcard
  | exact _ ih => exact IsReference.isArgument ih
  | bounded hc _ ih => exact IsReference.isArgument_bounded ih hc

theorem Derives.isReference (h : Derives .reference s) : IsReference s := h.reads

theorem Derives.isType (h : Derives .javaType s) : IsType s := h.reads

/-! ## Type parameters -/

theorem bounds?_flatMap {bounds : List (List Char)} (rest : List Char)
    (h : ∀ bound ∈ bounds, Derives .reference bound) (hrest : rest.head? ≠ some ':')
    (hk : (bounds.flatMap (':' :: ·)).length < k) (hn : 4 * (bounds.flatMap (':' :: ·)).length ≤ n) :
    bounds? n k (bounds.flatMap (':' :: ·) ++ rest) = some rest := by
  obtain ⟨k, rfl⟩ : ∃ m, k = m + 1 := Nat.exists_eq_add_one.mpr (by omega)
  induction bounds generalizing k with
  | nil =>
    rw [List.flatMap_nil, List.nil_append, bounds?]
    · exact nofun
    · rintro k s - rfl
      exact hrest rfl
  | cons bound bounds ih =>
    obtain ⟨hbound, hbounds⟩ := List.forall_mem_cons.mp h
    simp only [List.flatMap_cons, List.length_append, List.length_cons] at hk hn
    obtain ⟨k, rfl⟩ : ∃ m, k = m + 1 := Nat.exists_eq_add_one.mpr (by omega)
    rw [List.flatMap_cons, List.cons_append, List.cons_append, List.append_assoc, bounds?,
      hbound.isReference.reads n _ (by omega), Option.bind_some]
    exact ih hbounds (by omega) k (by omega)

theorem IsParameter.reads {next : List Char} (h : IsParameter next s) (hne : next ≠ [])
    (hcolon : next.head? ≠ some ':') (rest : List Char) (hk : s.length ≤ k) (hn : 4 * s.length ≤ n) :
    parameter? n k (s ++ (next ++ rest)) = some (next ++ rest) := by
  have hnext : (next ++ rest).head? ≠ some ':' := by rwa [List.head?_append_of_ne_nil _ hne]
  cases h with
  | @bounded name first bounds hname hfirst hbounds =>
    have hpos := List.length_pos_of_ne_nil hname.ne_nil
    simp only [List.length_append, List.length_cons] at hk hn
    have hread := hfirst.isReference.reads n (bounds.flatMap (':' :: ·) ++ (next ++ rest)) (by omega)
    have hmore := bounds?_flatMap (k := k) (n := n) (next ++ rest) hbounds hnext (by omega) (by omega)
    obtain ⟨c, t, rfl, hc⟩ := hfirst.isReference.head
    have hbound : ¬(c = ':' ∨ c = '>') := by
      rintro (rfl | rfl) <;> exact absurd hc (by decide)
    rw [List.append_assoc, List.cons_append, List.append_assoc, parameter?,
      identifier?_append _ hname (by decide)]
    rw [List.cons_append] at hread ⊢
    simpa [expect?, hbound, hread] using hmore
  | @unbounded name bounds hname hbounds hlook =>
    have hpos := List.length_pos_of_ne_nil hname.ne_nil
    simp only [List.length_append, List.length_cons] at hk hn
    have hmore := bounds?_flatMap (k := k) (n := n) (next ++ rest) hbounds hnext (by omega) (by omega)
    have hhead : (bounds.flatMap (':' :: ·) ++ (next ++ rest)).head? =
        (bounds.flatMap (':' :: ·) ++ next).head? := by
      rw [← List.append_assoc, List.head?_append_of_ne_nil _ (List.append_ne_nil_of_right_ne_nil _ hne)]
    have hlook : (bounds.flatMap (':' :: ·) ++ (next ++ rest)).head? = some ':' ∨
        (bounds.flatMap (':' :: ·) ++ (next ++ rest)).head? = some '>' := by
      rw [hhead]
      simpa using hlook
    rw [List.append_assoc, List.cons_append, parameter?, identifier?_append _ hname (by decide)]
    generalize bounds.flatMap (':' :: ·) ++ (next ++ rest) = text at hlook hmore ⊢
    simpa [expect?, hlook] using hmore

theorem IsParameter.head {next : List Char} (h : IsParameter next s) :
    ∃ c t, s = c :: t ∧ isIdentifierChar c = true := by
  cases h with
  | bounded hname | unbounded hname =>
    obtain ⟨c, t, rfl⟩ := List.exists_cons_of_ne_nil hname.ne_nil
    exact ⟨c, _, rfl, isIdentifierChar_iff.mpr (hname.chars c List.mem_cons_self)⟩

theorem IsParameterList.head (h : IsParameterList s) :
    ∃ c t, s = c :: t ∧ isIdentifierChar c = true := by
  cases h with
  | last h | cons h =>
    obtain ⟨c, t, rfl, hc⟩ := h.head
    exact ⟨c, _, rfl, hc⟩

theorem IsParameterList.reads (h : IsParameterList s) (rest : List Char) (hk : s.length ≤ k)
    (hn : 4 * s.length ≤ n) : parameters? n k (s ++ rest) = some rest := by
  induction h generalizing k with
  | last h =>
    simp only [List.length_append, List.length_singleton] at hk hn
    obtain ⟨k, rfl⟩ : ∃ m, k = m + 1 := Nat.exists_eq_add_one.mpr (by omega)
    have hread := h.reads (by simp) (by simp) rest (by omega : _ ≤ k) (by omega : _ ≤ n)
    rw [List.append_assoc, parameters?, hread]
    simp
  | @cons p s h hlist ih =>
    obtain ⟨c, t, rfl, hc⟩ := hlist.head
    have hcolon : c ≠ ':' := by rintro rfl; exact absurd hc (by decide)
    have hclose : c ≠ '>' := by rintro rfl; exact absurd hc (by decide)
    have hpos : 0 < p.length := by
      obtain ⟨d, u, rfl, -⟩ := h.head
      exact Nat.succ_pos _
    simp only [List.length_append, List.length_cons] at hk hn
    obtain ⟨k, rfl⟩ : ∃ m, k = m + 1 := Nat.exists_eq_add_one.mpr (by omega)
    have hread := h.reads (List.cons_ne_nil _ _) (by simp [hcolon]) rest (by omega : _ ≤ k)
      (by omega : _ ≤ n)
    have hmore := ih (k := k) (by rw [List.length_cons]; omega) (by rw [List.length_cons]; omega)
    rw [List.append_assoc, parameters?, hread]
    simpa [hclose] using hmore

theorem IsOptionalParameters.reads (h : IsOptionalParameters s) (hrest : rest.head? ≠ some '<')
    (hn : 4 * s.length ≤ n) : optionalParameters? n (s ++ rest) = some rest := by
  rcases h with rfl | ⟨t, rfl, ht⟩
  · rw [List.nil_append, optionalParameters?]
    rintro t rfl
    exact hrest rfl
  · rw [List.length_cons] at hn
    exact ht.reads rest (by omega) (by omega)

/-! ## Whole signatures -/

theorem classTypes_flatten {types : List (List Char)} (hne : types ≠ [])
    (h : ∀ t ∈ types, Derives .classType t) (hk : types.flatten.length ≤ k)
    (hn : 4 * types.flatten.length ≤ n) : classTypes n k types.flatten = true := by
  induction types generalizing k with
  | nil => exact absurd rfl hne
  | cons t types ih =>
    obtain ⟨ht, htypes⟩ := List.forall_mem_cons.mp h
    obtain ⟨t, rfl, hread⟩ := ht.reads
    simp only [List.flatten_cons, List.cons_append, List.length_cons, List.length_append] at hk hn
    obtain ⟨k, rfl⟩ : ∃ m, k = m + 1 := Nat.exists_eq_add_one.mpr (by omega)
    rw [List.flatten_cons, List.cons_append, classTypes, classType?, expect?, if_pos rfl,
      Option.bind_some, hread n types.flatten (by omega)]
    cases types with
    | nil => rfl
    | cons next types =>
      have hmore := ih (k := k) (List.cons_ne_nil _ _) htypes (by omega) (by omega)
      obtain ⟨next, rfl, -⟩ := (htypes next List.mem_cons_self).reads
      exact hmore

theorem isClassSignature_of_isClassSig (h : IsClassSig s) : isClassSignature s = true := by
  cases h with
  | @mk parameters types hparameters hne htypes =>
    have hhead : types.flatten.head? ≠ some '<' := by
      obtain ⟨t, types, rfl⟩ := List.exists_cons_of_ne_nil hne
      obtain ⟨t, rfl, -⟩ := (htypes t List.mem_cons_self).reads
      simp
    have hdepth : depth (parameters ++ types.flatten) =
        4 * (parameters.length + types.flatten.length) + 4 := by rw [depth, List.length_append]
    rw [isClassSignature]
    generalize depth (parameters ++ types.flatten) = n at hdepth ⊢
    rw [hparameters.reads hhead (by omega)]
    exact classTypes_flatten hne htypes (by omega) (by omega)

/-- A type is not taken for the end of the parameter types or for a missing result. -/
theorem IsType.head (h : IsType s) : ∃ c t, s = c :: t ∧ c ≠ ')' ∧ c ≠ 'V' := by
  have hread := h (4 * s.length + 2) [] (Nat.le_succ _)
  cases s with
  | nil => cases hread
  | cons c t =>
    refine ⟨c, t, rfl, ?_, ?_⟩
    all_goals
      rintro rfl
      rw [List.cons_append, javaType?, if_neg (by decide), reference?, if_neg (by decide),
        if_neg (by decide), if_neg (by decide)] at hread
      cases hread

theorem methodParameters?_flatten {types : List (List Char)} (rest : List Char)
    (h : ∀ t ∈ types, IsType t) (hk : types.flatten.length < k) (hn : 4 * types.flatten.length < n) :
    methodParameters? n k (types.flatten ++ ')' :: rest) = some rest := by
  induction types generalizing k with
  | nil =>
    obtain ⟨k, rfl⟩ : ∃ m, k = m + 1 := Nat.exists_eq_add_one.mpr (by omega)
    rfl
  | cons t types ih =>
    obtain ⟨ht, htypes⟩ := List.forall_mem_cons.mp h
    rw [List.flatten_cons, List.length_append] at hk hn
    obtain ⟨k, rfl⟩ : ∃ m, k = m + 1 := Nat.exists_eq_add_one.mpr (by omega)
    have hread := ht n (types.flatten ++ ')' :: rest) (by omega)
    obtain ⟨c, t, rfl, hclosing, -⟩ := ht.head
    rw [List.length_cons] at hk
    rw [List.flatten_cons, List.append_assoc, List.cons_append] at *
    rw [methodParameters?, hread, Option.bind_some]
    · exact ih htypes (by omega) (by omega)
    · exact fun _ hcons => hclosing (List.cons.inj hcons).1

theorem throws_flatMap {exceptions : List (List Char)}
    (h : ∀ e ∈ exceptions, Derives .classType e ∨ Derives .typeVariable e)
    (hk : (exceptions.flatMap ('^' :: ·)).length < k)
    (hn : 4 * (exceptions.flatMap ('^' :: ·)).length ≤ n) :
    throws n k (exceptions.flatMap ('^' :: ·)) = true := by
  induction exceptions generalizing k with
  | nil =>
    obtain ⟨k, rfl⟩ : ∃ m, k = m + 1 := Nat.exists_eq_add_one.mpr (by omega)
    rfl
  | cons e exceptions ih =>
    obtain ⟨he, hexceptions⟩ := List.forall_mem_cons.mp h
    simp only [List.flatMap_cons, List.length_append, List.length_cons] at hk hn
    obtain ⟨k, rfl⟩ : ∃ m, k = m + 1 := Nat.exists_eq_add_one.mpr (by omega)
    have hmore := ih (k := k) hexceptions (by omega) (by omega)
    rw [List.flatMap_cons, List.cons_append, throws]
    rcases he with he | he
    · obtain ⟨t, rfl, hread⟩ := he.reads
      rw [List.length_cons] at hn
      simp [classType?, expect?, hread n _ (by omega : 4 * t.length ≤ n), hmore]
    · obtain ⟨t, rfl, hread⟩ := he.reads
      simp [hread, hmore]

theorem isMethodSignature_of_types {parameters result : List Char} {types exceptions : List (List Char)}
    (hparameters : IsOptionalParameters parameters) (htypes : ∀ t ∈ types, IsType t)
    (hresult : result = ['V'] ∨ IsType result)
    (hexceptions : ∀ e ∈ exceptions, Derives .classType e ∨ Derives .typeVariable e) :
    isMethodSignature (parameters ++ '(' :: (types.flatten ++ ')' ::
      (result ++ exceptions.flatMap ('^' :: ·)))) = true := by
  have hdepth : depth (parameters ++ '(' :: (types.flatten ++ ')' ::
      (result ++ exceptions.flatMap ('^' :: ·)))) =
        4 * (parameters.length + (types.flatten.length + (result.length +
          (exceptions.flatMap ('^' :: ·)).length + 1) + 1)) + 4 := by
    simp only [depth, List.length_append, List.length_cons]
  rw [isMethodSignature]
  generalize depth (parameters ++ '(' :: (types.flatten ++ ')' ::
    (result ++ exceptions.flatMap ('^' :: ·)))) = n at hdepth ⊢
  have hthrows := throws_flatMap (k := n) (n := n) hexceptions (by omega) (by omega)
  simp only [Option.bind_eq_bind]
  rw [hparameters.reads (by simp) (by omega), Option.bind_some, expect?, if_pos rfl, Option.bind_some,
    methodParameters?_flatten _ htypes (by omega) (by omega), Option.bind_some]
  rcases hresult with rfl | hresult
  · simpa using hthrows
  · have hread := hresult n (exceptions.flatMap ('^' :: ·)) (by omega)
    obtain ⟨c, t, rfl, -, hvoid⟩ := hresult.head
    rw [List.cons_append] at hread ⊢
    simpa [hvoid, hread] using hthrows

end BeanClass.Signature
