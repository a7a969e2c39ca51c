import BeanClass.Proofs.Signatures.Recognition

/-! # The strict grammar of signatures

In the strict grammar only packages stand in front of a slash, and what a dot separates has no slash. A
signature that is accepted is one of the strict grammar exactly if no slash in it stands behind type
arguments or behind a name that follows a dot.
-/

namespace BeanClass.Signature

/-- Phrases of the strict grammar. A segment is a class name with optional type arguments, and a simple
type is a segment behind the packages that it is in. -/
inductive Strict : Nonterminal → List Char → Prop
  | base {c : Char} : c ∈ ['B', 'C', 'D', 'F', 'I', 'J', 'S', 'Z'] → Strict .javaType [c]
  | ofReference {s : List Char} : Strict .reference s → Strict .javaType s
  | ofClass {s : List Char} : Strict .classType s → Strict .reference s
  | ofVariable {s : List Char} : Strict .typeVariable s → Strict .reference s
  | array {s : List Char} : Strict .javaType s → Strict .reference ('[' :: s)
  | typeVariable {s : List Char} : IsIdentifier s → Strict .typeVariable ('T' :: (s ++ [';']))
  | classType {outer : List Char} {inner : List (List Char)} : Strict .simpleType outer →
      (∀ s ∈ inner, Strict .segment s) →
      Strict .classType ('L' :: (List.intercalate ['.'] (outer :: inner) ++ [';']))
  | simpleType {packages : List (List Char)} {s : List Char} : (∀ p ∈ packages, IsIdentifier p) →
      Strict .segment s → Strict .simpleType (List.intercalate ['/'] (packages ++ [s]))
  | plain {s : List Char} : IsIdentifier s → Strict .segment s
  | applied {s : List Char} {args : List (List Char)} : IsIdentifier s → args ≠ [] →
      (∀ arg ∈ args, Strict .argument arg) → Strict .segment (s ++ '<' :: (args.flatten ++ ['>']))
  | wildcard : Strict .argument ['*']
  | exact {s : List Char} : Strict .reference s → Strict .argument s
  | bounded {c : Char} {s : List Char} : c ∈ ['+', '-'] → Strict .reference s →
      Strict .argument (c :: s)

/-- A type parameter, whose first bound may be missing. -/
inductive IsStrictParameter : List Char → Prop
  | mk {name first : List Char} {bounds : List (List Char)} : IsIdentifier name →
      (first = [] ∨ Strict .reference first) → (∀ bound ∈ bounds, Strict .reference bound) →
      IsStrictParameter (name ++ ':' :: (first ++ bounds.flatMap (':' :: ·)))

def IsStrictParameters (s : List Char) : Prop :=
  s = [] ∨ ∃ parameters : List (List Char), parameters ≠ [] ∧
    (∀ p ∈ parameters, IsStrictParameter p) ∧ s = '<' :: (parameters.flatten ++ ['>'])

inductive IsStrictClassSig : List Char → Prop
  | mk {parameters : List Char} {types : List (List Char)} : IsStrictParameters parameters →
      types ≠ [] → (∀ t ∈ types, Strict .classType t) → IsStrictClassSig (parameters ++ types.flatten)

inductive IsStrictMethodSig : List Char → Prop
  | mk {parameters result : List Char} {types exceptions : List (List Char)} :
      IsStrictParameters parameters → (∀ t ∈ types, Strict .javaType t) →
      (result = ['V'] ∨ Strict .javaType result) →
      (∀ e ∈ exceptions, Strict .classType e ∨ Strict .typeVariable e) →
      IsStrictMethodSig (parameters ++ '(' :: (types.flatten ++ ')' ::
        (result ++ exceptions.flatMap ('^' :: ·))))

/-- A slash stands behind type arguments, or behind a name that follows a dot. -/
def MisplacesSlash (s : List Char) : Prop :=
  ['>', '/'] <:+: s ∨ ∃ name, IsIdentifier name ∧ '.' :: (name ++ ['/']) <:+: s

variable {c : Char} {s t : List Char} {p : Nonterminal}

theorem IsIdentifier.isIdentifierChar (h : IsIdentifier s) : ∀ c ∈ s, isIdentifierChar c = true :=
  fun c hc => isIdentifierChar_iff.mpr (h.chars c hc)

/-! ## Scanning for slashes -/

/-- What the next character of a signature stands behind. -/
inductive Behind where
  | arguments
  /-- A dot and perhaps some characters of a name. -/
  | dot
  | other
  deriving DecidableEq

namespace Behind

variable {b b' : Behind}

/-- Only behind something else than type arguments or a dot may a slash stand. -/
def next? (b : Behind) (c : Char) : Option Behind :=
  if c = '/' then if b = other then some other else none
  else if c = '>' then some arguments
  else if c = '.' ∨ b = dot ∧ isIdentifierChar c = true then some dot
  else some other

def scan? (b : Behind) (s : List Char) : Option Behind :=
  s.foldlM next? b

@[simp] theorem scan?_cons (b : Behind) (c : Char) (s : List Char) :
    b.scan? (c :: s) = (b.next? c).bind (·.scan? s) := rfl

@[simp] theorem scan?_append (b : Behind) (s t : List Char) :
    b.scan? (s ++ t) = (b.scan? s).bind (·.scan? t) :=
  List.foldlM_append

theorem next?_of_isIdentifierChar (h : isIdentifierChar c = true) :
    b.next? c = some (if b = dot then dot else other) := by
  have hc := isIdentifierChar_iff.mp h
  simp only [List.mem_cons, List.not_mem_nil, or_false, not_or] at hc
  simp only [next?, hc.1, hc.2.2.2.1, hc.2.2.2.2.2.1, h, if_false, and_true, false_or]
  split <;> rfl

theorem next?_of_mem (h : c ∈ ['<', ':', ';', '[']) : b.next? c = some other := by
  simp only [List.mem_cons, List.not_mem_nil, or_false] at h
  rcases h with rfl | rfl | rfl | rfl <;> cases b <;> rfl

theorem next?_dot : b.next? '.' = some dot := by
  cases b <;> rfl

theorem next?_close : b.next? '>' = some arguments := by
  cases b <;> rfl

theorem scan?_dot (h : ∀ c ∈ s, isIdentifierChar c = true) : dot.scan? s = some dot := by
  induction s with
  | nil => rfl
  | cons c s ih =>
    obtain ⟨hc, hs⟩ := List.forall_mem_cons.mp h
    rw [scan?_cons, next?_of_isIdentifierChar hc, Option.bind_some, if_pos rfl, ih hs]

theorem scan?_other (h : ∀ c ∈ s, isIdentifierChar c = true) : other.scan? s = some other := by
  induction s with
  | nil => rfl
  | cons c s ih =>
    obtain ⟨hc, hs⟩ := List.forall_mem_cons.mp h
    rw [scan?_cons, next?_of_isIdentifierChar hc, Option.bind_some, if_neg (by decide), ih hs]

/-- A scan stops at a misplaced slash. -/
theorem not_misplacesSlash_of_scan? (h : b.scan? s = some b') : ¬MisplacesSlash s := by
  rintro (⟨before, after, rfl⟩ | ⟨name, hname, before, after, rfl⟩)
  · rw [scan?_append, scan?_append, Option.bind_eq_some_iff] at h
    obtain ⟨_, h, -⟩ := h
    obtain ⟨b, -, h⟩ := Option.bind_eq_some_iff.mp h
    rw [scan?_cons, next?_close] at h
    cases h
  · rw [scan?_append, scan?_append, Option.bind_eq_some_iff] at h
    obtain ⟨_, h, -⟩ := h
    obtain ⟨b, -, h⟩ := Option.bind_eq_some_iff.mp h
    rw [scan?_cons, next?_dot, Option.bind_some, scan?_append, scan?_dot hname.isIdentifierChar] at h
    cases h

end Behind

open Behind

/-- Where a scan of a phrase leads. A segment may stand behind a dot, and a simple type behind the
letter of a class type only. -/
def Scans : Nonterminal → List Char → Prop
  | .segment, s => ∀ b, b ≠ arguments → ∃ b', b.scan? s = some b'
  | .simpleType, s => ∃ b', other.scan? s = some b'
  | _, s => ∀ b, b ≠ dot → b.scan? s = some other

theorem scan?_flatten {texts : List (List Char)} (h : ∀ t ∈ texts, other.scan? t = some other) :
    other.scan? texts.flatten = some other := by
  induction texts with
  | nil => rfl
  | cons t texts ih =>
    obtain ⟨ht, htexts⟩ := List.forall_mem_cons.mp h
    rw [List.flatten_cons, scan?_append, ht, Option.bind_some, ih htexts]

/-- Each text stands behind a character that is no slash, dot or closing bracket. -/
theorem scan?_flatMap {texts : List (List Char)} (hc : c ∈ [':', '^'])
    (h : ∀ t ∈ texts, other.scan? t = some other) :
    other.scan? (texts.flatMap (c :: ·)) = some other := by
  have hnext : other.next? c = some other := by
    simp only [List.mem_cons, List.not_mem_nil, or_false] at hc
    rcases hc with rfl | rfl <;> rfl
  rw [List.flatMap_def]
  refine scan?_flatten fun u hu => ?_
  obtain ⟨t, ht, rfl⟩ := List.mem_map.mp hu
  rw [scan?_cons, hnext, Option.bind_some, h t ht]

theorem IsIdentifier.scans (h : IsIdentifier s) : Scans .segment s := by
  intro b hb
  cases b with
  | arguments => exact absurd rfl hb
  | dot => exact ⟨_, scan?_dot h.isIdentifierChar⟩
  | other => exact ⟨_, scan?_other h.isIdentifierChar⟩

theorem scans_applied {args : List (List Char)} (h : IsIdentifier s)
    (hargs : ∀ arg ∈ args, Scans .argument arg) :
    Scans .segment (s ++ '<' :: (args.flatten ++ ['>'])) := by
  intro b hb
  obtain ⟨b', hscan⟩ := h.scans b hb
  have hflatten := scan?_flatten fun arg harg => hargs arg harg other nofun
  refine ⟨arguments, ?_⟩
  rw [scan?_append, hscan, Option.bind_some, scan?_cons, next?_of_mem (by decide), Option.bind_some,
    scan?_append, hflatten]
  rfl

theorem scans_packages {packages : List (List Char)} (hs : Scans .segment s)
    (h : ∀ p ∈ packages, IsIdentifier p) :
    Scans .simpleType (List.intercalate ['/'] (packages ++ [s])) := by
  induction packages with
  | nil =>
    rw [List.nil_append, List.intercalate_singleton]
    exact hs other nofun
  | cons p packages ih =>
    obtain ⟨hp, hpackages⟩ := List.forall_mem_cons.mp h
    obtain ⟨b, hscan⟩ := ih hpackages
    refine ⟨b, ?_⟩
    rw [List.cons_append, List.intercalate_cons_of_ne_nil (by simp), List.append_assoc, scan?_append,
      scan?_other hp.isIdentifierChar]
    exact hscan

/-- Behind each dot stands a segment. -/
theorem scan?_dotted {b : Behind} {inner : List (List Char)} (hs : ∃ b', b.scan? s = some b')
    (h : ∀ t ∈ inner, Scans .segment t) :
    ∃ b', b.scan? (List.intercalate ['.'] (s :: inner)) = some b' := by
  induction inner generalizing b s with
  | nil =>
    rw [List.intercalate_singleton]
    exact hs
  | cons t inner ih =>
    obtain ⟨ht, hinner⟩ := List.forall_mem_cons.mp h
    obtain ⟨b', hscan⟩ := hs
    obtain ⟨b'', hmore⟩ := ih (ht dot nofun) hinner
    refine ⟨b'', ?_⟩
    rw [List.intercalate_cons_cons, List.append_assoc, scan?_append, hscan, Option.bind_some,
      List.singleton_append, scan?_cons, next?_dot, Option.bind_some, hmore]

/-- The letter that starts a phrase. -/
theorem scan?_letter {b : Behind} (hc : isIdentifierChar c = true) (hb : b ≠ dot) :
    b.scan? (c :: s) = other.scan? s := by
  rw [scan?_cons, next?_of_isIdentifierChar hc, if_neg hb, Option.bind_some]

theorem Strict.scans (h : Strict p s) : Scans p s := by
  induction h with
  | base hc =>
    intro b hb
    refine scan?_letter ?_ hb
    have hall : ['B', 'C', 'D', 'F', 'I', 'J', 'S', 'Z'].all isIdentifierChar = true := by decide
    exact List.all_eq_true.mp hall _ hc
  | ofReference _ ih | ofClass _ ih | ofVariable _ ih | exact _ ih => exact ih
  | array _ ih =>
    intro b hb
    rw [scan?_cons, next?_of_mem (by decide)]
    exact ih other nofun
  | typeVariable h =>
    intro b hb
    rw [scan?_letter (by decide) hb, scan?_append, scan?_other h.isIdentifierChar]
    rfl
  | classType _ _ houter hinner =>
    intro b hb
    obtain ⟨b', hscan⟩ := scan?_dotted houter hinner
    rw [scan?_letter (by decide) hb, scan?_append, hscan, Option.bind_some, scan?_cons,
      next?_of_mem (by decide)]
    rfl
  | simpleType hpackages _ ih => exact scans_packages ih hpackages
  | plain h => exact h.scans
  | applied h _ _ ih => exact scans_applied h ih
  | wildcard => exact fun b hb => scan?_letter (by decide) hb
  | @bounded c s hc _ ih =>
    intro b hb
    have hall : ['+', '-'].all isIdentifierChar = true := by decide
    rw [scan?_letter (List.all_eq_true.mp hall _ hc) hb]
    exact ih other nofun

theorem IsStrictParameter.scan?_eq (h : IsStrictParameter s) : other.scan? s = some other := by
  obtain ⟨hname, hfirst, hbounds⟩ := h
  rename_i name first bounds
  have hscan : other.scan? first = some other := by
    rcases hfirst with rfl | hfirst
    · rfl
    · exact hfirst.scans other nofun
  have hmore := scan?_flatMap (c := ':') (by decide) fun bound hb => (hbounds bound hb).scans other nofun
  rw [scan?_append, scan?_other hname.isIdentifierChar, Option.bind_some, scan?_cons,
    next?_of_mem (by decide), Option.bind_some, scan?_append, hscan, Option.bind_some, hmore]

theorem IsStrictParameters.scan?_eq (h : IsStrictParameters s) :
    ∃ b, b ≠ dot ∧ other.scan? s = some b := by
  rcases h with rfl | ⟨parameters, -, hparameters, rfl⟩
  · exact ⟨other, nofun, rfl⟩
  · have hscan := scan?_flatten fun p hp => (hparameters p hp).scan?_eq
    refine ⟨arguments, nofun, ?_⟩
    rw [scan?_cons, next?_of_mem (by decide), Option.bind_some, scan?_append, hscan]
    rfl

theorem IsStrictClassSig.not_misplacesSlash (h : IsStrictClassSig s) : ¬MisplacesSlash s := by
  obtain ⟨hparameters, hne, htypes⟩ := h
  rename_i parameters types
  obtain ⟨b, hb, hscan⟩ := hparameters.scan?_eq
  obtain ⟨t, types, rfl⟩ := List.exists_cons_of_ne_nil hne
  obtain ⟨ht, hmore⟩ := List.forall_mem_cons.mp htypes
  have hflatten := scan?_flatten fun t ht => (hmore t ht).scans other nofun
  apply not_misplacesSlash_of_scan? (b := other)
  rw [scan?_append, hscan, Option.bind_some, List.flatten_cons, scan?_append, ht.scans b hb,
    Option.bind_some, hflatten]

theorem IsStrictMethodSig.not_misplacesSlash (h : IsStrictMethodSig s) : ¬MisplacesSlash s := by
  obtain ⟨hparameters, htypes, hresult, hexceptions⟩ := h
  rename_i parameters result types exceptions
  obtain ⟨b, hb, hscan⟩ := hparameters.scan?_eq
  have hflatten := scan?_flatten fun t ht => (htypes t ht).scans other nofun
  have hreturn : other.scan? result = some other := by
    rcases hresult with rfl | hresult
    · rfl
    · exact hresult.scans other nofun
  have hthrows : other.scan? (exceptions.flatMap ('^' :: ·)) = some other :=
    scan?_flatMap (by decide) fun e he =>
      (hexceptions e he).elim (fun h => h.scans other nofun) fun h => h.scans other nofun
  apply not_misplacesSlash_of_scan? (b := other)
  rw [scan?_append, hscan, Option.bind_some, scan?_letter (by decide) hb, scan?_append, hflatten,
    Option.bind_some, scan?_letter (b := other) (by decide) nofun, scan?_append, hreturn,
    Option.bind_some, hthrows]

/-! ## Phrases without misplaced slashes -/

theorem MisplacesSlash.mono (h : MisplacesSlash s) (hpart : s <:+: t) : MisplacesSlash t :=
  h.imp (·.trans hpart) fun ⟨name, hname, h⟩ => ⟨name, hname, h.trans hpart⟩

theorem infix_intercalate {sep : List Char} {texts : List (List Char)} (h : s ∈ texts) :
    s <:+: List.intercalate sep texts := by
  induction texts with
  | nil => cases h
  | cons t texts ih =>
    cases texts with
    | nil =>
      obtain rfl := List.mem_singleton.mp h
      rw [List.intercalate_singleton]
    | cons u texts =>
      rw [List.intercalate_cons_cons]
      rcases List.mem_cons.mp h with rfl | h
      · exact ⟨[], sep ++ List.intercalate sep (u :: texts), by simp⟩
      · exact (ih h).trans (List.suffix_append _ _).isInfix

/-- All texts but the last are followed by the separator. -/
theorem infix_intercalate_concat {texts : List (List Char)} (h : s ∈ texts) :
    s ++ [c] <:+: List.intercalate [c] (texts ++ [t]) := by
  induction texts with
  | nil => cases h
  | cons u texts ih =>
    rw [List.cons_append, List.intercalate_cons_of_ne_nil (by simp)]
    rcases List.mem_cons.mp h with rfl | h
    · exact (List.prefix_append _ _).isInfix
    · exact (ih h).trans (List.suffix_append _ _).isInfix

/-- All texts but the first follow the separator. -/
theorem infix_intercalate_cons {texts : List (List Char)} (h : s ∈ texts) :
    c :: s <:+: List.intercalate [c] (t :: texts) := by
  induction texts generalizing t with
  | nil => cases h
  | cons u texts ih =>
    rw [List.intercalate_cons_cons, List.append_assoc]
    rcases List.mem_cons.mp h with rfl | h
    · cases texts with
      | nil =>
        rw [List.intercalate_singleton]
        exact (List.suffix_append _ _).isInfix
      | cons v texts =>
        rw [List.intercalate_cons_cons]
        exact ⟨t, [c] ++ List.intercalate [c] (v :: texts), by simp⟩
    · exact (ih h).trans ((List.suffix_append _ _).trans (List.suffix_append _ _)).isInfix

/-- Type arguments do not stand in front of a slash. -/
theorem isIdentifier_of_segment (h : Derives .segment s) (hslash : ¬MisplacesSlash (s ++ ['/'])) :
    IsIdentifier s := by
  cases h with
  | plain h => exact h
  | @applied s args h _ _ =>
    have hpart : ['>', '/'] <:+: s ++ '<' :: (args.flatten ++ ['>']) ++ ['/'] :=
      ⟨s ++ '<' :: args.flatten, [], by simp⟩
    exact absurd (Or.inl hpart) hslash

/-- What stands behind a dot is not in a package. -/
theorem strict_segment_of_simpleType (h : Strict .simpleType s) (hslash : ¬MisplacesSlash ('.' :: s)) :
    Strict .segment s := by
  cases h with
  | @simpleType packages t hpackages ht =>
    cases packages with
    | nil =>
      rw [List.nil_append, List.intercalate_singleton]
      exact ht
    | cons p packages =>
      have hpart : p ++ ['/'] <+: List.intercalate ['/'] (p :: packages ++ [t]) := by
        rw [List.cons_append, List.intercalate_cons_of_ne_nil (by simp)]
        exact List.prefix_append _ _
      have hname := (List.forall_mem_cons.mp hpackages).1
      exact absurd (Or.inr ⟨p, hname, (List.prefix_cons_inj '.').mpr hpart |>.isInfix⟩) hslash

theorem Derives.strict (h : Derives p s) : ¬MisplacesSlash s → Strict p s := by
  induction h with
  | base hc => exact fun _ => .base hc
  | ofReference _ ih => exact fun hslash => .ofReference (ih hslash)
  | ofClass _ ih => exact fun hslash => .ofClass (ih hslash)
  | ofVariable _ ih => exact fun hslash => .ofVariable (ih hslash)
  | array _ ih =>
    exact fun hslash => .array (ih fun h => hslash (h.mono (List.suffix_cons _ _).isInfix))
  | typeVariable h => exact fun _ => .typeVariable h
  | @classType parts hne hparts ih =>
    intro hslash
    have hname : ¬MisplacesSlash (List.intercalate ['.'] parts) :=
      fun h => hslash (h.mono ⟨['L'], [';'], rfl⟩)
    obtain ⟨outer, inner, rfl⟩ := List.exists_cons_of_ne_nil hne
    have hsimple : ∀ t ∈ outer :: inner, Strict .simpleType t :=
      fun t ht => ih t ht fun h => hname (h.mono (infix_intercalate ht))
    refine .classType (hsimple _ List.mem_cons_self) fun t ht => ?_
    exact strict_segment_of_simpleType (hsimple t (List.mem_cons_of_mem _ ht))
      fun h => hname (h.mono (infix_intercalate_cons ht))
  | @simpleType segments hne hsegments ih =>
    intro hslash
    rcases List.eq_nil_or_concat' segments with rfl | ⟨packages, last, rfl⟩
    · exact absurd rfl hne
    · rw [List.forall_mem_append] at hsegments
      refine .simpleType (fun t ht => isIdentifier_of_segment (hsegments.1 t ht) fun h =>
        hslash (h.mono (infix_intercalate_concat ht))) ?_
      have hlast : last ∈ packages ++ [last] := by simp
      exact ih last hlast fun h => hslash (h.mono (infix_intercalate hlast))
  | plain h => exact fun _ => .plain h
  | @applied s args h hne _ ih =>
    intro hslash
    have hflatten : args.flatten <:+: s ++ '<' :: (args.flatten ++ ['>']) :=
      ⟨s ++ ['<'], ['>'], by simp⟩
    exact .applied h hne fun arg harg => ih arg harg fun h =>
      hslash ((h.mono (List.infix_of_mem_flatten harg)).mono hflatten)
  | wildcard => exact fun _ => .wildcard
  | exact _ ih => exact fun hslash => .exact (ih hslash)
  | bounded hc _ ih =>
    exact fun hslash => .bounded hc (ih fun h => hslash (h.mono (List.suffix_cons _ _).isInfix))

/-! ## Whole signatures -/

theorem IsParameter.strict {next : List Char} (h : IsParameter next s) (hslash : ¬MisplacesSlash s) :
    IsStrictParameter s := by
  have hbounds : ∀ (before : List Char) {bounds : List (List Char)},
      s = before ++ bounds.flatMap (':' :: ·) → (∀ bound ∈ bounds, Derives .reference bound) →
      ∀ bound ∈ bounds, Strict .reference bound := by
    intro before bounds heq hbounds bound hb
    refine (hbounds bound hb).strict fun h => hslash (h.mono ?_)
    have hpart := List.infix_of_mem_flatten (List.mem_map_of_mem (f := (':' :: ·)) hb)
    rw [heq, List.flatMap_def]
    exact ((List.suffix_cons _ _).isInfix.trans hpart).trans (List.suffix_append _ _).isInfix
  cases h with
  | @bounded name first bounds hname hfirst hderives =>
    have hpart : first <:+: name ++ ':' :: (first ++ bounds.flatMap (':' :: ·)) :=
      ⟨name ++ [':'], bounds.flatMap (':' :: ·), by simp⟩
    refine .mk hname (Or.inr (hfirst.strict fun h => hslash (h.mono hpart))) ?_
    exact hbounds (name ++ ':' :: first) (by simp) hderives
  | @unbounded name bounds hname hderives _ =>
    exact .mk hname (Or.inl rfl) (hbounds (name ++ [':']) (by simp) hderives)

theorem IsParameterList.strict (h : IsParameterList s) (hslash : ¬MisplacesSlash s) :
    ∃ parameters : List (List Char), parameters ≠ [] ∧ (∀ p ∈ parameters, IsStrictParameter p) ∧
      s = parameters.flatten ++ ['>'] := by
  induction h with
  | @last p hp =>
    have hp := hp.strict fun h => hslash (h.mono (List.prefix_append _ _).isInfix)
    exact ⟨[p], List.cons_ne_nil _ _, List.forall_mem_singleton.mpr hp, by simp⟩
  | @cons p s hp _ ih =>
    have hstrict := hp.strict fun h => hslash (h.mono (List.prefix_append _ _).isInfix)
    obtain ⟨parameters, -, hparameters, rfl⟩ :=
      ih fun h => hslash (h.mono (List.suffix_append _ _).isInfix)
    exact ⟨p :: parameters, List.cons_ne_nil _ _, List.forall_mem_cons.mpr ⟨hstrict, hparameters⟩,
      by simp⟩

theorem IsOptionalParameters.strict (h : IsOptionalParameters s) (hslash : ¬MisplacesSlash s) :
    IsStrictParameters s := by
  rcases h with rfl | ⟨t, rfl, ht⟩
  · exact Or.inl rfl
  · obtain ⟨parameters, hne, hparameters, rfl⟩ :=
      ht.strict fun h => hslash (h.mono (List.suffix_cons _ _).isInfix)
    exact Or.inr ⟨parameters, hne, hparameters, rfl⟩

/-- Phrases one behind the other, somewhere in a text. -/
theorem strict_of_mem_flatten {texts : List (List Char)} (hslash : ¬MisplacesSlash s)
    (hpart : texts.flatten <:+: s) (h : ∀ t ∈ texts, Derives p t) : ∀ t ∈ texts, Strict p t :=
  fun t ht => (h t ht).strict fun hmisplaced =>
    hslash ((hmisplaced.mono (List.infix_of_mem_flatten ht)).mono hpart)

theorem IsClassSig.strict_iff (h : IsClassSig s) : IsStrictClassSig s ↔ ¬MisplacesSlash s := by
  refine ⟨IsStrictClassSig.not_misplacesSlash, fun hslash => ?_⟩
  obtain ⟨hparameters, hne, htypes⟩ := h
  refine .mk (hparameters.strict fun h => hslash (h.mono (List.prefix_append _ _).isInfix)) hne ?_
  exact strict_of_mem_flatten hslash (List.suffix_append _ _).isInfix htypes

theorem strict_javaType_iff (h : Derives .javaType s) : Strict .javaType s ↔ ¬MisplacesSlash s :=
  ⟨fun h => not_misplacesSlash_of_scan? (h.scans other nofun), h.strict⟩

theorem IsMethodSig.strict_iff (h : IsMethodSig s) : IsStrictMethodSig s ↔ ¬MisplacesSlash s := by
  refine ⟨IsStrictMethodSig.not_misplacesSlash, fun hslash => ?_⟩
  obtain @⟨parameters, result, types, exceptions, hparameters, htypes, hresult, hexceptions⟩ := h
  have htypesInfix : types.flatten <:+: parameters ++ '(' :: (types.flatten ++ ')' ::
      (result ++ exceptions.flatMap ('^' :: ·))) :=
    ⟨parameters ++ ['('], ')' :: (result ++ exceptions.flatMap ('^' :: ·)), by simp⟩
  have hresultInfix : result <:+: parameters ++ '(' :: (types.flatten ++ ')' ::
      (result ++ exceptions.flatMap ('^' :: ·))) :=
    ⟨parameters ++ '(' :: (types.flatten ++ [')']), exceptions.flatMap ('^' :: ·), by simp⟩
  have hthrows : exceptions.flatMap ('^' :: ·) <:+: parameters ++ '(' :: (types.flatten ++ ')' ::
      (result ++ exceptions.flatMap ('^' :: ·))) :=
    ⟨parameters ++ '(' :: (types.flatten ++ ')' :: result), [], by simp⟩
  refine .mk (hparameters.strict fun h => hslash (h.mono (List.prefix_append _ _).isInfix))
    (strict_of_mem_flatten hslash htypesInfix htypes)
    (hresult.imp_right fun h => h.strict fun h => hslash (h.mono hresultInfix)) fun e he => ?_
  have hpart := List.infix_of_mem_flatten (List.mem_map_of_mem (f := ('^' :: ·)) he)
  rw [← List.flatMap_def] at hpart
  have hexception : ¬MisplacesSlash e := fun h =>
    hslash (((h.mono (List.suffix_cons _ _).isInfix).mono hpart).mono hthrows)
  exact (hexceptions e he).imp (fun h => h.strict hexception) fun h => h.strict hexception

/-- A signature that is accepted is one of the strict grammar exactly if all its slashes stand behind
packages. -/
theorem isSignature_strict_iff (s : List Char) :
    (isClassSignature s = true → (IsStrictClassSig s ↔ ¬MisplacesSlash s)) ∧
      (isFieldSignature s = true → (Strict .javaType s ↔ ¬MisplacesSlash s)) ∧
      (isMethodSignature s = true → (IsStrictMethodSig s ↔ ¬MisplacesSlash s)) :=
  ⟨fun h => (isClassSignature_iff.mp h).strict_iff,
    fun h => strict_javaType_iff (isFieldSignature_iff.mp h),
    fun h => (isMethodSignature_iff.mp h).strict_iff⟩

theorem isSignature_strict_iff_inner :
    (isClassSignature "<T:Ljava/lang/Object;>La/b<TT;>.c<*>;".toList = true ∧
      IsStrictClassSig "<T:Ljava/lang/Object;>La/b<TT;>.c<*>;".toList) ∧
    (isFieldSignature "[La/b<+[I>.c;".toList = true ∧ Strict .javaType "[La/b<+[I>.c;".toList) ∧
    isMethodSignature "(ITT;)La/b<*>.c;^La/d;".toList = true ∧
      IsStrictMethodSig "(ITT;)La/b<*>.c;^La/d;".toList := by
  have hclass : isClassSignature "<T:Ljava/lang/Object;>La/b<TT;>.c<*>;".toList = true := by cbv
  have hfield : isFieldSignature "[La/b<+[I>.c;".toList = true := by cbv
  have hmethod : isMethodSignature "(ITT;)La/b<*>.c;^La/d;".toList = true := by cbv
  have hscan : ∀ {s : List Char}, other.scan? s = some other → ¬MisplacesSlash s :=
    not_misplacesSlash_of_scan?
  exact ⟨⟨hclass, ((isSignature_strict_iff _).1 hclass).mpr (hscan (by decide))⟩,
    ⟨hfield, ((isSignature_strict_iff _).2.1 hfield).mpr (hscan (by decide))⟩,
    hmethod, ((isSignature_strict_iff _).2.2 hmethod).mpr (hscan (by decide))⟩

/-- Type arguments in front of a slash and a slash behind a dot are both accepted. -/
theorem isSignature_not_strict :
    (isClassSignature "La<*>/b;".toList = true ∧ ¬IsStrictClassSig "La<*>/b;".toList) ∧
      (isFieldSignature "La<*>/b;".toList = true ∧ ¬Strict .javaType "La<*>/b;".toList) ∧
      (isFieldSignature "La.b/c;".toList = true ∧ ¬Strict .javaType "La.b/c;".toList) ∧
      isMethodSignature "()La.b/c;".toList = true ∧ ¬IsStrictMethodSig "()La.b/c;".toList := by
  have hname : IsIdentifier ['b'] := ⟨List.cons_ne_nil _ _, by simp⟩
  have harguments : MisplacesSlash "La<*>/b;".toList := Or.inl ⟨"La<*".toList, "b;".toList, rfl⟩
  have hdot : MisplacesSlash "La.b/c;".toList :=
    Or.inr ⟨['b'], hname, "La".toList, "c;".toList, rfl⟩
  have hresult : MisplacesSlash "()La.b/c;".toList := hdot.mono ⟨"()".toList, [], rfl⟩
  exact ⟨⟨by cbv, fun h => h.not_misplacesSlash harguments⟩,
    ⟨by cbv, fun h => not_misplacesSlash_of_scan? (h.scans other nofun) harguments⟩,
    ⟨by cbv, fun h => not_misplacesSlash_of_scan? (h.scans other nofun) hdot⟩,
    by cbv, fun h => h.not_misplacesSlash hresult⟩

end BeanClass.Signature
