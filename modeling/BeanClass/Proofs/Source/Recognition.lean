import BeanClass.Proofs.Source.Attribute
import BeanClass.Proofs.Text.Pattern

/-! # Recognizing attributes

The shape of an attribute line as a pattern with preferences: a name, an operator and a type, with
white space around each of them. The reader of attributes finds the groups of this pattern. On a
trimmed line it succeeds exactly if the text can be cut at an operator into a name and a type, which
can be done in one way only.
-/

namespace BeanClass.AttributeLine

open Name Text

variable {text name type : List Char} {β : Type}

/-- A colon, or else one or two exclamation marks, of which two are preferred. -/
def operatorPattern : Pattern :=
  .either (.repeated true 1 (some 1) (· == ':')) (.repeated true 1 (some 2) (· == '!'))

/-- A name, an operator and a type. -/
def linePattern : Pattern :=
  .seq (.trimmed (!isOperator ·)) (.seq (.group operatorPattern) (.trimmed (!isOperator ·)))

theorem isPlain_of_isBlank {c : Char} (h : isBlank c = true) : (!isOperator c) = true := by
  by_contra hc
  rw [Bool.not_eq_true, Bool.not_eq_false', isOperator, Bool.or_eq_true, beq_iff_eq, beq_iff_eq] at hc
  rcases hc with rfl | rfl <;> exact absurd h (by decide)

theorem head?_dropWhile_plain (s : List Char) :
    ∀ c ∈ (s.dropWhile (!isOperator ·)).head?, (!isOperator c) = false := by
  intro c hc
  have hhead := List.head?_dropWhile_not (!isOperator ·) s
  rw [Option.mem_def.mp hc] at hhead
  exact hhead

/-- The preferred operator, if a single mark is never followed by another one. -/
theorem search_operator {next : List (List Char) → List Char → Option β}
    (hmark : ∀ found t, next found ('!' :: t) = none) (s : List Char) :
    (Pattern.group operatorPattern).search s next =
      (cutOperator? s).bind fun (rule, t) => next [rule.operator.toList] t := by
  have hsearch : (Pattern.group operatorPattern).search s next =
      ((Pattern.lengths true 1 (some 1) (s.takeWhile (· == ':')).length).findSome? fun n =>
        next [s.take n] (s.drop n)).or
      ((Pattern.lengths true 1 (some 2) (s.takeWhile (· == '!')).length).findSome? fun n =>
        next [s.take n] (s.drop n)) := by
    simp only [operatorPattern, Pattern.search, Pattern.take_matched]
  rw [hsearch]
  unfold cutOperator?
  split
  · rename_i t
    simp [Pattern.lengths, Nullability.operator]
  · rename_i t
    have hlengths : Pattern.lengths true 1 (some 2) (('!' :: '!' :: t).takeWhile (· == '!')).length =
        [2, 1] := by
      simp [Pattern.lengths, Nat.add_assoc, List.range']
    have htwo : List.take 2 ('!' :: '!' :: t) = ['!', '!'] := rfl
    have hsingle : List.drop 1 ('!' :: '!' :: t) = '!' :: t := rfl
    rw [hlengths, List.findSome?_cons, List.findSome?_cons, htwo, hsingle, hmark]
    cases hfound : next [['!', '!']] t <;> simp [Pattern.lengths, Nullability.operator, hfound]
  · rename_i t hnext
    have hrun : t.takeWhile (· == '!') = [] := by
      cases t with
      | nil => rfl
      | cons c t => exact List.takeWhile_cons_of_neg fun hc => hnext t (by rw [beq_iff_eq.mp hc])
    simp [Pattern.lengths, Nullability.operator, hrun]
  · rename_i hcolon hmarks hmark
    cases s with
    | nil => rfl
    | cons c t =>
      have hne : c ≠ ':' ∧ c ≠ '!' := ⟨fun hc => hcolon t (by rw [hc]), fun hc => hmark t (by rw [hc])⟩
      simp [Pattern.lengths, hne]

/-- No operator stands in front of a character of a name. -/
theorem cutOperator?_cons_plain {c : Char} (hc : (!isOperator c) = true) (t : List Char) :
    cutOperator? (c :: t) = none := by
  cases hcut : cutOperator? (c :: t) with
  | none => rfl
  | some found =>
    obtain ⟨d, more, hoperator, hd⟩ := isOperator_head found.1
    have htext := cutOperator?_eq_some hcut
    rw [hoperator] at htext
    cases htext
    simp [hd] at hc

theorem dropWhile_ne_nil {t : List Char} (h : ¬IsPlain t) : t.dropWhile (!isOperator ·) ≠ [] := by
  intro hnil
  refine h fun c hc => ?_
  simpa using List.dropWhile_eq_nil_iff.mp hnil c hc

/-- The type is all that is left of the text. -/
theorem search_type (found : List (List Char)) (t : List Char) :
    (Pattern.trimmed (!isOperator ·)).search t
        (fun more rest => if rest.isEmpty then some (found ++ more) else none) =
      if t.isEmpty || t.any isOperator then none else some (found ++ [core t]) := by
  by_cases ht : IsPlain t
  · have hplain : ∀ c ∈ t, (!isOperator c) = true := fun c hc => by rw [ht c hc]; rfl
    rw [ht.any_eq_false, Bool.or_false, ← List.append_nil t]
    by_cases hne : t = []
    · subst hne
      exact Pattern.search_trimmed_eq_none (fun c => isPlain_of_isBlank) (by simp)
    · rw [Pattern.search_trimmed (fun c => isPlain_of_isBlank) hplain (by simp) (fun _ _ _ _ => rfl)
        (Or.inr fun _ => Option.some_ne_none _) hne]
      simp [hne, core]
  · have hrest := dropWhile_ne_nil ht
    have hany : t.any isOperator = true := by
      by_contra hnone
      exact ht (isPlain_of_any (Bool.not_eq_true _ |>.mp hnone))
    rw [hany, Bool.or_true, if_pos rfl]
    conv_lhs => rw [← List.takeWhile_append_dropWhile (p := (!isOperator ·)) (l := t)]
    by_cases hne : t.takeWhile (!isOperator ·) = []
    · rw [hne]
      exact Pattern.search_trimmed_eq_none (fun c => isPlain_of_isBlank) (head?_dropWhile_plain t)
    · rw [Pattern.search_trimmed (fun c => isPlain_of_isBlank) (fun c => List.mem_takeWhile_imp)
        (head?_dropWhile_plain t) (fun _ _ _ _ => rfl) (Or.inl fun _ => by simp [hrest]) hne]
      simp [hrest]

/-- The operator is the first that stands there, and the type is what is left behind it. -/
theorem search_operator_type (found : List (List Char)) (s : List Char) :
    (Pattern.seq (.group operatorPattern) (.trimmed (!isOperator ·))).search s
        (fun more rest => if rest.isEmpty then some (found ++ more) else none) =
      (cutOperator? s).bind fun (rule, t) =>
        if t.isEmpty || t.any isOperator then none
        else some (found ++ [rule.operator.toList, core t]) := by
  rw [Pattern.search, search_operator]
  · simp only [← List.append_assoc, search_type]
    simp only [List.append_assoc, List.singleton_append]
  · intro operator t
    exact Pattern.search_trimmed_eq_none (fun c => isPlain_of_isBlank) (by simp [isOperator])

/-- Whether the rest can be matched does not depend on the name that is kept. -/
theorem bind_none_or_some (cut : Option (Nullability × List Char)) :
    (∀ name : List Char, (cut.bind fun (rule, t) =>
      if t.isEmpty || t.any isOperator then none
      else some ([name] ++ [rule.operator.toList, core t])) = none) ∨
    ∀ name : List Char, (cut.bind fun (rule, t) =>
      if t.isEmpty || t.any isOperator then none
      else some ([name] ++ [rule.operator.toList, core t])) ≠ none := by
  cases cut with
  | none => exact Or.inl fun _ => rfl
  | some found =>
    obtain ⟨rule, t⟩ := found
    by_cases hbad : (t.isEmpty || t.any isOperator) = true
    · exact Or.inl fun _ => if_pos hbad
    · exact Or.inr fun _ => ne_of_eq_of_ne (if_neg hbad) (Option.some_ne_none _)

/-- The parts of a line, as the operator is cut off what stands behind the name. -/
theorem map_parts? (text : List Char) :
    (parts? text).map (fun (name, nullability, type) =>
      [name, nullability.operator.toList, type]) =
        (cutOperator? (text.dropWhile (!isOperator ·))).bind fun (rule, t) =>
          if (text.takeWhile (!isOperator ·)).isEmpty || t.isEmpty || t.any isOperator then none
          else some [core (text.takeWhile (!isOperator ·)), rule.operator.toList, core t] := by
  rw [parts?]
  dsimp only
  split
  · rename_i hcut
    rw [hcut, Option.bind_some]
    split <;> simp [*]
  · rename_i hcut
    rw [hcut]
    rfl

/-- The reader of attributes finds the groups of the pattern. -/
theorem captures_linePattern (text : List Char) :
    linePattern.captures text = (parts? text).map fun (name, nullability, type) =>
      [name, nullability.operator.toList, type] := by
  have hsearch : linePattern.captures text = (Pattern.trimmed (!isOperator ·)).search text
      fun found rest => (Pattern.seq (.group operatorPattern) (.trimmed (!isOperator ·))).search rest
        fun more rest => if rest.isEmpty then some (found ++ more) else none := rfl
  rw [hsearch, map_parts?]
  simp only [search_operator_type]
  by_cases hne : text.takeWhile (!isOperator ·) = []
  · have hrest := head?_dropWhile_plain text
    have htext := List.takeWhile_append_dropWhile (p := (!isOperator ·)) (l := text)
    rw [hne, List.nil_append] at htext
    rw [htext] at hrest
    rw [hne, Pattern.search_trimmed_eq_none (fun c => isPlain_of_isBlank) hrest]
    simp
  · have hsame := bind_none_or_some (cutOperator? (text.dropWhile (!isOperator ·)))
    conv_lhs => rw [← List.takeWhile_append_dropWhile (p := (!isOperator ·)) (l := text)]
    rw [Pattern.search_trimmed (fun c => isPlain_of_isBlank) (fun c => List.mem_takeWhile_imp)
      (head?_dropWhile_plain text) (fun _ _ _ hc => by rw [cutOperator?_cons_plain hc, Option.bind_none])
      hsame hne]
    simp [hne, core]

/-- What the operators say about null. -/
inductive Denotes : List Char → Nullability → Prop
  | nullable : Denotes [':'] .nullable
  | notNull : Denotes ['!'] .notNull
  | neverNull : Denotes ['!', '!'] .neverNull

theorem denotes_operator (nullability : Nullability) :
    Denotes nullability.operator.toList nullability := by
  cases nullability
  · exact .nullable
  · exact .notNull
  · exact .neverNull

theorem Denotes.eq_operator {op : List Char} {nullability : Nullability} (h : Denotes op nullability) :
    op = nullability.operator.toList := by
  cases h <;> rfl

/-- A text is cut at an operator into a name and a type. -/
structure Cuts (text n op t : List Char) (nullability : Nullability) : Prop where
  text_eq : text = n ++ op ++ t
  denotes : Denotes op nullability
  name_plain : ':' ∉ n ∧ '!' ∉ n
  type_plain : ':' ∉ t ∧ '!' ∉ t
  isIdentifier : isIdentifier (trim n) = true
  not_isGap : ¬IsGap t

theorem isPlain_iff {s : List Char} : IsPlain s ↔ ':' ∉ s ∧ '!' ∉ s := by
  constructor
  · intro h
    exact ⟨fun hc => absurd (h _ hc) (by decide), fun hc => absurd (h _ hc) (by decide)⟩
  · rintro ⟨hcolon, hmark⟩ c hc
    have hne : c ≠ ':' ∧ c ≠ '!' := ⟨ne_of_mem_of_not_mem hc hcolon, ne_of_mem_of_not_mem hc hmark⟩
    simp [isOperator, hne]

theorem Cuts.unique {n op t n' op' t' : List Char} {rule rule' : Nullability}
    (h : Cuts text n op t rule) (h' : Cuts text n' op' t' rule') :
    n = n' ∧ op = op' ∧ t = t' ∧ rule = rule' := by
  have htext := h.text_eq.symm.trans h'.text_eq
  rw [h.denotes.eq_operator, h'.denotes.eq_operator, List.append_assoc, List.append_assoc] at htext
  obtain ⟨htake, hdrop⟩ := span_append (isPlain_iff.mpr h.name_plain) rule t
  obtain ⟨htake', hdrop'⟩ := span_append (isPlain_iff.mpr h'.name_plain) rule' t'
  rw [htext] at htake hdrop
  have hcut := cutOperator?_append rule (isPlain_iff.mpr h.type_plain)
  rw [← hdrop, hdrop', cutOperator?_append rule' (isPlain_iff.mpr h'.type_plain)] at hcut
  cases hcut
  exact ⟨htake.symm.trans htake', h.denotes.eq_operator.trans h'.denotes.eq_operator.symm, rfl, rfl⟩

theorem Cuts.parse_eq {number : Nat} {text : String} {n op t : List Char} {rule : Nullability}
    (htrimmed : IsTrimmed text.toList) (h : Cuts text.toList n op t rule) :
    AttributeLine.parse ⟨number, text⟩ =
      .ok ⟨String.ofList (trim n), String.ofList (trim t), rule, number⟩ := by
  refine (parse_eq_ok_iff htrimmed).mpr ⟨n, t, ?_, isPlain_iff.mpr h.name_plain,
    isPlain_iff.mpr h.type_plain, h.isIdentifier, fun htrim => h.not_isGap (trim_eq_nil_iff.mp htrim), rfl⟩
  dsimp only
  rw [h.text_eq, h.denotes.eq_operator, List.append_assoc]

theorem exists_cuts_of_parse {number : Nat} {text : String} {a : AttributeLine}
    (htrimmed : IsTrimmed text.toList) (h : AttributeLine.parse ⟨number, text⟩ = .ok a) :
    ∃ n op t rule, Cuts text.toList n op t rule := by
  obtain ⟨n, t, htext, hn, ht, hname, htrim, -⟩ := (parse_eq_ok_iff htrimmed).mp h
  refine ⟨n, a.nullability.operator.toList, t, a.nullability, ?_, denotes_operator _,
    isPlain_iff.mp hn, isPlain_iff.mp ht, hname, fun hgap => htrim (trim_eq_nil_iff.mpr hgap)⟩
  rw [List.append_assoc]
  exact htext

/-- The reader of attributes finds the groups of the pattern of attribute lines. It succeeds on a
trimmed text exactly if the text can be cut at an operator into a name and a type; this can be done
in one way only, and the name and the type that are read are the trimmed parts. -/
theorem parse_recognizes (number : Nat) {text : String} (h : IsTrimmed text.toList) :
    linePattern.captures text.toList = (parts? text.toList).map (fun (name, nullability, type) =>
      [name, nullability.operator.toList, type]) ∧
    ((∃ a, AttributeLine.parse ⟨number, text⟩ = .ok a) ↔
      ∃ n op t rule, Cuts text.toList n op t rule) ∧
    ∀ n op t rule, Cuts text.toList n op t rule →
      AttributeLine.parse ⟨number, text⟩ =
        .ok ⟨String.ofList (trim n), String.ofList (trim t), rule, number⟩ ∧
      IsTrimmed (trim n) ∧ IsTrimmed (trim t) ∧
      ∀ n' op' t' rule', Cuts text.toList n' op' t' rule' →
        n' = n ∧ op' = op ∧ t' = t ∧ rule' = rule := by
  refine ⟨captures_linePattern _, ⟨?_, ?_⟩, ?_⟩
  · rintro ⟨a, ha⟩
    exact exists_cuts_of_parse h ha
  · rintro ⟨n, op, t, rule, hcuts⟩
    exact ⟨_, hcuts.parse_eq h⟩
  · intro n op t rule hcuts
    exact ⟨hcuts.parse_eq h, isTrimmed_trim n, isTrimmed_trim t,
      fun _ _ _ _ hother => hother.unique hcuts⟩

theorem parse_recognizes_spaced :
    AttributeLine.parse ⟨3, "items\u00a0 !!List< T >"⟩ =
      .ok ⟨"items", "List< T >", .neverNull, 3⟩ ∧
    ¬∃ n op t rule, Cuts "items ! ! T".toList n op t rule := by
  have hspaced : IsTrimmed "items\u00a0 !!List< T >".toList := by constructor <;> simp [isBlank]
  have hcuts : Cuts "items\u00a0 !!List< T >".toList "items\u00a0 ".toList ['!', '!']
      "List< T >".toList .neverNull :=
    ⟨by decide +kernel, .neverNull, by decide +kernel, by decide +kernel, by decide +kernel,
      fun h => absurd (h 'L' (by decide +kernel)) (by decide)⟩
  refine ⟨((parse_recognizes 3 hspaced).2.2 _ _ _ _ hcuts).1, ?_⟩
  rw [← (parse_recognizes 3 (by constructor <;> simp [isBlank])).2.1]
  rintro ⟨a, ha⟩
  have herror : AttributeLine.parse ⟨3, "items ! ! T"⟩ =
      .error (.invalid 3 (.malformedAttribute "items ! ! T")) := by decide +kernel
  rw [herror] at ha
  cases ha

end BeanClass.AttributeLine
