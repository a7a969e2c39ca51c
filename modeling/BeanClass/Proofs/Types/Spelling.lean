import BeanClass.Proofs.Outcomes
import BeanClass.Proofs.Text.Blank
import BeanClass.Types.Expr

/-! # Spellings of type expressions

A type expression is spelled as a raw name, arguments in angle brackets and pairs of square brackets,
with white space between them. Reading a text gives an expression exactly if the text spells it,
although the reader cuts brackets off the end and counts angle brackets between commas.
-/

namespace BeanClass.TypeExpr

open Text

variable {s t text : List Char} {gaps : List (List Char)} {pieces : List (List Char)}

/-- A name without white space around it and without brackets and commas. -/
structure IsRawName (s : List Char) : Prop where
  ne_nil : s ≠ []
  trimmed : IsTrimmed s
  chars : ∀ c ∈ s, c ∉ ['[', ']', '<', '>', ',']

/-- Pairs of square brackets, each behind its gap. -/
def brackets (gaps : List (List Char)) : List Char :=
  gaps.flatMap (· ++ ['[', ']'])

inductive Spells : TypeExpr → List Char → Prop
  | plain {raw : String} {before after : List Char} {gaps : List (List Char)} :
      IsGap before → IsRawName raw.toList → (∀ gap ∈ gaps, IsGap gap) → gaps.length ≤ 255 →
      IsGap after →
      Spells ⟨raw, [], gaps.length⟩ (before ++ (raw.toList ++ brackets gaps) ++ after)
  | generic {raw : String} {before gap after : List Char} {args : List (TypeExpr × List Char)}
      {gaps : List (List Char)} :
      IsGap before → IsRawName raw.toList → IsGap gap → args ≠ [] →
      (∀ arg ∈ args, Spells arg.1 arg.2) → (∀ gap ∈ gaps, IsGap gap) → gaps.length ≤ 255 →
      IsGap after →
      Spells ⟨raw, args.map Prod.fst, gaps.length⟩
        (before ++ (raw.toList ++ (gap ++ '<' :: (List.intercalate [','] (args.map Prod.snd) ++ ['>'])) ++
          brackets gaps) ++ after)

/-! ## Trailing brackets -/

theorem brackets_concat (gaps : List (List Char)) (gap : List Char) :
    brackets (gaps ++ [gap]) = brackets gaps ++ gap ++ ['[', ']'] := by
  simp [brackets]

/-- A text in front of which no more brackets are cut off. -/
structure IsBase (s : List Char) : Prop where
  ne_nil : s ≠ []
  last : ∀ c ∈ s.getLast?, isBlank c = false ∧ c ≠ ']'

theorem IsBase.blank_append (h : IsBase s) (gaps : List (List Char)) :
    ∀ c ∈ (s ++ brackets gaps).getLast?, isBlank c = false := by
  intro c hc
  rcases List.eq_nil_or_concat gaps with rfl | ⟨gaps, gap, rfl⟩
  · rw [brackets, List.flatMap_nil, List.append_nil] at hc
    exact (h.last c hc).1
  · rw [List.concat_eq_append, brackets_concat, ← List.append_assoc,
      List.getLast?_append_of_ne_nil _ (List.cons_ne_nil _ _)] at hc
    cases hc
    decide

theorem cutDims_reverse (h : IsBase s) (hgaps : ∀ gap ∈ gaps, IsGap gap) :
    cutDims (s ++ brackets gaps).reverse = (gaps.length, s.reverse) := by
  induction gaps using List.reverseRecOn with
  | nil =>
    rw [brackets, List.flatMap_nil, List.append_nil, cutDims]
    · rfl
    · intro rest hrest
      have hlast : s.getLast? = some ']' := by rw [← List.head?_reverse, hrest]; rfl
      exact (h.last _ hlast).2 rfl
  | append_singleton gaps gap ih =>
    have hgap : ∀ c ∈ gap.reverse, isBlank c = true := by
      intro c hc
      exact hgaps gap (by simp) c (List.mem_reverse.mp hc)
    have hhead : ∀ c ∈ (s ++ brackets gaps).reverse.head?, isBlank c = false := by
      rw [List.head?_reverse]
      exact h.blank_append gaps
    have htext : (s ++ brackets (gaps ++ [gap])).reverse =
        ']' :: '[' :: (gap.reverse ++ (s ++ brackets gaps).reverse) := by
      simp [brackets_concat]
    rw [htext, cutDims, List.dropWhile_append_of_pos hgap, dropWhile_of_head? hhead,
      ih fun g hg => hgaps g (by simp [hg])]
    simp

/-- What is cut off a text with no white space at its end. -/
theorem exists_brackets (h : ∀ c ∈ s.head?, isBlank c = false) :
    ∃ gaps, (∀ gap ∈ gaps, IsGap gap) ∧ gaps.length = (cutDims s).1 ∧
      s.reverse = (cutDims s).2.reverse ++ brackets gaps ∧
      ∀ c ∈ (cutDims s).2.head?, isBlank c = false := by
  fun_induction cutDims s with
  | case1 rest dims base hcut ih =>
    have hhead : ∀ c ∈ (rest.dropWhile isBlank).head?, isBlank c = false := by
      intro c hc
      have hnot := List.head?_dropWhile_not isBlank rest
      rw [hc] at hnot
      exact hnot
    rw [hcut] at ih
    obtain ⟨gaps, hgaps, hlength, hrest, hbase⟩ := ih hhead
    refine ⟨gaps ++ [(rest.takeWhile isBlank).reverse], ?_, by simp [hlength], ?_, hbase⟩
    · intro gap hgap
      rcases List.mem_append.mp hgap with hgap | hgap
      · exact hgaps gap hgap
      · rw [List.mem_singleton.mp hgap]
        exact fun c hc => List.mem_takeWhile_imp (List.mem_reverse.mp hc)
    · have hsplit : rest.reverse = (rest.dropWhile isBlank).reverse ++ (rest.takeWhile isBlank).reverse := by
        rw [← List.reverse_append, List.takeWhile_append_dropWhile]
      simp [brackets_concat, hsplit, hrest]
  | case2 s => exact ⟨[], by simp, rfl, by simp [brackets], h⟩

/-! ## Arguments -/

/-- At this depth of angle brackets nothing is cut inside the text. -/
def Passes (depth : Nat) (s : List Char) : Prop :=
  ∀ piece rest, cutArgs depth piece (s ++ rest) = cutArgs depth (s.reverse ++ piece) rest

variable {depth : Nat}

theorem passes_nil : Passes depth [] := fun _ _ => rfl

theorem Passes.append (hs : Passes depth s) (ht : Passes depth t) : Passes depth (s ++ t) := by
  intro piece rest
  rw [List.append_assoc, hs, ht, List.reverse_append, List.append_assoc]

theorem passes_char {c : Char} (hopen : c ≠ '<') (hclose : c ≠ '>') (hcomma : c = ',' → depth ≠ 0) :
    Passes depth [c] := by
  intro piece rest
  rw [List.singleton_append, cutArgs, if_neg hopen, if_neg hclose, if_neg fun h => hcomma h.1 h.2]
  rfl

theorem passes_of_forall (h : ∀ c ∈ s, c ≠ '<' ∧ c ≠ '>' ∧ c ≠ ',') : Passes depth s := by
  induction s with
  | nil => exact passes_nil
  | cons c s ih =>
    obtain ⟨⟨hopen, hclose, hcomma⟩, hs⟩ := List.forall_mem_cons.mp h
    exact (passes_char hopen hclose fun heq => absurd heq hcomma).append (ih hs)

theorem passes_angles (h : Passes (depth + 1) s) : Passes depth ('<' :: (s ++ ['>'])) := by
  intro piece rest
  rw [List.cons_append, List.append_assoc, List.singleton_append, cutArgs, if_pos rfl, h, cutArgs,
    if_neg (by decide), if_pos rfl, if_neg (Nat.succ_ne_zero _)]
  simp

theorem passes_intercalate (h : ∀ p ∈ pieces, Passes (depth + 1) p) :
    Passes (depth + 1) (List.intercalate [','] pieces) := by
  induction pieces with
  | nil => exact passes_nil
  | cons p pieces ih =>
    obtain ⟨hp, hpieces⟩ := List.forall_mem_cons.mp h
    cases pieces with
    | nil =>
      rw [List.intercalate_singleton]
      exact hp
    | cons q pieces =>
      rw [List.intercalate_cons_cons]
      have hcomma : Passes (depth + 1) [','] :=
        passes_char (by decide) (by decide) fun _ => Nat.succ_ne_zero _
      exact (hp.append hcomma).append (ih hpieces)

theorem cutArgs_intercalate (hne : pieces ≠ []) (h : ∀ p ∈ pieces, Passes 0 p) :
    cutArgs 0 [] (List.intercalate [','] pieces) = some pieces := by
  induction pieces with
  | nil => exact absurd rfl hne
  | cons p pieces ih =>
    obtain ⟨hp, hpieces⟩ := List.forall_mem_cons.mp h
    cases pieces with
    | nil =>
      have hcut := hp [] []
      simpa [cutArgs] using hcut
    | cons q pieces =>
      rw [List.intercalate_cons_cons, List.append_assoc, List.singleton_append, hp, cutArgs,
        if_neg (by decide), if_neg (by decide), if_pos ⟨rfl, rfl⟩, ih (List.cons_ne_nil _ _) hpieces]
      simp

/-- The pieces are what stands between the commas at which a text was cut. -/
theorem intercalate_of_cutArgs {piece : List Char} (h : cutArgs depth piece s = some pieces) :
    pieces ≠ [] ∧ List.intercalate [','] pieces = piece.reverse ++ s := by
  fun_induction cutArgs depth piece s generalizing pieces with
  | case1 => cases h; simp
  | case2 => cases h
  | case3 depth piece s ih => simpa using ih h
  | case4 => cases h
  | case5 depth piece s _ _ ih => simpa using ih h
  | case6 depth piece c s _ _ hcomma ih =>
    obtain ⟨rest, hrest, rfl⟩ := Option.map_eq_some_iff.mp h
    obtain ⟨hne, hjoin⟩ := ih hrest
    obtain ⟨q, more, rfl⟩ := List.exists_cons_of_ne_nil hne
    refine ⟨List.cons_ne_nil _ _, ?_⟩
    rw [List.intercalate_cons_cons, hjoin, hcomma.1]
    simp
  | case7 depth piece c s _ _ _ ih => simpa using ih h

theorem argTexts?_eq_some {args : List (List Char)} (h : argTexts? text = some args) :
    ∃ pieces, pieces ≠ [] ∧ text = List.intercalate [','] pieces ∧ args = pieces.map trim := by
  simp only [argTexts?, Option.bind_eq_bind, Option.bind_eq_some_iff] at h
  obtain ⟨pieces, hpieces, h⟩ := h
  split at h
  · cases h
  · cases h
    obtain ⟨hne, hjoin⟩ := intercalate_of_cutArgs hpieces
    exact ⟨pieces, hne, hjoin.symm, rfl⟩

theorem argTexts?_intercalate (hne : pieces ≠ []) (hpieces : ∀ p ∈ pieces, Passes 0 p)
    (hblank : ∀ p ∈ pieces, trim p ≠ []) :
    argTexts? (List.intercalate [','] pieces) = some (pieces.map trim) := by
  rw [argTexts?, cutArgs_intercalate hne hpieces]
  have hnone : (pieces.map trim).any (·.isEmpty) = false := by
    rw [List.any_map, List.any_eq_false]
    intro p hp
    simpa using hblank p hp
  simp only [Option.bind_eq_bind, Option.bind_some, hnone, Bool.false_eq_true, if_false]

/-! ## Shapes -/

theorem shape?_plain (h : IsBase s) (hopen : '<' ∉ s) (hgaps : ∀ gap ∈ gaps, IsGap gap)
    (hdims : gaps.length ≤ 255) : shape? (s ++ brackets gaps) = some ⟨s, [], gaps.length⟩ := by
  have hdrop : s.dropWhile (· != '<') = [] := by
    rw [List.dropWhile_eq_nil_iff]
    intro c hc
    rw [bne_iff_ne]
    rintro rfl
    exact hopen hc
  rw [shape?, cutDims_reverse h hgaps]
  simp only [List.reverse_reverse, hdrop, maxDims, if_neg (Nat.not_lt.mpr hdims)]

theorem isBase_angles (front text : List Char) : IsBase (front ++ '<' :: (text ++ ['>'])) := by
  constructor
  · simp
  · intro c hc
    rw [← List.cons_append, ← List.append_assoc,
      List.getLast?_append_of_ne_nil _ (List.cons_ne_nil _ _)] at hc
    cases hc
    decide

theorem shape?_generic {front : List Char} {args : List (List Char)} (hopen : '<' ∉ front)
    (hargs : argTexts? text = some args) (hgaps : ∀ gap ∈ gaps, IsGap gap)
    (hdims : gaps.length ≤ 255) :
    shape? (front ++ '<' :: (text ++ ['>']) ++ brackets gaps) = some ⟨trim front, args, gaps.length⟩ := by
  have hfront : ∀ c ∈ front, (c != '<') = true := by
    intro c hc
    rw [bne_iff_ne]
    rintro rfl
    exact hopen hc
  rw [shape?, cutDims_reverse (isBase_angles front text) hgaps]
  simp [List.dropWhile_append_of_pos hfront, List.takeWhile_append_of_pos hfront, maxDims,
    Nat.not_lt.mpr hdims, hargs]

/-- A trimmed text is cut into a base and brackets, and the base at its first angle bracket. -/
theorem shape?_eq_some {shape : Shape} (ht : IsTrimmed t) (h : shape? t = some shape) :
    ∃ base gaps, t = base ++ brackets gaps ∧ IsTrimmed base ∧ (∀ gap ∈ gaps, IsGap gap) ∧
      gaps.length = shape.dims ∧ shape.dims ≤ 255 ∧
      (shape.raw = base ∧ shape.args = [] ∨ ∃ front text, base = front ++ '<' :: (text ++ ['>']) ∧
        shape.raw = trim front ∧ argTexts? text = some shape.args) := by
  have hhead : ∀ c ∈ t.reverse.head?, isBlank c = false := by
    rw [List.head?_reverse]
    exact ht.last
  obtain ⟨gaps, hgaps, hlength, htext, hlast⟩ := exists_brackets hhead
  rw [List.reverse_reverse] at htext
  generalize hbase : (cutDims t.reverse).2.reverse = base at htext
  have htrimmed : IsTrimmed base := by
    constructor
    · intro c hc
      exact ht.head c (by rw [htext, List.head?_append, Option.mem_def.mp hc]; rfl)
    · rwa [← hbase, List.getLast?_reverse]
  simp only [shape?, hbase, ← hlength] at h
  refine ⟨base, gaps, htext, htrimmed, hgaps, ?_⟩
  split at h
  · cases h
  · rename_i hdims
    have hle : gaps.length ≤ 255 := Nat.le_of_not_lt hdims
    split at h
    · cases h
      exact ⟨rfl, hle, Or.inl ⟨rfl, rfl⟩⟩
    · rename_i c rest hrest
      split at h
      · rename_i hclose
        obtain ⟨args, hargs, rfl⟩ := Option.map_eq_some_iff.mp h
        have hopen : c = '<' := by
          have hnot := List.head?_dropWhile_not (· != '<') base
          rw [hrest] at hnot
          simpa using hnot
        refine ⟨rfl, hle, Or.inr ⟨_, rest.dropLast, ?_, rfl, hargs⟩⟩
        rw [hopen] at hrest
        rw [List.dropLast_append_getLast? _ hclose, ← hrest, List.takeWhile_append_dropWhile]
      · cases h

/-! ## Reading -/

theorem isRaw_iff : isRaw s = true ↔ s ≠ [] ∧ ∀ c ∈ s, c ∉ ['[', ']', '<', '>', ','] := by
  simp [isRaw, not_or, and_assoc]

theorem parse_of_shape {shape : Shape} (h : shape? (trim s) = some shape) :
    parse s = (shape.args.mapM parse >>= fun args =>
      if isRaw shape.raw then .ok ⟨String.ofList shape.raw, args, shape.dims⟩
      else .error (.unresolved (String.ofList (trim s)))) := by
  rw [parse]
  split
  · rename_i hnone
    rw [h] at hnone
    cases hnone
  · rename_i found hsome
    rw [h] at hsome
    cases hsome
    simp

theorem parse_of_no_shape (h : shape? (trim s) = none) :
    parse s = .error (.unresolved (String.ofList (trim s))) := by
  rw [parse]
  split
  · rfl
  · rename_i hsome
    rw [h] at hsome
    cases hsome

theorem parse_eq_ok_iff {t : TypeExpr} : parse s = .ok t ↔
    ∃ shape args, shape? (trim s) = some shape ∧
      List.Forall₂ (fun text arg => parse text = .ok arg) shape.args args ∧ isRaw shape.raw = true ∧
      t = ⟨String.ofList shape.raw, args, shape.dims⟩ := by
  cases hshape : shape? (trim s) with
  | none =>
    rw [parse_of_no_shape hshape]
    simp
  | some shape =>
    rw [parse_of_shape hshape, bind_ok_iff]
    constructor
    · rintro ⟨args, hargs, hok⟩
      obtain ⟨hraw, heq⟩ := ite_else_error_ok_iff.mp hok
      cases heq
      exact ⟨shape, args, rfl, mapM_ok_iff.mp hargs, hraw, rfl⟩
    · rintro ⟨_, args, ⟨⟩, hargs, hraw, rfl⟩
      exact ⟨args, mapM_ok_iff.mpr hargs, if_pos hraw⟩

/-- White space around a text does not matter. -/
theorem parse_trim {t : TypeExpr} : parse (trim s) = .ok t ↔ parse s = .ok t := by
  rw [parse_eq_ok_iff, parse_eq_ok_iff, (isTrimmed_trim s).trim_eq]

theorem IsRawName.not_mem {c : Char} (h : IsRawName s) (hc : c ∈ ['[', ']', '<', '>', ',']) : c ∉ s :=
  fun hmem => h.chars c hmem hc

theorem isTrimmed_name_append (hraw : IsRawName s) (hbase : IsBase (s ++ t)) (gaps : List (List Char)) :
    IsTrimmed (s ++ t ++ brackets gaps) := by
  constructor
  · rw [List.append_assoc, List.head?_append_of_ne_nil _ hraw.ne_nil]
    exact hraw.trimmed.head
  · exact hbase.blank_append gaps

theorem IsRawName.isBase (h : IsRawName s) : IsBase s where
  ne_nil := h.ne_nil
  last c hc := ⟨h.trimmed.last c hc, fun heq => h.chars c (List.mem_of_mem_getLast? hc) (by simp [heq])⟩

theorem Spells.dims_le {d : TypeExpr} (h : Spells d s) : d.dims ≤ maxDims := by
  cases h with
  | plain _ _ _ hdims _ => exact hdims
  | generic _ _ _ _ _ _ hdims _ => exact hdims

theorem Spells.trim_ne_nil {d : TypeExpr} (h : Spells d s) : trim s ≠ [] := by
  cases h with
  | plain _ hraw | generic _ hraw =>
    obtain ⟨c, rest, hcons⟩ := List.exists_cons_of_ne_nil hraw.ne_nil
    have hblank := hraw.trimmed.head c (by rw [hcons]; rfl)
    exact Text.trim_ne_nil (c := c) (by simp [hcons]) hblank

theorem passes_gap (h : IsGap s) : Passes depth s := by
  apply passes_of_forall
  intro c hc
  refine ⟨?_, ?_, ?_⟩ <;> rintro rfl <;> exact h.not_mem (by decide) hc

theorem passes_brackets (hgaps : ∀ gap ∈ gaps, IsGap gap) : Passes depth (brackets gaps) := by
  induction gaps with
  | nil => exact passes_nil
  | cons gap gaps ih =>
    obtain ⟨hgap, hgaps⟩ := List.forall_mem_cons.mp hgaps
    have hpair : Passes depth ['[', ']'] := passes_of_forall (by simp)
    exact ((passes_gap hgap).append hpair).append (ih hgaps)

theorem IsRawName.passes (h : IsRawName s) : Passes depth s := by
  apply passes_of_forall
  intro c hc
  have hchar := h.chars c hc
  refine ⟨?_, ?_, ?_⟩ <;> rintro rfl <;> exact hchar (by decide)

/-- The commas in a spelling stand between angle brackets. -/
theorem Spells.passes {d : TypeExpr} (h : Spells d s) : Passes depth s := by
  induction h generalizing depth with
  | plain hbefore hraw hgaps _ hafter =>
    exact ((passes_gap hbefore).append (hraw.passes.append (passes_brackets hgaps))).append
      (passes_gap hafter)
  | @generic _ _ _ _ args _ hbefore hraw hgap _ _ hgaps _ hafter ih =>
    have hargs : Passes depth ('<' :: (List.intercalate [','] (args.map Prod.snd) ++ ['>'])) := by
      apply passes_angles
      apply passes_intercalate
      exact List.forall_mem_map.mpr fun arg harg => ih arg harg
    exact ((passes_gap hbefore).append ((hraw.passes.append ((passes_gap hgap).append hargs)).append
      (passes_brackets hgaps))).append (passes_gap hafter)

theorem Spells.parse_eq {d : TypeExpr} (h : Spells d s) : parse s = .ok d := by
  induction h with
  | @plain raw before after gaps hbefore hraw hgaps hdims hafter =>
    have hbase : IsBase (raw.toList ++ []) := by simpa using hraw.isBase
    have htrim : trim (before ++ (raw.toList ++ brackets gaps) ++ after) = raw.toList ++ brackets gaps := by
      rw [trim_append_gap hafter, trim_gap_append hbefore]
      simpa using (isTrimmed_name_append hraw hbase gaps).trim_eq
    rw [parse_eq_ok_iff, htrim]
    refine ⟨_, [], shape?_plain hraw.isBase (hraw.not_mem (by decide)) hgaps hdims, .nil, ?_, ?_⟩
    · exact isRaw_iff.mpr ⟨hraw.ne_nil, hraw.chars⟩
    · rw [String.ofList_toList]
  | @generic raw before gap after args gaps hbefore hraw hgap hne hargs hgaps hdims hafter ih =>
    generalize htext : List.intercalate [','] (args.map Prod.snd) = text
    have hassoc : raw.toList ++ (gap ++ '<' :: (text ++ ['>'])) =
        raw.toList ++ gap ++ '<' :: (text ++ ['>']) := by simp
    have htrim : trim (before ++ (raw.toList ++ (gap ++ '<' :: (text ++ ['>'])) ++ brackets gaps) ++ after) =
        raw.toList ++ gap ++ '<' :: (text ++ ['>']) ++ brackets gaps := by
      have hbase := isBase_angles (raw.toList ++ gap) text
      rw [← hassoc] at hbase ⊢
      rw [trim_append_gap hafter, trim_gap_append hbefore, (isTrimmed_name_append hraw hbase gaps).trim_eq]
    have hopen : '<' ∉ raw.toList ++ gap := by
      rw [List.mem_append, not_or]
      exact ⟨hraw.not_mem (by decide), hgap.not_mem (by decide)⟩
    have hpieces : argTexts? text = some ((args.map Prod.snd).map trim) := by
      rw [← htext]
      apply argTexts?_intercalate
      · simpa using hne
      · exact List.forall_mem_map.mpr fun arg harg => (hargs arg harg).passes
      · exact List.forall_mem_map.mpr fun arg harg => (hargs arg harg).trim_ne_nil
    rw [parse_eq_ok_iff, htrim]
    refine ⟨_, args.map Prod.fst, shape?_generic hopen hpieces hgaps hdims, ?_, ?_, ?_⟩
    · rw [List.map_map, List.forall₂_map_left_iff, List.forall₂_map_right_iff, List.forall₂_same]
      exact fun arg harg => parse_trim.mpr (ih arg harg)
    · rw [trim_append_gap hgap, hraw.trimmed.trim_eq]
      exact isRaw_iff.mpr ⟨hraw.ne_nil, hraw.chars⟩
    · rw [trim_append_gap hgap, hraw.trimmed.trim_eq, String.ofList_toList]

theorem Spells.surround {d : TypeExpr} {u v : List Char} (h : Spells d s) (hu : IsGap u) (hv : IsGap v) :
    Spells d (u ++ s ++ v) := by
  cases h with
  | plain hbefore hraw hgaps hdims hafter =>
    have hspells := Spells.plain (hu.append hbefore) hraw hgaps hdims (hafter.append hv)
    simpa using hspells
  | generic hbefore hraw hgap hne hargs hgaps hdims hafter =>
    have hspells := Spells.generic (hu.append hbefore) hraw hgap hne hargs hgaps hdims (hafter.append hv)
    simpa using hspells

theorem spells_of_parse {d : TypeExpr} (h : parse s = .ok d) : Spells d s := by
  induction s using parse.induct generalizing d with
  | case1 s hnone =>
    rw [parse_eq_ok_iff, hnone] at h
    obtain ⟨_, _, ⟨⟩, _⟩ := h
  | case2 s shape hshape ih =>
    rw [parse_eq_ok_iff, hshape] at h
    obtain ⟨_, args, ⟨⟩, hargs, hraw, rfl⟩ := h
    obtain ⟨hne, hchars⟩ := isRaw_iff.mp hraw
    obtain ⟨before, after, hbefore, hafter, hs⟩ := exists_gaps s
    obtain ⟨base, gaps, htext, htrimmed, hgaps, hlength, hdims, hkind⟩ :=
      shape?_eq_some (isTrimmed_trim s) hshape
    rw [← hlength] at hdims
    rw [hs, htext]
    rcases hkind with ⟨rfl, hnil⟩ | ⟨front, text, rfl, hfront, hpieces⟩
    · rw [hnil, List.forall₂_nil_left_iff] at hargs
      subst hargs
      have hname : IsRawName (String.ofList shape.raw).toList := by
        rw [String.toList_ofList]
        exact ⟨hne, htrimmed, hchars⟩
      have hspells := Spells.plain hbefore hname hgaps hdims hafter
      rwa [hlength, String.toList_ofList] at hspells
    · obtain ⟨pieces, hjoined, rfl, hmap⟩ := argTexts?_eq_some hpieces
      obtain ⟨u, v, hu, hv, hsplit⟩ := exists_gaps front
      rw [hmap, List.forall₂_map_left_iff] at hargs
      obtain ⟨hcount, hzip⟩ := List.forall₂_iff_zip.mp hargs.flip
      have hfst : (args.zip pieces).map Prod.fst = args := List.map_fst_zip hcount.le
      have hsnd : (args.zip pieces).map Prod.snd = pieces := List.map_snd_zip hcount.ge
      have hzipne : args.zip pieces ≠ [] := by
        intro hnil
        rw [hnil] at hsnd
        exact hjoined hsnd.symm
      have hname : IsRawName (String.ofList shape.raw).toList := by
        rw [String.toList_ofList]
        exact ⟨hne, hfront ▸ isTrimmed_trim front, hchars⟩
      have hspelled : ∀ arg ∈ args.zip pieces, Spells arg.1 arg.2 := by
        rintro ⟨arg, piece⟩ hmem
        have hpiece : trim piece ∈ shape.args := by
          rw [hmap]
          exact List.mem_map_of_mem (List.of_mem_zip hmem).2
        obtain ⟨x, y, hx, hy, heq⟩ := exists_gaps piece
        rw [heq]
        exact (ih _ hpiece (hzip hmem)).surround hx hy
      have hspells := Spells.generic (hbefore.append hu) hname hv hzipne hspelled hgaps hdims hafter
      rw [hfst, hsnd, hlength, String.toList_ofList] at hspells
      rw [← hfront] at hsplit
      rw [hsplit]
      simpa using hspells

theorem toList_renderArgs (args : List TypeExpr) :
    (renderArgs args).toList = List.intercalate [','] (args.map fun arg => arg.render.toList) := by
  induction args with
  | nil => rfl
  | cons arg args ih =>
    cases args with
    | nil => simp [renderArgs]
    | cons next args =>
      rw [renderArgs, String.toList_append, String.toList_append, ih]
      · simp [List.intercalate_cons_cons]
      · exact List.cons_ne_nil _ _

theorem toList_render (raw : String) (args : List TypeExpr) (dims : Nat) :
    (render ⟨raw, args, dims⟩).toList =
      raw.toList ++ (if args.isEmpty then [] else
        '<' :: (List.intercalate [','] (args.map fun arg => arg.render.toList) ++ ['>'])) ++
        brackets (List.replicate dims []) := by
  rw [TypeExpr.render, String.toList_append, String.toList_append]
  congr 2
  · split
    · rfl
    · simp [toList_renderArgs]
  · simp [brackets, List.flatMap_def]

/-- Written without white space, an expression that can be spelled is spelled. -/
theorem Spells.render {d : TypeExpr} (h : Spells d s) : Spells d d.render.toList := by
  have hnil : IsGap [] := nofun
  have hgaps : ∀ dims, ∀ gap ∈ List.replicate dims ([] : List Char), IsGap gap :=
    fun dims gap hgap => (List.eq_of_mem_replicate hgap) ▸ hnil
  induction h with
  | @plain raw _ _ gaps _ hraw _ hdims _ =>
    have hspells := Spells.plain hnil hraw (hgaps gaps.length) (by simpa using hdims) hnil
    simpa [toList_render] using hspells
  | @generic raw _ _ _ args gaps _ hraw _ hne _ _ hdims _ ih =>
    have hargs : ∀ arg ∈ args.map fun arg => (arg.1, arg.1.render.toList), Spells arg.1 arg.2 :=
      List.forall_mem_map.mpr ih
    have hspells := Spells.generic hnil hraw hnil (by simpa using hne) hargs (hgaps gaps.length)
      (by simpa using hdims) hnil
    simpa [toList_render, hne, Function.comp_def] using hspells

/-- A text is read as an expression exactly if it spells it, and an expression that was read can be read
again from its written form. -/
theorem parse_eq_ok_iff_spells (s : List Char) (d : TypeExpr) :
    (parse s = .ok d ↔ Spells d s) ∧ (parse s = .ok d → parse d.render.toList = .ok d) :=
  ⟨⟨spells_of_parse, Spells.parse_eq⟩, fun h => (spells_of_parse h).render.parse_eq⟩

theorem parse_eq_ok_iff_spells_nested :
    parse " A <B[] , C >\t[]".toList = .ok ⟨"A", [⟨"B", [], 1⟩, ⟨"C", [], 0⟩], 1⟩ ∧
      parse "A<B[],C>[]".toList = .ok ⟨"A", [⟨"B", [], 1⟩, ⟨"C", [], 0⟩], 1⟩ := by
  have hname : ∀ c ∈ ['A', 'B', 'C'], IsRawName [c] := by
    intro c hc
    simp only [List.mem_cons, List.not_mem_nil, or_false] at hc
    refine ⟨by simp, isTrimmed_of_forall ?_, ?_⟩ <;>
      rcases hc with rfl | rfl | rfl <;> simp [isBlank]
  have hnone : IsGap [] := nofun
  have hspace : IsGap [' '] := by simp [IsGap, isBlank]
  have htab : IsGap ['\t'] := by simp [IsGap, isBlank]
  have hB := @Spells.plain "B" [] [' '] [[]] hnone (hname 'B' (by simp)) (by simpa using hnone) (by simp)
    hspace
  have hC := @Spells.plain "C" [' '] [' '] [] hspace (hname 'C' (by simp)) nofun (by simp) hspace
  have hA := @Spells.generic "A" [' '] [' '] [] [(_, _), (_, _)] [['\t']] hspace (hname 'A' (by simp)) hspace
    (by simp) (List.forall_mem_cons.mpr ⟨hB, List.forall_mem_singleton.mpr hC⟩)
    (by simpa using htab) (by simp) hnone
  have hread := parse_eq_ok_iff_spells " A <B[] , C >\t[]".toList ⟨"A", [⟨"B", [], 1⟩, ⟨"C", [], 0⟩], 1⟩
  have hparse := hread.1.mpr hA
  exact ⟨hparse, hread.2 hparse⟩

end BeanClass.TypeExpr
