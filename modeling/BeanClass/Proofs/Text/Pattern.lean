import BeanClass.Proofs.Text.Blank

/-! # Patterns of texts

A pattern is matched by trying its choices in order of preference and taking back the latest choice
whenever what stands behind cannot be matched. The texts of its groups are those of the first match
that is found in this order.
-/

namespace BeanClass.Text

inductive Pattern where
  /-- Characters of one class, at least `least` and at most `most` of them. As many as possible are
  preferred if the repetition is greedy, and as few as possible if it is not. -/
  | repeated (greedy : Bool) (least : Nat) (most : Option Nat) (p : Char → Bool)
  /-- The first pattern is preferred. -/
  | either (a b : Pattern)
  | seq (a b : Pattern)
  /-- The text that the pattern matches is kept. -/
  | group (a : Pattern)

namespace Pattern

/-- The numbers of characters that a repetition may take where `run` of its class follow, the
preferred number first. -/
def lengths (greedy : Bool) (least : Nat) (most : Option Nat) (run : Nat) : List Nat :=
  let counts := List.range' least (most.elim run (min run) + 1 - least)
  if greedy then counts.reverse else counts

variable {β : Type}

/-- Searches for a match at the start of a text such that `next` succeeds on the groups of the match
and on what stands behind it. -/
def search : Pattern → List Char → (List (List Char) → List Char → Option β) → Option β
  | repeated greedy least most p, s, next =>
    (lengths greedy least most (s.takeWhile p).length).findSome? fun n => next [] (s.drop n)
  | either a b, s, next => (a.search s next).or (b.search s next)
  | seq a b, s, next =>
    a.search s fun found rest => b.search rest fun more rest => next (found ++ more) rest
  | group a, s, next =>
    a.search s fun found rest => next (s.take (s.length - rest.length) :: found) rest

/-- The groups of the preferred match of a whole text. -/
def captures (a : Pattern) (s : List Char) : Option (List (List Char)) :=
  a.search s fun found rest => if rest.isEmpty then some found else none

/-- White space, as much as possible. -/
def gap : Pattern :=
  repeated true 0 none isBlank

/-- At least one character of a class, but as few as possible, and then white space. -/
def kept (p : Char → Bool) : Pattern :=
  seq (group (repeated false 1 none p)) gap

/-- Characters of a class with white space around them that is not kept. -/
def trimmed (p : Char → Bool) : Pattern :=
  seq gap (kept p)

end Pattern

namespace Pattern

variable {β : Type} {p : Char → Bool} {u v rest : List Char}
  {next : List (List Char) → List Char → Option β}

theorem takeWhile_append_eq (hv : ∀ c ∈ v, p c = true) (hrest : ∀ c ∈ rest.head?, p c = false) :
    (v ++ rest).takeWhile p = v := by
  rw [List.takeWhile_append_of_pos hv]
  cases rest with
  | nil => rw [List.takeWhile_nil, List.append_nil]
  | cons c rest =>
    rw [List.takeWhile_cons_of_neg (by simp [hrest c rfl]), List.append_nil]

@[simp]
theorem take_matched (s : List Char) (n : Nat) : s.take (s.length - (s.drop n).length) = s.take n := by
  rw [List.length_drop, List.take_eq_take_iff]
  omega

theorem range'_eq_append {a m n : Nat} (ha : a ≤ m) (hm : m < a + n) :
    List.range' a n = List.range' a (m - a) ++ m :: List.range' (m + 1) (a + n - (m + 1)) := by
  obtain ⟨k, rfl⟩ := Nat.exists_eq_add_of_le ha
  obtain ⟨l, rfl⟩ := Nat.exists_eq_add_of_lt (Nat.lt_of_add_lt_add_left hm)
  rw [Nat.add_sub_cancel_left, show a + (k + l + 1) - (a + k + 1) = l by omega, ← List.range'_succ,
    List.range'_append_1, Nat.add_assoc]

theorem findSome?_append_cons {f : Nat → Option β} {before after : List Nat} {m : Nat}
    (hnone : ∀ j ∈ before, f j = none) (hsome : f m ≠ none) :
    (before ++ m :: after).findSome? f = f m := by
  rw [List.findSome?_append, List.findSome?_eq_none_iff.mpr hnone, Option.none_or]
  cases hm : f m with
  | none => exact absurd hm hsome
  | some b => rw [List.findSome?_cons, hm]

theorem findSome?_congr {f g : Nat → Option β} {l : List Nat} (h : ∀ n ∈ l, f n = g n) :
    l.findSome? f = l.findSome? g := by
  induction l with
  | nil => rfl
  | cons n l ih =>
    obtain ⟨hn, hl⟩ := List.forall_mem_cons.mp h
    rw [List.findSome?_cons, List.findSome?_cons, hn, ih hl]

/-- The least number that succeeds is found from below. -/
theorem findSome?_range' {f : Nat → Option β} {a m n : Nat} (ha : a ≤ m) (hm : m < a + n)
    (hnone : ∀ j, a ≤ j → j < m → f j = none) (hsome : f m ≠ none) :
    (List.range' a n).findSome? f = f m := by
  rw [range'_eq_append ha hm]
  refine findSome?_append_cons (fun j hj => ?_) hsome
  rw [List.mem_range'_1] at hj
  exact hnone j hj.1 (by omega)

/-- The greatest number that succeeds is found from above. -/
theorem findSome?_reverse_range' {f : Nat → Option β} {a m n : Nat} (ha : a ≤ m) (hm : m < a + n)
    (hnone : ∀ j, m < j → j < a + n → f j = none) (hsome : f m ≠ none) :
    (List.range' a n).reverse.findSome? f = f m := by
  rw [range'_eq_append ha hm, List.reverse_append, List.reverse_cons, List.append_assoc,
    List.singleton_append]
  refine findSome?_append_cons (fun j hj => ?_) hsome
  rw [List.mem_reverse, List.mem_range'_1] at hj
  exact hnone j hj.1 (by omega)

/-- A gap takes all white space that there is if nothing can be matched in the middle of it. -/
theorem search_gap (hv : IsGap v) (hrest : ∀ c ∈ rest.head?, isBlank c = false)
    (hnext : ∀ c t, isBlank c = true → next [] (c :: t) = none) :
    gap.search (v ++ rest) next = next [] rest := by
  have hlengths : lengths true 0 none v.length = v.length :: (List.range' 0 v.length).reverse := by
    simp [lengths, List.range'_1_concat]
  have hshorter : (List.range' 0 v.length).reverse.findSome?
      (fun n => next [] ((v ++ rest).drop n)) = none := by
    rw [List.findSome?_eq_none_iff]
    intro n hn
    rw [List.mem_reverse, List.mem_range'_1, Nat.zero_add] at hn
    rw [List.drop_append_of_le_length hn.2.le, List.drop_eq_getElem_cons hn.2]
    exact hnext _ _ (hv _ (List.getElem_mem hn.2))
  rw [gap, search, takeWhile_append_eq hv hrest, hlengths, List.findSome?_cons, List.drop_left,
    hshorter]
  cases next [] rest <;> rfl

section Trimmed

variable (hp : ∀ c, isBlank c = true → p c = true) (hv : ∀ c ∈ v, p c = true)
  (hrest : ∀ c ∈ rest.head?, p c = false) (hnext : ∀ found c t, p c = true → next found (c :: t) = none)
include hp hv hnext

theorem search_gap_eq_none (hgap : ¬IsGap v) : gap.search (v ++ rest) next = none := by
  obtain ⟨c, t, hdrop⟩ : ∃ c t, v.dropWhile isBlank = c :: t := by
    cases hdrop : v.dropWhile isBlank with
    | nil => exact absurd (List.dropWhile_eq_nil_iff.mp hdrop) hgap
    | cons c t => exact ⟨c, t, rfl⟩
  have hc : isBlank c = false := by
    have hhead := List.head?_dropWhile_not isBlank v
    rwa [hdrop] at hhead
  have hmem : c ∈ v := (List.dropWhile_suffix isBlank).subset (hdrop ▸ List.mem_cons_self)
  rw [← List.takeWhile_append_dropWhile (p := isBlank) (l := v), hdrop, List.append_assoc,
    search_gap (fun d hd => List.mem_takeWhile_imp hd) (by simpa using hc)
      fun d t hd => hnext [] d t (hp d hd)]
  exact hnext [] c _ (hv c hmem)

include hrest

omit hv in
theorem search_gap_eq (hgap : IsGap v) : gap.search (v ++ rest) next = next [] rest := by
  refine search_gap hgap (fun c hc => ?_) fun c t hc => hnext [] c t (hp c hc)
  cases hblank : isBlank c with
  | false => rfl
  | true => exact absurd (hp c hblank) (by simp [hrest c hc])

omit hp hnext in
theorem search_kept : (kept p).search (v ++ rest) next =
    (List.range' 1 v.length).findSome? fun n =>
      gap.search (v.drop n ++ rest) fun more => next (v.take n :: more) := by
  have hlengths : lengths false 1 none v.length = List.range' 1 v.length := by simp [lengths]
  simp only [kept, search, takeWhile_append_eq hv hrest, hlengths]
  refine findSome?_congr fun n hn => ?_
  rw [List.mem_range'_1] at hn
  have hdrop : (v ++ rest).drop n = v.drop n ++ rest := List.drop_append_of_le_length (by omega)
  rw [take_matched, hdrop, List.take_append_of_le_length (by omega)]
  rfl

/-- What is kept ends with the trimmed text, unless nothing would be left of it. -/
theorem search_kept_eq (hne : v ≠ []) (hsome : ∀ g, next [g] rest ≠ none) :
    (kept p).search (v ++ rest) next = next [v.take (max 1 (trimEnd v).length)] rest := by
  have hdrop : ∀ n, ∀ c ∈ v.drop n, p c = true := fun n c hc => hv c (List.mem_of_mem_drop hc)
  have hfound : gap.search (v.drop (max 1 (trimEnd v).length) ++ rest)
      (fun more => next (v.take (max 1 (trimEnd v).length) :: more)) =
        next [v.take (max 1 (trimEnd v).length)] rest :=
    search_gap_eq hp hrest (fun _ => hnext _) (isGap_drop_iff.mpr (le_max_right _ _))
  have hlength : (trimEnd v).length ≤ v.length := (List.rdropWhile_prefix isBlank v).length_le
  have hpos := List.length_pos_iff.mpr hne
  rw [search_kept hv hrest, findSome?_range' (le_max_left 1 _) (by omega) (fun n hone hn => ?_)
    (hfound ▸ hsome _), hfound]
  refine search_gap_eq_none hp (hdrop n) (fun _ => hnext _) ?_
  rw [isGap_drop_iff]
  omega

theorem search_kept_eq_none (hnone : ∀ g, next [g] rest = none) :
    (kept p).search (v ++ rest) next = none := by
  rw [search_kept hv hrest, List.findSome?_eq_none_iff]
  intro n _
  have hdrop : ∀ c ∈ v.drop n, p c = true := fun c hc => hv c (List.mem_of_mem_drop hc)
  by_cases hgap : IsGap (v.drop n)
  · rw [search_gap_eq hp hrest (fun _ => hnext _) hgap, hnone]
  · exact search_gap_eq_none hp hdrop (fun _ => hnext _) hgap

omit hv hnext in
theorem search_trimmed_eq : (trimmed p).search (v ++ rest) next =
    (List.range' 0 ((v.takeWhile isBlank).length + 1)).reverse.findSome? fun n =>
      (kept p).search (v.drop n ++ rest) next := by
  have hrun : (v ++ rest).takeWhile isBlank = v.takeWhile isBlank := by
    have hstop : rest.takeWhile isBlank = [] := by
      cases rest with
      | nil => rfl
      | cons c rest =>
        refine List.takeWhile_cons_of_neg fun hblank => ?_
        exact absurd (hp c hblank) (by simp [hrest c rfl])
    rw [List.takeWhile_append, hstop, List.append_nil]
    split
    · rename_i hall
      exact ((List.takeWhile_prefix isBlank).eq_of_length hall).symm
    · rfl
  have hlength : (v.takeWhile isBlank).length ≤ v.length :=
    (List.takeWhile_prefix isBlank).length_le
  have hlengths : lengths true 0 none (v.takeWhile isBlank).length =
      (List.range' 0 ((v.takeWhile isBlank).length + 1)).reverse := by simp [lengths]
  simp only [trimmed, gap, search, hrun, hlengths]
  refine findSome?_congr fun n hn => ?_
  rw [List.mem_reverse, List.mem_range'_1] at hn
  rw [List.drop_append_of_le_length (by omega)]
  rfl

theorem search_trimmed_none (hnone : ∀ g, next [g] rest = none) :
    (trimmed p).search (v ++ rest) next = none := by
  rw [search_trimmed_eq hp hrest, List.findSome?_eq_none_iff]
  exact fun n _ => search_kept_eq_none hp (fun c hc => hv c (List.mem_of_mem_drop hc)) hrest hnext hnone

/-- Of white space alone, the first gap gives back the last character, as nothing else is left to be
kept. -/
theorem search_trimmed_gap (hgap : IsGap v) (hne : v ≠ []) (hsome : ∀ g, next [g] rest ≠ none) :
    (trimmed p).search (v ++ rest) next = next [v.drop (v.length - 1)] rest := by
  have hpos := List.length_pos_iff.mpr hne
  have hrun : v.takeWhile isBlank = v := List.takeWhile_eq_self_iff.mpr hgap
  have hlength : (v.drop (v.length - 1)).length = 1 := by
    rw [List.length_drop]
    omega
  have hlast : v.drop (v.length - 1) ≠ [] := List.ne_nil_of_length_pos (by omega)
  have hfound := search_kept_eq hp (fun c hc => hv c (List.mem_of_mem_drop hc)) hrest hnext hlast hsome
  rw [List.take_of_length_le (hlength.le.trans (le_max_left 1 _))] at hfound
  rw [search_trimmed_eq hp hrest, hrun, ← hfound]
  refine findSome?_reverse_range' (Nat.zero_le _) (by omega) (fun n hlow hhigh => ?_) (hfound ▸ hsome _)
  rw [List.drop_eq_nil_of_le (by omega), search_kept (v := []) nofun hrest]
  rfl

theorem search_trimmed_text (hgap : ¬IsGap v) (hsome : ∀ g, next [g] rest ≠ none) :
    (trimmed p).search (v ++ rest) next = next [trim v] rest := by
  have htrim : trim v ≠ [] := fun htrim => hgap (trim_eq_nil_iff.mp htrim)
  have hstart : v.drop (v.takeWhile isBlank).length = trimStart v := by
    have hleft : (v.takeWhile isBlank ++ v.dropWhile isBlank).drop (v.takeWhile isBlank).length =
        v.dropWhile isBlank := List.drop_left
    rwa [List.takeWhile_append_dropWhile] at hleft
  have hstartne : trimStart v ≠ [] := fun hnil => htrim (by rw [trim, hnil]; rfl)
  have hall : ∀ c ∈ trimStart v, p c = true :=
    fun c hc => hv c ((List.dropWhile_suffix isBlank).subset hc)
  have hfound := search_kept_eq hp hall hrest hnext hstartne hsome
  have htake : (trimStart v).take (max 1 (trimEnd (trimStart v)).length) = trim v := by
    have hone : 1 ≤ (trim v).length := List.length_pos_iff.mpr htrim
    rw [← trim, max_eq_right hone]
    exact (List.prefix_iff_eq_take.mp (trim_prefix_trimStart v)).symm
  rw [htake] at hfound
  rw [search_trimmed_eq hp hrest, ← hfound, ← hstart]
  refine findSome?_reverse_range' (Nat.zero_le _) (by omega) (fun n hlow hhigh => by omega) ?_
  rw [hstart, hfound]
  exact hsome _

/-- A text between white space is trimmed; of white space alone the last character is kept. -/
theorem search_trimmed (hsame : (∀ g, next [g] rest = none) ∨ ∀ g, next [g] rest ≠ none) (hne : v ≠ []) :
    (trimmed p).search (v ++ rest) next =
      next [if trim v = [] then v.drop (v.length - 1) else trim v] rest := by
  rcases hsame with hnone | hsome
  · rw [hnone, search_trimmed_none hp hv hrest hnext hnone]
  · split
    · exact search_trimmed_gap hp hv hrest hnext (trim_eq_nil_iff.mp ‹_›) hne hsome
    · exact search_trimmed_text hp hv hrest hnext (fun hgap => ‹¬_› (trim_eq_nil_iff.mpr hgap)) hsome

omit hv hnext in
theorem search_trimmed_eq_none : (trimmed p).search rest next = none := by
  rw [← List.nil_append rest, search_trimmed_eq hp hrest, List.findSome?_eq_none_iff]
  intro n _
  rw [List.drop_nil, search_kept (v := []) nofun hrest]
  rfl

end Trimmed

end Pattern

end BeanClass.Text
