import BeanClass.Proofs.Descriptors.Grammar

/-! # Descriptors that cannot be cut

A parameter that is not a class ends one byte behind its brackets. Where a character of several bytes
stands there, the cut falls inside it.
-/

namespace BeanClass.MethodDescriptor

variable {s : List Char} {found : List (List Char)} {piece : List Char} {inClass : Bool}
  {descriptor : String}

/-- Parameters, one of which has a character of several bytes behind its brackets. Those before it are
classes or letters. -/
inductive Tears : List Char → Prop
  | wide {c : Char} {s : List Char} : 0x80 ≤ c.toNat → Tears (c :: s)
  | bracket {s : List Char} : Tears s → Tears ('[' :: s)
  | letter {c : Char} {s : List Char} : c ≠ 'L' → c.toNat < 0x80 → Tears s → Tears (c :: s)
  | ofClass {name s : List Char} : ';' ∉ name → Tears s → Tears ('L' :: (name ++ ';' :: s))

/-- A descriptor whose parameters cannot be cut between characters. -/
def Torn (descriptor : String) : Prop :=
  ∃ parameters result, descriptor.toList = '(' :: (parameters ++ ')' :: result) ∧
    ')' ∉ parameters ∧ Tears parameters

theorem Tears.cutParameters_eq_error (h : Tears s) (found : List (List Char)) (piece : List Char) :
    cutParameters found piece false s = .error .splitsCharacter := by
  induction h generalizing found piece with
  | @wide c s hc =>
    have hbracket : c ≠ '[' := by
      rintro rfl
      exact absurd hc (by decide)
    have hclass : c ≠ 'L' := by
      rintro rfl
      exact absurd hc (by decide)
    rw [cutParameters, if_neg hbracket, if_neg hclass, if_neg (Nat.not_lt.mpr hc)]
  | bracket _ ih => rw [cutParameters, if_pos rfl, ih]
  | letter hclass hc _ ih =>
    rw [cutParameters, if_neg hclass, if_pos hc, ih, ih, ite_self]
  | ofClass hname _ ih =>
    rw [cutParameters, if_neg (by decide), if_pos rfl, cutParameters_class _ hname, ih]

/-- What is left of torn parameters; inside a class they go on behind its semicolon. -/
def TearsIn (inClass : Bool) (s : List Char) : Prop :=
  if inClass then ∃ name rest, ';' ∉ name ∧ s = name ++ ';' :: rest ∧ Tears rest else Tears s

theorem tearsIn_of_cutParameters
    (h : cutParameters found piece inClass s = .error .splitsCharacter) : TearsIn inClass s := by
  fun_induction cutParameters found piece inClass s with
  | case1 | case2 => cases h
  | case3 found piece s ih => exact ⟨[], s, List.not_mem_nil, rfl, ih h⟩
  | case4 found piece c s hc ih =>
    obtain ⟨name, rest, hname, rfl, hrest⟩ := ih h
    exact ⟨c :: name, rest, List.not_mem_cons_of_ne_of_not_mem (Ne.symm hc) hname, rfl, hrest⟩
  | case5 found piece s ih => exact Tears.bracket (ih h)
  | case6 found piece s hc ih =>
    obtain ⟨name, rest, hname, rfl, hrest⟩ := ih h
    exact Tears.ofClass hname hrest
  | case7 found piece c s hbracket hclass hc ih => exact Tears.letter hclass hc (ih h)
  | case8 found piece c s hbracket hclass hc => exact Tears.wide (Nat.not_lt.mp hc)

theorem split_eq_error_iff : split descriptor = .error .splitsCharacter ↔ Torn descriptor := by
  constructor
  · intro h
    unfold split at h
    split at h
    · rename_i s hs
      split at h
      · rename_i c result hrest
        rcases bind_error_iff.mp h with hcut | ⟨parameters, -, h⟩
        · refine ⟨s.takeWhile (· != ')'), result, ?_, Text.not_mem_takeWhile ')' s,
            tearsIn_of_cutParameters hcut⟩
          rw [hs, ← Text.eq_append_of_dropWhile hrest]
        · split at h <;> cases h
      · cases h
    · cases h
  · rintro ⟨parameters, result, hdescriptor, hparameters, htears⟩
    have hclosing : ∀ c ∈ parameters, (c != ')') = true := fun c hc =>
      bne_iff_ne.mpr fun heq => hparameters (heq ▸ hc)
    have hdrop : (parameters ++ ')' :: result).dropWhile (· != ')') = ')' :: result := by
      rw [List.dropWhile_append_of_pos hclosing]
      rfl
    have htake : (parameters ++ ')' :: result).takeWhile (· != ')') = parameters := by
      rw [List.takeWhile_append_of_pos hclosing]
      simp
    rw [split, hdescriptor]
    simp only [hdrop, htake, htears.cutParameters_eq_error]
    rfl

/-- Only characters of several bytes are cut. -/
theorem Torn.exists_wide (h : Torn descriptor) : ∃ c ∈ descriptor.toList, 0x80 ≤ c.toNat := by
  obtain ⟨parameters, result, hdescriptor, -, htears⟩ := h
  have hwide : ∃ c ∈ parameters, 0x80 ≤ c.toNat := by
    clear hdescriptor
    induction htears with
    | wide hc => exact ⟨_, List.mem_cons_self, hc⟩
    | bracket _ ih | letter _ _ _ ih =>
      obtain ⟨c, hmem, hc⟩ := ih
      exact ⟨c, List.mem_cons_of_mem _ hmem, hc⟩
    | ofClass _ _ ih =>
      obtain ⟨c, hmem, hc⟩ := ih
      exact ⟨c, by simp [hmem], hc⟩
  obtain ⟨c, hmem, hc⟩ := hwide
  exact ⟨c, by simp [hdescriptor, hmem], hc⟩

end BeanClass.MethodDescriptor
