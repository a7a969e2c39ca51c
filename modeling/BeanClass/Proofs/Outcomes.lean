import Mathlib

/-! # Outcomes

When computations in sequence, for each item of a list or over a list with a state succeed, what is
then known of their results, and where they fail. Results that are lists of bytes are compared item
by item.
-/

namespace BeanClass

variable {ε ε' α β σ : Type}

@[simp] theorem ok_bind (a : α) (f : α → Except ε β) : (Except.ok a >>= f) = f a := rfl

@[simp] theorem mapError_ok (a : α) (f : ε → ε') : (Except.ok a).mapError f = .ok a := rfl

theorem bind_ok_iff {x : Except ε α} {f : α → Except ε β} {b : β} :
    (x >>= f) = .ok b ↔ ∃ a, x = .ok a ∧ f a = .ok b := by
  cases x with
  | error e => simp [bind, Except.bind]
  | ok a => simp [bind, Except.bind]

theorem bind_error_iff {x : Except ε α} {f : α → Except ε β} {e : ε} :
    (x >>= f) = .error e ↔ x = .error e ∨ ∃ a, x = .ok a ∧ f a = .error e := by
  cases x with
  | error e' => simp [bind, Except.bind]
  | ok a => simp [bind, Except.bind]

theorem mapError_error_iff {x : Except ε α} {f : ε → ε'} {e : ε'} :
    x.mapError f = .error e ↔ ∃ e', x = .error e' ∧ f e' = e := by
  cases x with
  | error e' => simp [Except.mapError]
  | ok a => simp [Except.mapError]

theorem mapError_ok_iff {x : Except ε α} {f : ε → ε'} {a : α} :
    x.mapError f = .ok a ↔ x = .ok a := by
  cases x <;> simp [Except.mapError]

theorem ite_error_ok_iff {c : Prop} [Decidable c] {e : ε} {x : Except ε α} {a : α} :
    (if c then .error e else x) = .ok a ↔ ¬c ∧ x = .ok a := by
  split
  · exact ⟨nofun, fun h => absurd ‹c› h.1⟩
  · exact ⟨fun h => ⟨‹_›, h⟩, And.right⟩

theorem ite_else_error_ok_iff {c : Prop} [Decidable c] {e : ε} {x : Except ε α} {a : α} :
    (if c then x else .error e) = .ok a ↔ c ∧ x = .ok a := by
  split
  · exact ⟨fun h => ⟨‹_›, h⟩, And.right⟩
  · exact ⟨nofun, fun h => absurd h.1 ‹_›⟩

/-- A computation behind a guard. -/
theorem guard_ok_iff {c : Prop} [Decidable c] {e : ε} {f : Unit → Except ε β} {b : β} :
    (if c then throw e >>= f else f ()) = .ok b ↔ ¬c ∧ f () = .ok b :=
  ite_error_ok_iff

/-- What each step of a fold keeps holds at its end. -/
theorem foldlM_ok {f : σ → α → Except ε σ} {l : List α} {s t : σ} (inv : σ → Prop)
    (hstep : ∀ s a t, a ∈ l → inv s → f s a = .ok t → inv t) (hs : inv s)
    (h : l.foldlM f s = .ok t) : inv t := by
  induction l generalizing s with
  | nil =>
    cases h
    exact hs
  | cons a l ih =>
    rw [List.foldlM_cons, bind_ok_iff] at h
    obtain ⟨u, hu, h⟩ := h
    exact ih (fun s a t ha => hstep s a t (List.mem_cons_of_mem _ ha))
      (hstep s a u List.mem_cons_self hs hu) h

theorem exists_step_of_foldlM {f : σ → α → Except ε σ} {l : List α} {s t : σ} {a : α}
    (h : l.foldlM f s = .ok t) (ha : a ∈ l) : ∃ u v, f u a = .ok v := by
  induction l generalizing s with
  | nil => cases ha
  | cons b l ih =>
    rw [List.foldlM_cons, bind_ok_iff] at h
    obtain ⟨u, hu, h⟩ := h
    rcases List.mem_cons.mp ha with rfl | ha
    · exact ⟨s, u, hu⟩
    · exact ih h ha

/-- A fold fails at the first item whose step fails. -/
theorem foldlM_error {f : σ → α → Except ε σ} {l : List α} {s : σ} {e : ε}
    (h : l.foldlM f s = .error e) : ∃ before a after t,
      l = before ++ a :: after ∧ before.foldlM f s = .ok t ∧ f t a = .error e := by
  induction l generalizing s with
  | nil => cases h
  | cons b l ih =>
    rw [List.foldlM_cons, bind_error_iff] at h
    rcases h with hb | ⟨u, hu, h⟩
    · exact ⟨[], b, l, s, rfl, rfl, hb⟩
    · obtain ⟨before, a, after, t, rfl, hbefore, ha⟩ := ih h
      refine ⟨b :: before, a, after, t, rfl, ?_, ha⟩
      rw [List.foldlM_cons, hu, ok_bind, hbefore]

/-- A computation that fails, if it does, with an error of the given kind. -/
def FailsAs (kind : ε → Prop) (x : Except ε α) : Prop :=
  ∀ e, x = .error e → kind e

section FailsAs

variable {kind : ε → Prop} {x : Except ε α}

theorem failsAs_ok (kind : ε → Prop) (a : α) : FailsAs kind (.ok a) :=
  nofun

theorem failsAs_error {e : ε} (h : kind e) : FailsAs kind (.error e : Except ε α) := by
  rintro _ ⟨⟩
  exact h

theorem FailsAs.mono {kind' : ε → Prop} (h : FailsAs kind x) (hkind : ∀ e, kind e → kind' e) :
    FailsAs kind' x :=
  fun e he => hkind e (h e he)

theorem FailsAs.bind {f : α → Except ε β} (hx : FailsAs kind x)
    (hf : ∀ a, x = .ok a → FailsAs kind (f a)) : FailsAs kind (x >>= f) := by
  intro e h
  rcases bind_error_iff.mp h with h | ⟨a, ha, h⟩
  · exact hx e h
  · exact hf a ha e h

theorem failsAs_guard {c : Prop} [Decidable c] {e : ε} (he : kind e) (hx : ¬c → FailsAs kind x) :
    FailsAs kind (if c then .error e else x) := by
  split
  · exact failsAs_error he
  · exact hx ‹_›

theorem failsAs_require {c : Prop} [Decidable c] {e : ε} {a : α} (he : kind e) :
    FailsAs kind (if c then .ok a else .error e) := by
  split
  · exact failsAs_ok kind a
  · exact failsAs_error he

theorem failsAs_mapError {f : ε → ε'} {kind : ε' → Prop} (h : FailsAs (kind ∘ f) x) :
    FailsAs kind (x.mapError f) := by
  intro e he
  obtain ⟨e, hx, rfl⟩ := mapError_error_iff.mp he
  exact h e hx

theorem failsAs_foldlM {f : σ → α → Except ε σ} {l : List α}
    (h : ∀ s, ∀ a ∈ l, FailsAs kind (f s a)) (s : σ) : FailsAs kind (l.foldlM f s) := by
  intro e he
  obtain ⟨before, a, after, t, rfl, -, hstep⟩ := foldlM_error he
  exact h t a (List.mem_append_right _ List.mem_cons_self) e hstep

end FailsAs

theorem forM_ok_iff {f : α → Except ε Unit} {l : List α} :
    l.forM f = .ok () ↔ ∀ a ∈ l, f a = .ok () := by
  induction l with
  | nil => simp [pure, Except.pure]
  | cons a l ih =>
    rw [List.forM, bind_ok_iff, List.forall_mem_cons, ← ih]
    constructor
    · rintro ⟨⟨⟩, ha, hl⟩
      exact ⟨ha, hl⟩
    · rintro ⟨ha, hl⟩
      exact ⟨(), ha, hl⟩

theorem mapM_ok_iff {f : α → Except ε β} {l : List α} {bs : List β} :
    l.mapM f = .ok bs ↔ List.Forall₂ (fun a b => f a = .ok b) l bs := by
  induction l generalizing bs with
  | nil => simp [pure, Except.pure, eq_comm]
  | cons a l ih =>
    simp only [List.mapM_cons, bind_ok_iff, ih, pure, Except.pure, Except.ok.injEq,
      List.forall₂_cons_left_iff]
    constructor
    · rintro ⟨b, hb, bs, hbs, rfl⟩
      exact ⟨b, bs, hb, hbs, rfl⟩
    · rintro ⟨b, bs, hb, hbs, rfl⟩
      exact ⟨b, hb, bs, hbs, rfl⟩

theorem exists_related {rel : α → β → Prop} {as : List α} {bs : List β}
    (h : List.Forall₂ rel as bs) {a : α} (ha : a ∈ as) : ∃ b ∈ bs, rel a b := by
  induction h with
  | nil => cases ha
  | cons hab _ ih =>
    rcases List.mem_cons.mp ha with rfl | ha
    · exact ⟨_, List.mem_cons_self, hab⟩
    · obtain ⟨b, hb, hrel⟩ := ih ha
      exact ⟨b, List.mem_cons_of_mem _ hb, hrel⟩

theorem exists_related_at {rel : α → β → Prop} {as : List α} {bs : List β}
    (h : List.Forall₂ rel as bs) {k : Nat} {a : α} (ha : as[k]? = some a) :
    ∃ b, bs[k]? = some b ∧ rel a b := by
  induction h generalizing k with
  | nil => cases ha
  | cons hab _ ih =>
    cases k with
    | zero =>
      cases ha
      exact ⟨_, rfl, hab⟩
    | succ k => exact ih ha

theorem map_eq_map_of_related {rel : α → β → Prop} {f : α → σ} {g : β → σ} {as : List α}
    {bs : List β} (h : List.Forall₂ rel as bs) (hfg : ∀ a b, rel a b → f a = g b) :
    as.map f = bs.map g := by
  induction h with
  | nil => rfl
  | cons hab _ ih => rw [List.map_cons, List.map_cons, hfg _ _ hab, ih]

/-- Concatenations of lists that are not longer are equal exactly if all lists are. -/
theorem flatMap_eq_iff {f g : α → List β} {l : List α}
    (h : ∀ a ∈ l, (f a).length ≤ (g a).length) :
    l.flatMap f = l.flatMap g ↔ ∀ a ∈ l, f a = g a := by
  induction l with
  | nil => simp
  | cons a l ih =>
    obtain ⟨ha, hl⟩ := List.forall_mem_cons.mp h
    rw [List.flatMap_cons, List.flatMap_cons, List.forall_mem_cons, ← ih hl]
    constructor
    · intro heq
      have hle := List.sum_le_sum hl
      have hlength := congrArg List.length heq
      simp only [List.length_append, List.length_flatMap] at hlength
      exact List.append_inj heq (by omega)
    · rintro ⟨hhead, htail⟩
      rw [hhead, htail]

end BeanClass
