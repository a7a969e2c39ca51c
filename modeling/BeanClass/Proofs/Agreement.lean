import BeanClass.Proofs.Outcomes

/-! # Two runs side by side

Two outcomes are alike if both are successes with related values, or both are failures with related
errors. Computations that are alike step by step are alike as a whole.
-/

namespace BeanClass

variable {ε ε' η η' α β γ δ σ τ : Type}

inductive Alike (err : ε → ε' → Prop) (rel : α → β → Prop) : Except ε α → Except ε' β → Prop
  | ok {a : α} {b : β} : rel a b → Alike err rel (.ok a) (.ok b)
  | error {d : ε} {e : ε'} : err d e → Alike err rel (.error d) (.error e)

namespace Alike

variable {err : ε → ε' → Prop} {rel : α → β → Prop} {x : Except ε α} {y : Except ε' β}

theorem refl_mapError {err : η → η → Prop} {f : ε → η} (herr : ∀ e, err (f e) (f e))
    (x : Except ε α) : Alike err Eq (x.mapError f) (x.mapError f) := by
  cases x with
  | ok a => exact .ok rfl
  | error e => exact .error (herr e)

theorem bind {rel' : γ → δ → Prop} {f : α → Except ε γ} {g : β → Except ε' δ} (h : Alike err rel x y)
    (hfg : ∀ a b, rel a b → Alike err rel' (f a) (g b)) : Alike err rel' (x >>= f) (y >>= g) := by
  cases h with
  | ok hab => exact hfg _ _ hab
  | error hde => exact .error hde

theorem mapError {err' : η → η' → Prop} {f : ε → η} {g : ε' → η'} (h : Alike err rel x y)
    (hfg : ∀ d e, err d e → err' (f d) (g e)) : Alike err' rel (x.mapError f) (y.mapError g) := by
  cases h with
  | ok hab => exact .ok hab
  | error hde => exact .error (hfg _ _ hde)

theorem mapM {rel' : γ → δ → Prop} {f : α → Except ε γ} {g : β → Except ε' δ} {as : List α}
    {bs : List β} (h : List.Forall₂ rel as bs)
    (hfg : ∀ a b, rel a b → Alike err rel' (f a) (g b)) :
    Alike err (List.Forall₂ rel') (as.mapM f) (bs.mapM g) := by
  induction h with
  | nil => exact .ok .nil
  | cons hab _ ih =>
    rw [List.mapM_cons, List.mapM_cons]
    refine (hfg _ _ hab).bind fun c d hcd => ih.bind fun cs ds hrest => ?_
    exact .ok (.cons hcd hrest)

theorem foldlM {inv : σ → τ → Prop} {f : σ → α → Except ε σ} {g : τ → β → Except ε' τ} {as : List α}
    {bs : List β} {s : σ} {t : τ} (h : List.Forall₂ rel as bs)
    (hfg : ∀ s t a b, inv s t → rel a b → Alike err inv (f s a) (g t b)) (hst : inv s t) :
    Alike err inv (as.foldlM f s) (bs.foldlM g t) := by
  induction h generalizing s t with
  | nil => exact .ok hst
  | cons hab _ ih =>
    rw [List.foldlM_cons, List.foldlM_cons]
    exact (hfg _ _ _ _ hst hab).bind fun _ _ hnext => ih hnext

theorem exists_ok {a : α} (h : Alike err rel (.ok a) y) : ∃ b, y = .ok b ∧ rel a b := by
  cases h with
  | ok hab => exact ⟨_, rfl, hab⟩

theorem ok_iff {err : ε → ε' → Prop} {x : Except ε α} {y : Except ε' α} {a : α}
    (h : Alike err Eq x y) : x = .ok a ↔ y = .ok a := by
  cases h with
  | ok hab => rw [hab, Except.ok.injEq, Except.ok.injEq]
  | error => exact ⟨nofun, nofun⟩

end Alike

end BeanClass
