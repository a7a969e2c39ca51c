import BeanClass.Proofs.Pool.Operations

/-! # When steps on a pool succeed

A step that checks conditions and calls operations of a constant pool succeeds exactly if the
conditions hold and the calls succeed one after the other. Conditions and calls are collected along
the structure of the step.
-/

namespace BeanClass.ConstantPool

variable {α β : Type} {p q r : ConstantPool} {calls calls' : List Call} {cond cond' : Prop}

/-- All calls succeed, one after the other. -/
def Adds (calls : List Call) (p q : ConstantPool) : Prop :=
  ∃ indices, calls.mapM Call.run p = .ok indices q

theorem adds_nil : Adds [] p q ↔ p = q := by
  simp only [Adds, List.mapM_nil, pure_eq_ok, exists_eq_left']

theorem adds_cons {call : Call} :
    Adds (call :: calls) p r ↔ ∃ i q, call.run p = .ok i q ∧ Adds calls q r := by
  simp only [Adds, List.mapM_cons, bind_eq_ok, pure_eq_ok]
  constructor
  · rintro ⟨_, i, q, hcall, indices, _, hcalls, rfl, rfl⟩
    exact ⟨i, q, hcall, indices, hcalls⟩
  · rintro ⟨i, q, hcall, indices, hcalls⟩
    exact ⟨_, i, q, hcall, indices, r, hcalls, rfl, rfl⟩

theorem adds_append : Adds (calls ++ calls') p r ↔ ∃ q, Adds calls p q ∧ Adds calls' q r := by
  induction calls generalizing p with
  | nil => simp only [List.nil_append, adds_nil, exists_eq_left']
  | cons call calls ih =>
    simp only [List.cons_append, adds_cons, ih]
    constructor
    · rintro ⟨i, s, hcall, q, hcalls, hcalls'⟩
      exact ⟨q, ⟨i, s, hcall, hcalls⟩, hcalls'⟩
    · rintro ⟨q, ⟨i, s, hcall, hcalls⟩, hcalls'⟩
      exact ⟨i, s, hcall, q, hcalls, hcalls'⟩

/-- The step succeeds exactly if the condition holds and the calls succeed, and it leaves the pool
that the calls leave. -/
def SucceedsIff (x : PoolM α) (cond : Prop) (calls : List Call) : Prop :=
  ∀ p q, (∃ a, x p = .ok a q) ↔ cond ∧ Adds calls p q

theorem SucceedsIff.congr {x : PoolM α} (h : SucceedsIff x cond calls) (hcond : cond ↔ cond') :
    SucceedsIff x cond' calls := by
  intro p q
  rw [← hcond]
  exact h p q

theorem succeedsIff_pure (a : α) : SucceedsIff (pure a) True [] := by
  intro p q
  simp only [pure_eq_ok, exists_eq_left', adds_nil, true_and]

theorem succeedsIff_get : SucceedsIff (get : PoolM ConstantPool) True [] := by
  intro p q
  rw [adds_nil, true_and]
  constructor
  · rintro ⟨a, h⟩
    cases h
    rfl
  · rintro rfl
    exact ⟨p, rfl⟩

theorem succeedsIff_throw {e : EncodeError} (hcond : ¬cond) :
    SucceedsIff (throw e : PoolM α) cond calls :=
  fun _ _ => iff_of_false nofun fun h => hcond h.1

theorem Call.succeedsIff (call : Call) : SucceedsIff call.run True [call] := by
  intro p q
  simp only [adds_cons, adds_nil, exists_eq_right, true_and]

/-- A step behind another one, with results of which only those that occur count. -/
theorem SucceedsIff.bind {x : PoolM α} {f : α → PoolM β} (hx : SucceedsIff x cond calls)
    (hf : ∀ {p a q}, x p = .ok a q → SucceedsIff (f a) cond' calls') :
    SucceedsIff (x >>= f) (cond ∧ cond') (calls ++ calls') := by
  intro p r
  simp only [bind_eq_ok, adds_append]
  constructor
  · rintro ⟨b, a, q, ha, hb⟩
    obtain ⟨hcond, hcalls⟩ := (hx p q).mp ⟨a, ha⟩
    obtain ⟨hcond', hcalls'⟩ := (hf ha q r).mp ⟨b, hb⟩
    exact ⟨⟨hcond, hcond'⟩, q, hcalls, hcalls'⟩
  · rintro ⟨⟨hcond, hcond'⟩, q, hcalls, hcalls'⟩
    obtain ⟨a, ha⟩ := (hx p q).mpr ⟨hcond, hcalls⟩
    obtain ⟨b, hb⟩ := (hf ha q r).mpr ⟨hcond', hcalls'⟩
    exact ⟨b, a, q, ha, hb⟩

theorem SucceedsIff.map {x : PoolM α} (hx : SucceedsIff x cond calls) (f : α → β) :
    SucceedsIff (x >>= fun a => pure (f a)) cond calls := by
  have h : SucceedsIff (x >>= fun a => pure (f a)) (cond ∧ True) (calls ++ []) :=
    hx.bind fun _ => succeedsIff_pure _
  rwa [and_true, List.append_nil] at h

theorem succeedsIff_guard {c : Prop} [Decidable c] {e : EncodeError} {f : Unit → PoolM α}
    (hf : SucceedsIff (f ()) cond calls) (hcond : ¬c ∧ cond ↔ cond') :
    SucceedsIff (if c then throw e >>= f else f ()) cond' calls := by
  split
  · exact succeedsIff_throw fun h => (hcond.mpr h).1 ‹c›
  · exact hf.congr ((iff_and_self.mpr fun _ => ‹¬c›).trans hcond)

theorem SucceedsIff.mapM {f : α → PoolM β} {condOf : α → Prop} {callsOf : α → List Call}
    (hf : ∀ a, SucceedsIff (f a) (condOf a) (callsOf a)) (l : List α) :
    SucceedsIff (l.mapM f) (∀ a ∈ l, condOf a) (l.flatMap callsOf) := by
  induction l with
  | nil => exact (succeedsIff_pure []).congr (iff_of_true trivial nofun)
  | cons a l ih =>
    rw [List.mapM_cons, List.flatMap_cons]
    refine ((hf a).bind fun {_ b _} _ => ih.map (b :: ·)).congr ?_
    rw [List.forall_mem_cons]

/-- Each result of a loop is one that the step gives for its item. -/
theorem forall₂_of_mapM {f : α → PoolM β} {l : List α} {bs : List β}
    (h : l.mapM f p = .ok bs q) : List.Forall₂ (fun a b => ∃ p q, f a p = .ok b q) l bs := by
  induction l generalizing p bs with
  | nil =>
    rw [List.mapM_nil, pure_eq_ok] at h
    obtain ⟨rfl, rfl⟩ := h
    exact .nil
  | cons a l ih =>
    rw [List.mapM_cons] at h
    obtain ⟨b, r, ha, h⟩ := bind_eq_ok.mp h
    obtain ⟨bs, s, hl, h⟩ := bind_eq_ok.mp h
    obtain ⟨rfl, rfl⟩ := pure_eq_ok.mp h
    exact .cons ⟨p, r, ha⟩ (ih hl)

end BeanClass.ConstantPool
