import BeanClass.Compile
import BeanClass.Proofs.Types.Resolution

/-! # More known types

An expression that resolves keeps resolving when more types are known. Whatever its outcome is, it
stays the same if none of the new types can be meant by one of the raw names in the expression.
-/

namespace BeanClass

mutual

/-- The raw names in an expression, at any depth. -/
def TypeExpr.rawNames : TypeExpr → List String
  | ⟨raw, args, _⟩ => raw :: rawNamesOfArgs args

def TypeExpr.rawNamesOfArgs : List TypeExpr → List String
  | [] => []
  | arg :: args => rawNames arg ++ rawNamesOfArgs args

end

namespace Scope

open ResolvedType

/-- The same imports and type parameters with other known types. -/
def knowing (scope : Scope) (known : String → Bool) : Scope :=
  { scope with isKnown := known }

variable {scope other : Scope} {known : String → Bool} {raw name : String}

/-- A name that stands for a type does so if more types are known, though perhaps for another one. -/
theorem find?_type_knowing (hsub : ∀ name, scope.isKnown name = true → known name = true)
    (h : scope.find? raw = some (.type name)) :
    ∃ name, (scope.knowing known).find? raw = some (.type name) := by
  unfold find? at h
  split at h
  · rename_i found himport
    exact ⟨Name.internal found, by rw [find?, knowing, himport]⟩
  · rename_i himport
    simp only [find?, knowing, himport]
    split_ifs at h with hplain hpackage
    · rw [Bool.and_eq_true] at hplain
      simp [hplain.1, hsub _ hplain.2]
    · rw [Bool.and_eq_true] at hpackage
      simp only [hpackage.1, hsub _ hpackage.2, Bool.and_true, if_true]
      split <;> exact ⟨_, rfl⟩
    · cases h

/-- A type parameter may be hidden by a type that is known in addition. -/
theorem find?_parameter_knowing (h : scope.find? raw = some (.parameter name)) :
    (scope.knowing known).find? raw = some (.parameter name) ∨
      ∃ name, (scope.knowing known).find? raw = some (.type name) := by
  obtain ⟨rfl, hmem⟩ := parameter_of_find? h
  unfold find? at h
  split at h
  · cases h
  · rename_i himport
    have himport' : (scope.knowing known).imports.find? name = none := himport
    have hmem' : name ∈ (scope.knowing known).parameters := hmem
    rw [find?, himport', if_pos hmem']
    dsimp only
    split_ifs
    · exact Or.inr ⟨_, rfl⟩
    · exact Or.inr ⟨_, rfl⟩
    · exact Or.inl rfl

mutual

theorem exists_resolveExpr_knowing (hsub : ∀ name, scope.isKnown name = true → known name = true)
    {primitives : Bool} {t : ResolvedType} :
    (expr : TypeExpr) → scope.resolveExpr primitives expr = .ok t →
      ∃ t, (scope.knowing known).resolveExpr primitives expr = .ok t
  | ⟨raw, args, dims⟩, h => by
    cases hprimitive : if args.isEmpty then primitiveDescriptor? raw else none with
    | some descriptor =>
      simp only [resolveExpr, hprimitive] at h ⊢
      exact ⟨t, h⟩
    | none =>
      simp only [resolveExpr, hprimitive] at h ⊢
      obtain ⟨ts, hts, h⟩ := bind_ok_iff.mp h
      obtain ⟨ts', hts'⟩ := exists_resolveArgs_knowing hsub args hts
      rw [hts', ok_bind]
      rcases hfind : scope.find? raw with _ | (name | name)
      · simp only [hfind] at h
        cases h
      · obtain ⟨name', hfind'⟩ := find?_type_knowing hsub hfind
        rw [hfind']
        exact ⟨_, rfl⟩
      · cases args with
        | nil =>
          obtain hfind' | ⟨name', hfind'⟩ : _ ∨ _ := find?_parameter_knowing hfind <;>
            rw [hfind'] <;> exact ⟨_, rfl⟩
        | cons =>
          simp only [hfind] at h
          cases h

theorem exists_resolveArgs_knowing (hsub : ∀ name, scope.isKnown name = true → known name = true)
    {ts : List ResolvedType} : (args : List TypeExpr) → scope.resolveArgs args = .ok ts →
      ∃ ts, (scope.knowing known).resolveArgs args = .ok ts
  | [], _ => ⟨[], rfl⟩
  | arg :: args, h => by
    rw [resolveArgs] at h
    obtain ⟨first, hfirst, h⟩ := bind_ok_iff.mp h
    obtain ⟨rest, hrest, -⟩ := bind_ok_iff.mp h
    obtain ⟨first', hfirst'⟩ := exists_resolveExpr_knowing hsub arg hfirst
    obtain ⟨rest', hrest'⟩ := exists_resolveArgs_knowing hsub args hrest
    exact ⟨first' :: rest', by rw [resolveArgs, hfirst', ok_bind, hrest', ok_bind]⟩

end

mutual

/-- Only what the raw names in an expression stand for matters. -/
theorem resolveExpr_congr : (primitives : Bool) → (expr : TypeExpr) →
    (∀ raw ∈ expr.rawNames, other.find? raw = scope.find? raw) →
      other.resolveExpr primitives expr = scope.resolveExpr primitives expr
  | primitives, ⟨raw, args, dims⟩, h => by
    rw [TypeExpr.rawNames, List.forall_mem_cons] at h
    rw [resolveExpr, resolveExpr, resolveArgs_congr args h.2, h.1]

theorem resolveArgs_congr : (args : List TypeExpr) →
    (∀ raw ∈ TypeExpr.rawNamesOfArgs args, other.find? raw = scope.find? raw) →
      other.resolveArgs args = scope.resolveArgs args
  | [], _ => rfl
  | arg :: args, h => by
    rw [TypeExpr.rawNamesOfArgs, List.forall_mem_append] at h
    rw [resolveArgs, resolveArgs, resolveExpr_congr false arg h.1, resolveArgs_congr args h.2]

end

theorem find?_knowing_congr (h : ∀ name ∈ [raw, "java.lang." ++ raw], known name = scope.isKnown name) :
    (scope.knowing known).find? raw = scope.find? raw := by
  have hplain : (scope.knowing known).isKnown raw = scope.isKnown raw := h _ (by simp)
  have hpackage : (scope.knowing known).isKnown ("java.lang." ++ raw) =
      scope.isKnown ("java.lang." ++ raw) := h _ (by simp)
  rw [find?, hplain, hpackage]
  rfl

/-- If more types are known, every text that resolved still resolves. If no new type has a raw name of
the text as its name, alone or in the language package, the outcome is the same, be it a type or an
error. -/
theorem resolve_knowing (hsub : ∀ name, scope.isKnown name = true → known name = true) (text : String)
    (primitives : Bool) :
    ((∃ t, scope.resolve text primitives = .ok t) →
      ∃ t, (scope.knowing known).resolve text primitives = .ok t) ∧
    ((∀ expr, TypeExpr.parse text.toList = .ok expr → ∀ raw ∈ expr.rawNames,
        ∀ name ∈ [raw, "java.lang." ++ raw], known name = true → scope.isKnown name = true) →
      (scope.knowing known).resolve text primitives = scope.resolve text primitives) := by
  constructor
  · rintro ⟨t, h⟩
    obtain ⟨expr, hexpr, h⟩ := bind_ok_iff.mp h
    obtain ⟨t', h'⟩ := exists_resolveExpr_knowing hsub expr h
    exact ⟨t', bind_ok_iff.mpr ⟨expr, hexpr, h'⟩⟩
  · intro hnew
    unfold resolve
    cases hparse : TypeExpr.parse text.toList with
    | error e => rfl
    | ok expr =>
      refine resolveExpr_congr primitives expr fun raw hraw => ?_
      refine find?_knowing_congr fun name hname => ?_
      exact Bool.eq_iff_iff.mpr ⟨hnew expr hparse raw hraw name hname, hsub name⟩

/-- No known types and one type parameter. -/
def lone : Scope :=
  ⟨.empty, ["T"], fun _ => false⟩

theorem parse_lone : TypeExpr.parse "T".toList = .ok ⟨"T", [], 0⟩ := by
  have hshape : TypeExpr.shape? (Text.trim "T".toList) = some ⟨"T".toList, [], 0⟩ := by cbv
  rw [TypeExpr.parse_of_shape hshape]
  rfl

/-- The type parameter still resolves where a class has its name, and resolves to the same where
another class is known. -/
theorem resolve_knowing_lone : lone.resolve "T" true = .ok (ofVariable "T") ∧
    (lone.knowing (· == "T")).resolve "T" true = .ok (ofClass "T" []) ∧
    (∃ t, (lone.knowing (· == "T")).resolve "T" true = .ok t) ∧
    (lone.knowing (· == "U")).resolve "T" true = lone.resolve "T" true := by
  have hvariable : lone.resolve "T" true = .ok (ofVariable "T") := by
    rw [resolve, parse_lone, ok_bind]
    cbv
  have hclass : (lone.knowing (· == "T")).resolve "T" true = .ok (ofClass "T" []) := by
    rw [resolve, parse_lone, ok_bind]
    cbv
  have hnone : ∀ {known : String → Bool} (name : String), lone.isKnown name = true →
      known name = true := fun _ h => absurd h Bool.false_ne_true
  refine ⟨hvariable, hclass, (resolve_knowing hnone "T" true).1 ⟨_, hvariable⟩,
    (resolve_knowing hnone "T" true).2 fun expr hexpr => ?_⟩
  cases parse_lone.symm.trans hexpr
  decide

end Scope

/-! ## Types that a configuration adds -/

namespace Catalog

theorem contains_insert {c : Catalog} {name other : String} :
    (c.insert name).contains other = true ↔ other = name ∨ c.contains other = true := by
  unfold insert
  split
  · rename_i hname
    exact ⟨Or.inr, fun h => h.elim (fun heq => heq ▸ hname) id⟩
  · simp [contains]

theorem contains_insertAll {c : Catalog} {names : List String} {name : String} :
    (c.insertAll names).contains name = true ↔ name ∈ names ∨ c.contains name = true := by
  induction names generalizing c with
  | nil => simp [insertAll]
  | cons first names ih =>
    rw [insertAll, List.foldl_cons, ← insertAll, ih, contains_insert, List.mem_cons]
    tauto

end Catalog

namespace ClassSource

variable {source : ClassSource} {config : Config} {name : String}

theorem isKnown_scope_iff : (source.scope config).isKnown name = true ↔
    name ∈ config.knownTypes ∨ Catalog.platform.contains name = true :=
  Catalog.contains_insertAll

/-- An attribute whose type resolves under a configuration resolves under every one that knows
more types. -/
theorem exists_resolve_of_subset {larger : Config} (h : config.knownTypes ⊆ larger.knownTypes)
    {text : String} {t : ResolvedType} (ht : (source.scope config).resolve text true = .ok t) :
    ∃ t, (source.scope larger).resolve text true = .ok t := by
  have hsub : ∀ name, (source.scope config).isKnown name = true →
      (source.scope larger).isKnown name = true := fun name hname =>
    isKnown_scope_iff.mpr ((isKnown_scope_iff.mp hname).imp_left fun hmem => h hmem)
  obtain ⟨expr, hexpr, ht⟩ := bind_ok_iff.mp ht
  obtain ⟨t', ht'⟩ := Scope.exists_resolveExpr_knowing hsub expr ht
  exact ⟨t', bind_ok_iff.mpr ⟨expr, hexpr, ht'⟩⟩

end ClassSource

end BeanClass
