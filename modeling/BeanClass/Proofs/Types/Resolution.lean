import BeanClass.Proofs.Signatures
import BeanClass.Proofs.Types.Spelling
import BeanClass.Types.Resolution

/-! # Resolved types are well formed

If imports are dotted names and type parameters are identifiers, then every type that is resolved
has a field descriptor, and a signature only if it spells a reference type.
-/

namespace BeanClass

open Name Signature

/-- Imports and type parameters have the names that a source can give them. -/
structure Scope.WellNamed (scope : Scope) : Prop where
  imports : ∀ entry ∈ scope.imports.entries, isQualified entry.2.toList = true
  parameters : ∀ name ∈ scope.parameters, isIdentifier name.toList = true

theorem mem_of_lookup {entries : List (String × String)} {key value : String}
    (h : entries.lookup key = some value) : (key, value) ∈ entries := by
  obtain ⟨before, after, rfl, -⟩ := List.lookup_eq_some_iff.mp h
  exact List.mem_append_right _ List.mem_cons_self

theorem ImportTable.mem_ofList {names : List String} {entry : String × String}
    (h : entry ∈ (ImportTable.ofList names).entries) : entry.2 ∈ names := by
  have hfold : ∀ (names : List String) (t : ImportTable),
      entry ∈ (names.foldl ImportTable.add t).entries → entry.2 ∈ names ∨ entry ∈ t.entries := by
    intro names
    induction names with
    | nil => exact fun t h => Or.inr h
    | cons name names ih =>
      intro t h
      rcases ih _ h with h | h
      · exact Or.inl (List.mem_cons_of_mem _ h)
      · rcases List.mem_cons.mp h with rfl | h
        · exact Or.inl List.mem_cons_self
        · exact Or.inr (List.mem_filter.mp h).1
  rcases hfold names .empty h with h | h
  · exact h
  · cases h

namespace Scope

variable {scope : Scope} {raw name : String}

theorem WellNamed.isInternal_of_find? (hscope : scope.WellNamed)
    (h : scope.find? raw = some (.type name)) : IsInternal name.toList := by
  unfold find? at h
  split at h
  · rename_i found hfound
    cases h
    exact isInternal_internal (hscope.imports _ (mem_of_lookup hfound))
  · split at h
    · rename_i hknown
      cases h
      exact isInternal_internal (Bool.and_eq_true_iff.mp hknown).1
    · split at h
      · rename_i hknown
        cases h
        apply isInternal_internal
        have htext : ("java.lang." ++ raw).toList = "java.lang".toList ++ '.' :: raw.toList := by simp
        rw [htext]
        exact isQualified_append (by decide) (Bool.and_eq_true_iff.mp hknown).1
      · split at h <;> cases h

/-- A type parameter is found under its own name. -/
theorem parameter_of_find? (h : scope.find? raw = some (.parameter name)) :
    name = raw ∧ raw ∈ scope.parameters := by
  unfold find? at h
  split at h
  · cases h
  · split at h
    · cases h
    · split at h
      · cases h
      · split at h
        · cases h
          exact ⟨rfl, ‹_›⟩
        · cases h

theorem WellNamed.isIdentifier_of_find? (hscope : scope.WellNamed)
    (h : scope.find? raw = some (.parameter name)) : isIdentifier name.toList = true := by
  obtain ⟨rfl, hmem⟩ := parameter_of_find? h
  exact hscope.parameters _ hmem

end Scope

/-- A resolved type with the given number of dimensions. -/
structure ResolvedType.HasDims (t : ResolvedType) (dims : Nat) : Prop where
  descriptor : ∃ element, IsElement element ∧
    t.descriptor.toList = List.replicate dims '[' ++ element
  signature : ∀ s, t.signature = some s → IsReference s.toList

namespace ResolvedType

variable {t : ResolvedType} {name : String} {dims : Nat}

theorem HasDims.array (h : t.HasDims 0) (dims : Nat) : (t.array dims).HasDims dims where
  descriptor := by
    obtain ⟨element, helement, heq⟩ := h.descriptor
    exact ⟨element, helement, by simp [ResolvedType.array, heq]⟩
  signature s hs := by
    obtain ⟨inner, hinner, rfl⟩ := Option.map_eq_some_iff.mp hs
    rw [String.toList_append, String.toList_ofList]
    exact (h.signature inner hinner).replicate dims

theorem hasDims_variable (h : isIdentifier name.toList = true) : (ofVariable name).HasDims 0 where
  descriptor := ⟨_, .ofClass isInternal_root, by rw [ofVariable, toList_classDescriptor]; rfl⟩
  signature s hs := by
    cases hs
    have htext : ("T" ++ name ++ ";").toList = 'T' :: (name.toList ++ [';']) := by simp
    rw [htext]
    exact isReference_variable h

theorem hasDims_class {args : List ResolvedType} (h : IsInternal name.toList)
    (hargs : ∀ arg ∈ args, IsReference arg.genericForm.toList) : (ofClass name args).HasDims 0 where
  descriptor := ⟨_, .ofClass h, by rw [ofClass, toList_classDescriptor]; rfl⟩
  signature s hs := by
    simp only [ofClass] at hs
    split at hs
    · cases hs
    · rename_i hne
      cases hs
      have htext : ("L" ++ name ++ "<" ++ String.join (args.map genericForm) ++ ">;").toList =
          'L' :: (name.toList ++ '<' :: ((args.map fun arg => arg.genericForm.toList).flatten ++
            ['>', ';'])) := by
        simp [List.flatMap_def, Function.comp_def]
      rw [htext]
      refine isReference_generic h (by simpa using hne) ?_
      simpa using hargs

theorem toList_genericForm_array (t : ResolvedType) (dims : Nat) :
    (t.array dims).genericForm.toList = List.replicate dims '[' ++ t.genericForm.toList := by
  unfold genericForm ResolvedType.array
  cases t.signature <;> simp

theorem HasDims.isReference (h : t.HasDims 0)
    (hdescriptor : t.signature = none → IsReference t.descriptor.toList) (dims : Nat) :
    IsReference (t.array dims).genericForm.toList := by
  rw [toList_genericForm_array]
  apply IsReference.replicate
  unfold genericForm
  cases hsignature : t.signature with
  | none => exact hdescriptor hsignature
  | some s => exact h.signature s hsignature

/-- An array of a primitive type. -/
theorem isReference_primitive {descriptor : String} {c : Char} (hbase : isBaseType c = true)
    (heq : descriptor.toList = [c]) (hdims : 0 < dims) :
    IsReference (ResolvedType.array ⟨descriptor, none⟩ dims).genericForm.toList := by
  obtain ⟨dims, rfl⟩ := Nat.exists_eq_add_one.mpr hdims
  have htext : List.replicate (dims + 1) '[' ++ [c] = List.replicate dims '[' ++ ['[', c] := by
    rw [List.replicate_succ', List.append_assoc]
    rfl
  rw [toList_genericForm_array]
  change IsReference (List.replicate (dims + 1) '[' ++ descriptor.toList)
  rw [heq, htext]
  exact (isType_base hbase).isReference_array.replicate dims

end ResolvedType

theorem toList_of_primitiveDescriptor? {keyword descriptor : String}
    (h : primitiveDescriptor? keyword = some descriptor) :
    ∃ c, isBaseType c = true ∧ descriptor.toList = [c] := by
  have hall : ∀ entry ∈ primitiveTypes, isBaseType (entry.2.toList.headD 'V') = true ∧
      entry.2.toList = [entry.2.toList.headD 'V'] := by decide
  exact ⟨_, hall _ (mem_of_lookup h)⟩

namespace Scope

open ResolvedType

variable {scope : Scope}

theorem primitive_ok {raw descriptor : String} (dims : Nat)
    (h : primitiveDescriptor? raw = some descriptor) :
    (ResolvedType.array ⟨descriptor, none⟩ dims).HasDims dims ∧
      (0 < dims → IsReference (ResolvedType.array ⟨descriptor, none⟩ dims).genericForm.toList) := by
  obtain ⟨c, hbase, heq⟩ := toList_of_primitiveDescriptor? h
  have hbare : HasDims ⟨descriptor, none⟩ 0 := ⟨⟨[c], .base hbase, heq⟩, nofun⟩
  exact ⟨hbare.array dims, isReference_primitive hbase heq⟩

theorem referent_ok (hscope : scope.WellNamed) {raw name : String} {ts : List ResolvedType}
    (hfind : scope.find? raw = some (.type name))
    (hargs : ∀ t ∈ ts, IsReference t.genericForm.toList) (dims : Nat) :
    ((ofClass name ts).array dims).HasDims dims ∧
      IsReference ((ofClass name ts).array dims).genericForm.toList := by
  have hname := hscope.isInternal_of_find? hfind
  have hclass := hasDims_class hname hargs
  refine ⟨hclass.array dims, hclass.isReference (fun _ => ?_) dims⟩
  rw [ofClass, toList_classDescriptor]
  exact isReference_class hname

/-- What a type expression can be resolved to. -/
theorem resolveExpr_eq_ok {primitives : Bool} {raw : String} {args : List TypeExpr} {dims : Nat}
    {t : ResolvedType} (h : scope.resolveExpr primitives ⟨raw, args, dims⟩ = .ok t) :
    (args = [] ∧ (primitives = true ∨ 0 < dims) ∧ ∃ descriptor,
        primitiveDescriptor? raw = some descriptor ∧ t = ResolvedType.array ⟨descriptor, none⟩ dims) ∨
      (∃ name ts, scope.find? raw = some (.type name) ∧ scope.resolveArgs args = .ok ts ∧
        t = (ofClass name ts).array dims) ∨
      (args = [] ∧ primitiveDescriptor? raw = none ∧ ∃ name,
        scope.find? raw = some (.parameter name) ∧ t = (ofVariable name).array dims) := by
  rw [resolveExpr] at h
  split at h
  · rename_i descriptor hprimitive
    split at hprimitive
    · rename_i hempty
      split at h
      · rename_i hallowed
        cases h
        exact Or.inl ⟨by simpa using hempty, by simpa using hallowed, descriptor, hprimitive, rfl⟩
      · cases h
    · cases hprimitive
  · rename_i hprimitive
    obtain ⟨ts, hts, h⟩ := bind_ok_iff.mp h
    rcases hfind : scope.find? raw with _ | (name | name)
    · simp only [hfind] at h
      cases h
    · simp only [hfind] at h
      cases h
      exact Or.inr (Or.inl ⟨name, ts, rfl, hts, rfl⟩)
    · cases args with
      | nil =>
        simp only [hfind] at h
        cases h
        exact Or.inr (Or.inr ⟨rfl, hprimitive, name, rfl, rfl⟩)
      | cons =>
        simp only [hfind] at h
        cases h

mutual

/-- A resolved type has the dimensions of the expression, and where primitive types are refused it
spells a reference type. -/
theorem resolveExpr_ok (hscope : scope.WellNamed) {primitives : Bool} {t : ResolvedType} :
    (expr : TypeExpr) → scope.resolveExpr primitives expr = .ok t →
      t.HasDims expr.dims ∧ (primitives = false → IsReference t.genericForm.toList)
  | ⟨raw, args, dims⟩, h => by
    rcases resolveExpr_eq_ok h with ⟨-, hallowed, descriptor, hprimitive, rfl⟩ |
      ⟨name, ts, hfind, hts, rfl⟩ | ⟨-, -, name, hfind, rfl⟩
    · obtain ⟨hdims, hreference⟩ := primitive_ok dims hprimitive
      exact ⟨hdims, fun hrefused => hreference (by simpa [hrefused] using hallowed)⟩
    · have hargs := resolveArgs_ok hscope args hts
      obtain ⟨hdims, hreference⟩ := referent_ok hscope hfind hargs dims
      exact ⟨hdims, fun _ => hreference⟩
    · have hvariable := hasDims_variable (hscope.isIdentifier_of_find? hfind)
      exact ⟨hvariable.array dims, fun _ => hvariable.isReference nofun dims⟩

theorem resolveArgs_ok (hscope : scope.WellNamed) {ts : List ResolvedType} :
    (args : List TypeExpr) → scope.resolveArgs args = .ok ts →
      ∀ t ∈ ts, IsReference t.genericForm.toList
  | [], h => by
    cases h
    exact nofun
  | arg :: args, h => by
    rw [resolveArgs] at h
    obtain ⟨first, hfirst, h⟩ := bind_ok_iff.mp h
    obtain ⟨rest, hrest, h⟩ := bind_ok_iff.mp h
    cases h
    refine List.forall_mem_cons.mpr ⟨?_, resolveArgs_ok hscope args hrest⟩
    exact (resolveExpr_ok hscope arg hfirst).2 rfl

end

end Scope

/-- The text of a type resolves to a field type. -/
theorem Scope.resolve_ok {scope : Scope} (hscope : scope.WellNamed) {text : String}
    {primitives : Bool} {t : ResolvedType} (h : scope.resolve text primitives = .ok t) :
    IsFieldType t.descriptor.toList ∧ ∀ s, t.signature = some s → IsReference s.toList := by
  obtain ⟨expr, hexpr, h⟩ := bind_ok_iff.mp h
  obtain ⟨hdims, -⟩ := resolveExpr_ok hscope expr h
  obtain ⟨element, helement, heq⟩ := hdims.descriptor
  exact ⟨⟨expr.dims, (TypeExpr.spells_of_parse hexpr).dims_le, element, helement, heq⟩, hdims.signature⟩

end BeanClass
