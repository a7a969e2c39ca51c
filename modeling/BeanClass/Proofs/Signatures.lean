import BeanClass.Proofs.Descriptors
import BeanClass.Proofs.Signatures.Reading
import BeanClass.Signature.Basic

/-! # Signatures of types and accessors

Class types with arguments, type variables and arrays are read as reference types, and the signatures
that are made of them for classes, fields and accessors are accepted.
-/

namespace BeanClass.Signature

open Name

variable {p s : List Char}

theorem isIdentifier_of_name (h : isIdentifier p = true) : IsIdentifier p where
  ne_nil := ne_nil_of_isIdentifier h
  chars c hc hmem := by
    have hpart := isPart_of_mem h hc
    have hall : ['/', ';', '<', '>', ':', '.', '['].all (!isPart ·) = true := by decide
    have hnot := List.all_eq_true.mp hall c hmem
    rw [hpart] at hnot
    cases hnot

theorem isReference_variable (h : isIdentifier p = true) : IsReference ('T' :: (p ++ [';'])) :=
  (Derives.ofVariable (.typeVariable (isIdentifier_of_name h))).isReference

theorem isReference_class (h : IsInternal s) : IsReference ('L' :: (s ++ [';'])) := by
  obtain ⟨pieces, hne, hpieces, rfl⟩ := h
  have hsegments : IsSegments (List.intercalate ['/'] pieces) := by
    apply isSegments_intercalate (by decide) hne
    intro p hp
    exact isSegments_identifier (isIdentifier_of_name (hpieces p hp))
  exact isReference_of_segments? hsegments.reads_end

theorem isReference_generic {args : List (List Char)} (h : IsInternal s) (hne : args ≠ [])
    (hargs : ∀ arg ∈ args, IsReference arg) :
    IsReference ('L' :: (s ++ '<' :: (args.flatten ++ ['>', ';']))) := by
  have hargument : ∀ arg ∈ args, IsArgument arg := fun arg harg => (hargs arg harg).isArgument
  obtain ⟨pieces, hpieces, hidentifiers, rfl⟩ := h
  have hsegments : IsSegments (List.intercalate ['/'] pieces ++ '<' :: (args.flatten ++ ['>'])) := by
    induction pieces with
    | nil => exact absurd rfl hpieces
    | cons p pieces ih =>
      obtain ⟨hp, hmore⟩ := List.forall_mem_cons.mp hidentifiers
      have hname := isIdentifier_of_name hp
      cases pieces with
      | nil =>
        rw [List.intercalate_singleton]
        exact isSegments_applied hname hne hargument
      | cons q pieces =>
        have hrest := ih (List.cons_ne_nil _ _) hmore
        rw [List.intercalate_cons_cons, List.append_assoc, List.append_assoc, List.singleton_append]
        exact (isSegments_identifier hname).append hrest (by decide)
  simpa using isReference_of_segments? hsegments.reads_end

theorem isFieldSignature_of_isType (h : IsType s) : isFieldSignature s = true := by
  have hread := h (depth s) [] (by unfold depth; omega)
  rw [List.append_nil] at hread
  rw [isFieldSignature, hread]
  rfl

theorem isMethodSignature_ofGetter {field : String} (h : IsReference field.toList) :
    isMethodSignature (ofGetter field).toList = true := by
  have hsignature := @isMethodSignature_of_types [] field.toList [] [] (Or.inl rfl) nofun
    (Or.inr h.isType) nofun
  simpa [ofGetter] using hsignature

theorem isMethodSignature_ofSetter {field : String} (h : IsReference field.toList) :
    isMethodSignature (ofSetter field).toList = true := by
  have hsignature := @isMethodSignature_of_types [] ['V'] [field.toList] [] (Or.inl rfl)
    (List.forall_mem_singleton.mpr h.isType) (Or.inl rfl) nofun
  simpa [ofSetter] using hsignature

theorem isInternal_root : IsInternal rootClass.toList :=
  ⟨["java".toList, "lang".toList, "Object".toList], by decide, by decide, by decide⟩

theorem toList_classDescriptor (name : String) :
    (classDescriptor name).toList = 'L' :: (name.toList ++ [';']) := by
  simp [classDescriptor]

/-- The class type that bounds every type parameter. -/
theorem derives_root : Derives .classType (classDescriptor rootClass).toList := by
  have hsegment : ∀ p ∈ ["java".toList, "lang".toList, "Object".toList], Derives .segment p := by
    intro p hp
    have hall : ["java".toList, "lang".toList, "Object".toList].all isIdentifier = true := by decide
    exact .plain (isIdentifier_of_name (List.all_eq_true.mp hall p hp))
  have hname := Derives.simpleType (by decide) hsegment
  have hclass := Derives.classType (List.cons_ne_nil _ _) (List.forall_mem_singleton.mpr hname)
  rw [toList_classDescriptor]
  exact hclass

/-- Type parameters with the root class as their only bound. -/
theorem isParameterList_root {parameters : List String} (hne : parameters ≠ [])
    (h : ∀ name ∈ parameters, isIdentifier name.toList = true) :
    IsParameterList ((parameters.flatMap fun name =>
      name.toList ++ ':' :: (classDescriptor rootClass).toList) ++ ['>']) := by
  have hparameter : ∀ (next : List Char) (name : String), isIdentifier name.toList = true →
      IsParameter next (name.toList ++ ':' :: (classDescriptor rootClass).toList) := by
    intro next name hname
    have hbounded := @IsParameter.bounded next name.toList _ [] (isIdentifier_of_name hname)
      (.ofClass derives_root) nofun
    simpa using hbounded
  induction parameters with
  | nil => exact absurd rfl hne
  | cons name parameters ih =>
    obtain ⟨hname, hmore⟩ := List.forall_mem_cons.mp h
    cases parameters with
    | nil =>
      rw [List.flatMap_cons, List.flatMap_nil, List.append_nil]
      exact .last (hparameter _ name hname)
    | cons next parameters =>
      rw [List.flatMap_cons, List.append_assoc]
      exact .cons (hparameter _ name hname) (ih (List.cons_ne_nil _ _) hmore)

/-- The signature of a class whose type parameters are identifiers. -/
theorem isClassSignature_ofParameters? {parameters : List String} {signature : String}
    (h : ∀ name ∈ parameters, isIdentifier name.toList = true)
    (hs : ofParameters? parameters = some signature) : isClassSignature signature.toList = true := by
  unfold ofParameters? at hs
  split at hs
  · cases hs
  · rename_i hne
    cases hs
    have hlist := isParameterList_root (by simpa using hne) h
    have hsig := @IsClassSig.mk _ [_] (Or.inr ⟨_, rfl, hlist⟩) (List.cons_ne_nil _ _)
      (List.forall_mem_singleton.mpr derives_root)
    have haccepted := isClassSignature_of_isClassSig hsig
    simpa [List.flatMap_def, Function.comp_def] using haccepted

end BeanClass.Signature
