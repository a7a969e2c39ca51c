import BeanClass.Descriptor
import BeanClass.Proofs.Outcomes
import BeanClass.Proofs.Text.Cut

/-! # The grammar of descriptors

The texts that describe a type: brackets in front of a base type or of the name of a class. The check of
field descriptors accepts exactly these. A method descriptor is split into parameters and a result in
one way only, so that splitting it and writing its parts one behind the other undo each other.
-/

namespace BeanClass

variable {c : Char} {s name element result : List Char} {found parameters : List (List Char)}

theorem isBaseType_iff : isBaseType c = true ↔ c ∈ ['B', 'C', 'D', 'F', 'I', 'J', 'S', 'Z'] := by
  simp [isBaseType, or_assoc]

/-- Slashes stand between segments, none of which is empty or holds a character with a meaning in
descriptors or signatures. -/
def DescribesClass (name : List Char) : Prop :=
  ∃ segments, segments ≠ [] ∧
    (∀ s ∈ segments, s ≠ [] ∧ ∀ c ∈ s, c ∉ ['/', '.', ';', '[', '<', '>']) ∧
    name = List.intercalate ['/'] segments

/-- The text of a type other than an array. -/
inductive DescribesElement : List Char → Prop
  | base {c : Char} : c ∈ ['B', 'C', 'D', 'F', 'I', 'J', 'S', 'Z'] → DescribesElement [c]
  | ofClass {name : List Char} : DescribesClass name → DescribesElement ('L' :: (name ++ [';']))

def DescribesType (s : List Char) : Prop :=
  ∃ dims ≤ 255, ∃ element, DescribesElement element ∧ s = List.replicate dims '[' ++ element

theorem isSegment_iff (h : '/' ∉ s) :
    isSegment s = true ↔ s ≠ [] ∧ ∀ c ∈ s, c ∉ ['/', '.', ';', '[', '<', '>'] := by
  have hslash : ∀ c ∈ s, c ≠ '/' := fun c hc heq => h (heq ▸ hc)
  simp only [isSegment, Bool.and_eq_true, List.all_eq_true, Bool.not_eq_true', Bool.or_eq_false_iff,
    beq_eq_false_iff_ne, List.isEmpty_eq_false_iff, List.mem_cons, List.not_mem_nil, or_false, not_or]
  refine and_congr_right fun _ => forall₂_congr fun c hc => ?_
  simp [hslash c hc, and_assoc]

theorem isInternalName_iff : isInternalName name = true ↔ DescribesClass name := by
  rw [isInternalName, List.all_eq_true]
  constructor
  · intro h
    refine ⟨name.splitOn '/', List.splitOn_ne_nil _ _, ?_, (List.intercalate_splitOn '/').symm⟩
    exact fun s hs => (isSegment_iff (Text.not_mem_of_mem_splitOn hs)).mp (h s hs)
  · rintro ⟨segments, hne, hsegments, rfl⟩
    have hslash : ∀ s ∈ segments, '/' ∉ s := fun s hs hmem => (hsegments s hs).2 _ hmem (by decide)
    rw [List.splitOn_intercalate _ hslash hne]
    exact fun s hs => (isSegment_iff (hslash s hs)).mpr (hsegments s hs)

theorem DescribesClass.not_mem_semicolon (h : DescribesClass name) : ';' ∉ name := by
  obtain ⟨segments, -, hsegments, rfl⟩ := h
  intro hmem
  rcases Text.mem_intercalate hmem with heq | ⟨s, hs, hmem⟩
  · exact absurd heq (by decide)
  · exact (hsegments s hs).2 _ hmem (by decide)

theorem isElementDescriptor_iff : isElementDescriptor s = true ↔ DescribesElement s := by
  constructor
  · intro h
    unfold isElementDescriptor at h
    split at h
    · cases h
    · rename_i s
      rw [Bool.and_eq_true, beq_iff_eq] at h
      obtain ⟨hlast, hname⟩ := h
      rw [← List.dropLast_append_getLast? ';' hlast]
      exact .ofClass (isInternalName_iff.mp hname)
    · rename_i c s _
      rw [Bool.and_eq_true, List.isEmpty_iff] at h
      obtain ⟨hbase, rfl⟩ := h
      exact .base (isBaseType_iff.mp hbase)
  · rintro (hbase | hname)
    · rw [isElementDescriptor, isBaseType_iff.mpr hbase]
      · rfl
      · rintro rfl
        exact absurd hbase (by decide)
    · simp [isElementDescriptor, isInternalName_iff.mpr hname]

/-- The brackets end where the element starts. -/
theorem DescribesElement.exists_cons (h : DescribesElement element) :
    ∃ c rest, element = c :: rest ∧ c ≠ '[' := by
  rcases h with hbase | hname
  · refine ⟨_, [], rfl, ?_⟩
    rintro rfl
    exact absurd hbase (by decide)
  · exact ⟨'L', _, rfl, by decide⟩

theorem isFieldDescriptor_iff : isFieldDescriptor s = true ↔ DescribesType s := by
  rw [isFieldDescriptor, Bool.and_eq_true, decide_eq_true_iff, isElementDescriptor_iff]
  constructor
  · rintro ⟨hdims, helement⟩
    refine ⟨_, hdims, _, helement, ?_⟩
    have hbrackets : s.takeWhile (· == '[') = List.replicate (s.takeWhile (· == '[')).length '[' :=
      List.eq_replicate_iff.mpr ⟨rfl, fun c hc => by simpa using List.mem_takeWhile_imp hc⟩
    rw [← hbrackets, List.takeWhile_append_dropWhile]
  · rintro ⟨dims, hdims, element, helement, rfl⟩
    obtain ⟨c, rest, rfl, hc⟩ := helement.exists_cons
    rw [List.takeWhile_append_of_pos (by simp), List.dropWhile_append_of_pos (by simp)]
    simp [hc, hdims, helement]

namespace MethodDescriptor

theorem cutParameters_brackets (found : List (List Char)) (dims : Nat) (piece rest : List Char) :
    cutParameters found piece false (List.replicate dims '[' ++ rest) =
      cutParameters found (List.replicate dims '[' ++ piece) false rest := by
  induction dims generalizing piece with
  | zero => rfl
  | succ dims ih =>
    have hpiece : List.replicate dims '[' ++ '[' :: piece = List.replicate (dims + 1) '[' ++ piece := by
      rw [List.replicate_succ', List.append_assoc]
      rfl
    rw [List.replicate_succ, List.cons_append, cutParameters, if_pos rfl, ih, hpiece,
      List.replicate_succ]

theorem cutParameters_class (found : List (List Char)) (h : ';' ∉ name) (piece rest : List Char) :
    cutParameters found piece true (name ++ ';' :: rest) =
      cutParameters ((';' :: (name.reverse ++ piece)).reverse :: found) [] false rest := by
  induction name generalizing piece with
  | nil => simp [cutParameters]
  | cons c name ih =>
    rw [List.mem_cons, not_or] at h
    rw [List.cons_append, cutParameters, if_neg (Ne.symm h.1), ih h.2]
    simp

/-- The text of a type in front of others is the next parameter. -/
theorem cutParameters_type (h : DescribesType s) (found : List (List Char)) (rest : List Char) :
    cutParameters found [] false (s ++ rest) = cutParameters (s :: found) [] false rest := by
  obtain ⟨dims, -, element, helement, rfl⟩ := h
  rw [List.append_assoc, cutParameters_brackets, List.append_nil]
  rcases helement with @⟨c, hbase⟩ | hname
  · have hbracket : c ≠ '[' := by
      rintro rfl
      exact absurd hbase (by decide)
    have hclass : c ≠ 'L' := by
      rintro rfl
      exact absurd hbase (by decide)
    have hascii : c.toNat < 0x80 := by
      have hall : ['B', 'C', 'D', 'F', 'I', 'J', 'S', 'Z'].all (·.toNat < 0x80) = true := by decide
      exact of_decide_eq_true (List.all_eq_true.mp hall c hbase)
    simp [cutParameters, hbracket, hclass, hascii]
  · rw [List.cons_append, cutParameters, if_neg (by decide), if_pos rfl, List.append_assoc,
      List.singleton_append, cutParameters_class _ hname.not_mem_semicolon]
    simp

theorem cutParameters_flatten (h : ∀ p ∈ parameters, DescribesType p) (found : List (List Char)) :
    cutParameters found [] false parameters.flatten = .ok (found.reverse ++ parameters) := by
  induction parameters generalizing found with
  | nil => simp [cutParameters]
  | cons p parameters ih =>
    obtain ⟨hp, h⟩ := List.forall_mem_cons.mp h
    rw [List.flatten_cons, cutParameters_type hp, ih h]
    simp

/-- What is cut into parameters is these parameters one behind the other. -/
theorem cutParameters_eq_ok {piece : List Char} {inClass : Bool}
    (h : cutParameters found piece inClass s = .ok parameters) :
    ∃ cut, parameters = found.reverse ++ cut ∧ piece.reverse ++ s = cut.flatten := by
  fun_induction cutParameters found piece inClass s with
  | case1 found piece inClass hend =>
    cases h
    rw [Bool.and_eq_true, List.isEmpty_iff] at hend
    obtain ⟨rfl, -⟩ := hend
    exact ⟨[], by simp, rfl⟩
  | case3 found piece s ih =>
    obtain ⟨cut, rfl, rfl⟩ := ih h
    exact ⟨(';' :: piece).reverse :: cut, by simp, by simp⟩
  | case4 found piece c s hc ih =>
    obtain ⟨cut, rfl, hcut⟩ := ih h
    exact ⟨cut, rfl, by simpa using hcut⟩
  | case5 found piece s ih =>
    obtain ⟨cut, rfl, hcut⟩ := ih h
    exact ⟨cut, rfl, by simpa using hcut⟩
  | case6 found piece s hc ih =>
    obtain ⟨cut, rfl, hcut⟩ := ih h
    exact ⟨cut, rfl, by simpa using hcut⟩
  | case7 found piece c s hc hc' hascii ih =>
    obtain ⟨cut, rfl, rfl⟩ := ih h
    exact ⟨(c :: piece).reverse :: cut, by simp, by simp⟩
  | _ => cases h

variable {descriptor : String}

/-- A descriptor with the texts of types as parameters, and one more or nothing as result. -/
theorem split_of_flatten (parameters : List (List Char))
    (hdescriptor : descriptor.toList = '(' :: (parameters.flatten ++ ')' :: result))
    (hparameters : ∀ p ∈ parameters, isFieldDescriptor p = true ∧ ')' ∉ p)
    (hresult : result = ['V'] ∨ isFieldDescriptor result = true) :
    split descriptor = .ok ⟨parameters.map String.ofList, String.ofList result⟩ := by
  have hclosing : ∀ c ∈ parameters.flatten, (c != ')') = true := by
    intro c hc
    obtain ⟨p, hp, hc⟩ := List.mem_flatten.mp hc
    rw [bne_iff_ne]
    rintro rfl
    exact (hparameters p hp).2 hc
  have hall : parameters.all isFieldDescriptor = true :=
    List.all_eq_true.mpr fun p hp => (hparameters p hp).1
  have hguard : (result == ['V'] || isFieldDescriptor result) = true := by
    rw [Bool.or_eq_true, beq_iff_eq]
    exact hresult
  have hdrop : (parameters.flatten ++ ')' :: result).dropWhile (· != ')') = ')' :: result := by
    rw [List.dropWhile_append_of_pos hclosing]
    rfl
  have htake : (parameters.flatten ++ ')' :: result).takeWhile (· != ')') = parameters.flatten := by
    rw [List.takeWhile_append_of_pos hclosing]
    simp
  have hcut := cutParameters_flatten
    (fun p hp => isFieldDescriptor_iff.mp (hparameters p hp).1) []
  rw [List.reverse_nil, List.nil_append] at hcut
  rw [split, hdescriptor]
  simp only [hdrop, htake, hcut, ok_bind, hall, hguard, Bool.and_self, if_true]

theorem split_eq_ok {d : MethodDescriptor} (h : split descriptor = .ok d) :
    ∃ (parameters : List (List Char)) (result : List Char),
      d = ⟨parameters.map String.ofList, String.ofList result⟩ ∧
      descriptor.toList = '(' :: (parameters.flatten ++ ')' :: result) ∧
      (∀ p ∈ parameters, isFieldDescriptor p = true ∧ ')' ∉ p) ∧
      (result = ['V'] ∨ isFieldDescriptor result = true) := by
  unfold split at h
  split at h
  · rename_i s hs
    split at h
    · rename_i c result hrest
      obtain ⟨parameters, hcut, h⟩ := bind_ok_iff.mp h
      obtain ⟨hguard, h⟩ := ite_else_error_ok_iff.mp h
      cases h
      rw [Bool.and_eq_true, List.all_eq_true, Bool.or_eq_true, beq_iff_eq] at hguard
      obtain ⟨cut, heq, hflatten⟩ := cutParameters_eq_ok hcut
      rw [List.reverse_nil, List.nil_append] at heq hflatten
      subst heq
      refine ⟨parameters, result, rfl, ?_, fun p hp => ⟨hguard.1 p hp, fun hmem => ?_⟩, hguard.2⟩
      · rw [hs, ← hflatten, ← Text.eq_append_of_dropWhile hrest]
      · have hmem := List.mem_flatten_of_mem hp hmem
        rw [← hflatten] at hmem
        exact Text.not_mem_takeWhile ')' s hmem
    · cases h
  · cases h

/-- A text is split into parameters and a result exactly if it consists of them: parameters that are
field descriptors without a closing parenthesis, in parentheses, and behind them a field descriptor or
nothing. Field descriptors are the texts of types. -/
theorem split_eq_ok_iff (descriptor : String) (parameters : List String) (result : String) :
    (split descriptor = .ok ⟨parameters, result⟩ ↔
      descriptor = "(" ++ String.join parameters ++ ")" ++ result ∧
        (∀ p ∈ parameters, isFieldDescriptor p.toList = true ∧ ')' ∉ p.toList) ∧
        (result = "V" ∨ isFieldDescriptor result.toList = true)) ∧
      ∀ field : String, isFieldDescriptor field.toList = true ↔ DescribesType field.toList := by
  refine ⟨⟨?_, ?_⟩, fun field => isFieldDescriptor_iff⟩
  · intro h
    obtain ⟨pieces, rest, heq, hdescriptor, hpieces, hrest⟩ := split_eq_ok h
    cases heq
    refine ⟨?_, by simpa using hpieces, ?_⟩
    · rw [← String.toList_inj, hdescriptor]
      simp [String.toList_join, List.flatMap_def, Function.comp_def]
    · rw [String.toList_ofList]
      exact hrest.imp_left fun heq => by rw [heq]
  · rintro ⟨rfl, hparameters, hresult⟩
    have htext : ("(" ++ String.join parameters ++ ")" ++ result).toList =
        '(' :: ((parameters.map String.toList).flatten ++ ')' :: result.toList) := by
      simp [String.toList_join, List.flatMap_def]
    have hsplit := split_of_flatten (parameters.map String.toList) htext (by simpa using hparameters)
      (hresult.imp_left fun heq => by rw [heq]; rfl)
    simpa [Function.comp_def] using hsplit

end MethodDescriptor

end BeanClass
