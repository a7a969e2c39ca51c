import BeanClass.Proofs.Descriptors.Grammar
import BeanClass.Proofs.Names

/-! # Descriptors of fields and accessors

A field type that a class can declare is a base type or a class with identifiers in its name, behind at
most 255 brackets. Its descriptor is accepted on its own, and as the parameter or the result of an
accessor it is found again.
-/

namespace BeanClass

open Name

namespace ValueKind

theorem one_le_slots (kind : ValueKind) : 1 ≤ kind.slots.toNat := by
  cases kind <;> decide

theorem slots_le_two (kind : ValueKind) : kind.slots.toNat ≤ 2 := by
  cases kind <;> decide

theorem toNat_slots_succ (kind : ValueKind) : (kind.slots + 1).toNat = kind.slots.toNat + 1 := by
  cases kind <;> decide

end ValueKind

/-- A type other than an array, whose class has a name of identifiers. -/
inductive IsElement : List Char → Prop
  | base {c : Char} : isBaseType c = true → IsElement [c]
  | ofClass {name : List Char} : IsInternal name → IsElement ('L' :: (name ++ [';']))

def IsFieldType (s : List Char) : Prop :=
  ∃ dims ≤ 255, ∃ element, IsElement element ∧ s = List.replicate dims '[' ++ element

variable {s element : List Char}

theorem ne_of_isBaseType {c d : Char} (h : isBaseType c = true) (hd : isBaseType d = false) :
    c ≠ d := by
  rintro rfl
  rw [h] at hd
  cases hd

theorem IsElement.describes (h : IsElement element) : DescribesElement element := by
  cases h with
  | base hbase => exact .base (isBaseType_iff.mp hbase)
  | ofClass hname => exact .ofClass (isInternalName_iff.mp hname.isInternalName)

theorem IsElement.not_mem (h : IsElement element) {d : Char} (hpart : isPart d = false)
    (hd : d ∉ ['/', ';']) : d ∉ element := by
  simp only [List.mem_cons, List.not_mem_nil, or_false, not_or] at hd
  have hL : d ≠ 'L' := by rintro rfl; exact absurd hpart (by decide)
  cases h with
  | base hbase =>
    rw [List.mem_singleton]
    rintro rfl
    have hmem := isBaseType_iff.mp hbase
    simp only [List.mem_cons, List.not_mem_nil, or_false] at hmem
    rcases hmem with rfl | rfl | rfl | rfl | rfl | rfl | rfl | rfl <;> exact absurd hpart (by decide)
  | ofClass hname =>
    have hname := hname.not_mem hpart hd.1
    simp [hL, hname, hd.2]

theorem IsFieldType.isFieldDescriptor (h : IsFieldType s) : isFieldDescriptor s = true := by
  obtain ⟨dims, hdims, element, helement, rfl⟩ := h
  exact isFieldDescriptor_iff.mpr ⟨dims, hdims, element, helement.describes, rfl⟩

theorem IsFieldType.not_mem_closing (h : IsFieldType s) : ')' ∉ s := by
  obtain ⟨dims, -, element, helement, rfl⟩ := h
  simp [helement.not_mem (d := ')') (by decide) (by decide)]

theorem IsFieldType.ne_void (h : IsFieldType s) : s ≠ ['V'] := by
  rintro rfl
  exact absurd h.isFieldDescriptor (by decide)

namespace MethodDescriptor

theorem split_ofGetter {field : String} (h : IsFieldType field.toList) :
    split (ofGetter field) = .ok ⟨[], field⟩ := by
  have htext : (ofGetter field).toList = '(' :: ([].flatten ++ ')' :: field.toList) := by
    simp [ofGetter]
  have hsplit := split_of_flatten [] htext (by simp) (Or.inr h.isFieldDescriptor)
  rwa [String.ofList_toList] at hsplit

theorem split_ofSetter {field : String} (h : IsFieldType field.toList) :
    split (ofSetter field) = .ok ⟨[field], "V"⟩ := by
  have htext : (ofSetter field).toList = '(' :: ([field.toList].flatten ++ ')' :: ['V']) := by
    simp [ofSetter]
  have hsplit := split_of_flatten [field.toList] htext
    (by simpa using ⟨h.isFieldDescriptor, h.not_mem_closing⟩) (Or.inl rfl)
  simpa using hsplit

end MethodDescriptor

end BeanClass
