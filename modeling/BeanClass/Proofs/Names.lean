import BeanClass.Descriptor
import BeanClass.Name
import BeanClass.Proofs.Text.Cut
import BeanClass.Text.Blank

/-! # Identifiers and internal names

An identifier holds no character with a meaning in descriptors or signatures. A dotted name becomes
an internal name with the same identifiers in it.
-/

namespace BeanClass.Name

variable {c d : Char} {s p : List Char}

theorem ne_of_isPart (hc : isPart c = true) (hd : isPart d = false) : c ≠ d := by
  rintro rfl
  rw [hc] at hd
  cases hd

theorem isPart_of_mem (h : isIdentifier p = true) (hc : c ∈ p) : isPart c = true := by
  cases p with
  | nil => cases hc
  | cons b p =>
    rw [isIdentifier, Bool.and_eq_true] at h
    rcases List.mem_cons.mp hc with rfl | hc
    · rw [isPart, h.1, Bool.true_or]
    · exact List.all_eq_true.mp h.2 c hc

theorem not_mem_of_isIdentifier (h : isIdentifier p = true) (hd : isPart d = false) : d ∉ p :=
  fun hmem => ne_of_isPart (isPart_of_mem h hmem) hd rfl

theorem ne_nil_of_isIdentifier (h : isIdentifier p = true) : p ≠ [] := by
  rintro rfl
  cases h

theorem isQualified_append (hs : isQualified s = true) (hp : isQualified p = true) :
    isQualified (s ++ '.' :: p) = true := by
  unfold isQualified at *
  rw [List.splitOn_append_cons_self, List.all_append, hs, hp]
  rfl

theorem isQualified_of_isIdentifier (h : isIdentifier p = true) : isQualified p = true := by
  rw [isQualified, List.splitOn_eq_singleton (not_mem_of_isIdentifier h (by decide))]
  simp [h]

theorem isPart_of_isBlank (h : Text.isBlank c = true) : isPart c = false := by
  have hcodes : ∀ n ∈ [0x09, 0x0A, 0x0B, 0x0C, 0x0D, 0x20, 0x85, 0xA0, 0x1680, 0x2000, 0x2001, 0x2002,
      0x2003, 0x2004, 0x2005, 0x2006, 0x2007, 0x2008, 0x2009, 0x200A, 0x2028, 0x2029, 0x202F, 0x205F,
      0x3000], isPart (Char.ofNat n) = false := by
    decide +kernel
  have hmem : c.toNat ∈ [0x09, 0x0A, 0x0B, 0x0C, 0x0D, 0x20, 0x85, 0xA0, 0x1680, 0x2000, 0x2001,
      0x2002, 0x2003, 0x2004, 0x2005, 0x2006, 0x2007, 0x2008, 0x2009, 0x200A, 0x2028, 0x2029, 0x202F,
      0x205F, 0x3000] := by
    simp only [Text.isBlank, Bool.or_eq_true, Bool.and_eq_true, decide_eq_true_eq, beq_iff_eq] at h
    simp only [List.mem_cons, List.not_mem_nil, or_false]
    omega
  rw [← Char.ofNat_toNat c]
  exact hcodes c.toNat hmem

theorem isBlank_of_isIdentifier (h : isIdentifier p = true) (hc : c ∈ p) :
    Text.isBlank c = false := by
  by_contra hblank
  exact not_mem_of_isIdentifier h (isPart_of_isBlank (Bool.not_eq_false _ |>.mp hblank)) hc

theorem isBlank_of_isQualified (h : isQualified s = true) (hc : c ∈ s) :
    Text.isBlank c = false := by
  rcases Text.mem_splitOn_of_mem '.' hc with hdot | ⟨p, hp, hc⟩
  · rw [hdot]
    decide
  · exact isBlank_of_isIdentifier (List.all_eq_true.mp h p hp) hc

/-- Identifiers separated by slashes. -/
def IsInternal (s : List Char) : Prop :=
  ∃ pieces, pieces ≠ [] ∧ (∀ p ∈ pieces, isIdentifier p = true) ∧ s = List.intercalate ['/'] pieces

theorem isInternal_internal {name : String} (h : isQualified name.toList = true) :
    IsInternal (internal name).toList := by
  refine ⟨name.toList.splitOn '.', List.splitOn_ne_nil _ _, List.all_eq_true.mp h, ?_⟩
  rw [internal, String.toList_ofList, Text.substitute_eq]

theorem IsInternal.not_mem (h : IsInternal s) (hd : isPart d = false) (hslash : d ≠ '/') : d ∉ s := by
  obtain ⟨pieces, -, hpieces, rfl⟩ := h
  intro hmem
  rcases Text.mem_intercalate hmem with rfl | ⟨p, hp, hmem⟩
  · exact hslash rfl
  · exact not_mem_of_isIdentifier (hpieces p hp) hd hmem

/-- A check of all characters that accepts those of identifiers. -/
theorem all_of_isIdentifier {f : Char → Bool} (h : isIdentifier p = true)
    (hf : ∀ c, isPart c = true → f c = true) : (!p.isEmpty && p.all f) = true := by
  rw [Bool.and_eq_true]
  constructor
  · simpa using ne_nil_of_isIdentifier h
  · exact List.all_eq_true.mpr fun c hc => hf c (isPart_of_mem h hc)

theorem isSegment_of_isIdentifier (h : isIdentifier p = true) : isSegment p = true := by
  refine all_of_isIdentifier h fun c hc => ?_
  have hdot : c ≠ '.' := ne_of_isPart hc (by decide)
  have hsemicolon : c ≠ ';' := ne_of_isPart hc (by decide)
  have hbracket : c ≠ '[' := ne_of_isPart hc (by decide)
  have hless : c ≠ '<' := ne_of_isPart hc (by decide)
  have hgreater : c ≠ '>' := ne_of_isPart hc (by decide)
  simp [hdot, hsemicolon, hbracket, hless, hgreater]

theorem IsInternal.isInternalName (h : IsInternal s) : isInternalName s = true := by
  obtain ⟨pieces, hne, hpieces, rfl⟩ := h
  have hslash : ∀ p ∈ pieces, '/' ∉ p := fun p hp => not_mem_of_isIdentifier (hpieces p hp) (by decide)
  rw [BeanClass.isInternalName, List.splitOn_intercalate _ hslash hne, List.all_eq_true]
  exact fun p hp => isSegment_of_isIdentifier (hpieces p hp)

end BeanClass.Name
