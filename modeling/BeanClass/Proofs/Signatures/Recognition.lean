import BeanClass.Proofs.Signatures.Reading

/-! # Signatures and their grammar

Whatever the checker reads off the front of a text is a text of the grammar, however deep calls may
nest. So exactly the signatures of the grammar are accepted.
-/

namespace BeanClass.Signature

variable {s rest : List Char} {n k : Nat}

theorem identifier?_eq_some (h : identifier? s = some rest) : ∃ p, IsIdentifier p ∧ s = p ++ rest := by
  cases s with
  | nil => cases h
  | cons c s =>
    rw [identifier?] at h
    split at h
    · rename_i hc
      cases h
      refine ⟨c :: s.takeWhile isIdentifierChar, ⟨List.cons_ne_nil _ _, ?_⟩, ?_⟩
      · intro d hd
        rcases List.mem_cons.mp hd with rfl | hd
        · exact isIdentifierChar_iff.mp hc
        · exact isIdentifierChar_iff.mp (List.mem_takeWhile_imp hd)
      · rw [List.cons_append, List.takeWhile_append_dropWhile]
    · cases h

theorem expect?_eq_some {c : Char} (h : expect? c s = some rest) : s = c :: rest := by
  cases s with
  | nil => cases h
  | cons d s =>
    rw [expect?] at h
    split at h
    · rename_i hd
      cases h
      rw [hd]
    · cases h

theorem typeVariable?_eq_some (h : typeVariable? s = some rest) :
    ∃ p, s = p ++ rest ∧ Derives .typeVariable ('T' :: p) := by
  obtain ⟨t, ht, hend⟩ := Option.bind_eq_some_iff.mp h
  obtain ⟨name, hname, rfl⟩ := identifier?_eq_some ht
  rw [expect?_eq_some hend]
  exact ⟨name ++ [';'], by simp, .typeVariable hname⟩

/-! ## Class types -/

/-- One segment and then the end of a class type. -/
theorem derives_classType_end (hs : Derives .segment s) : Derives .classType ('L' :: (s ++ [';'])) := by
  have hname := Derives.simpleType (List.cons_ne_nil _ _) (List.forall_mem_singleton.mpr hs)
  have hclass := Derives.classType (List.cons_ne_nil _ _) (List.forall_mem_singleton.mpr hname)
  simpa using hclass

/-- One segment more in front of a class type. -/
theorem derives_classType_cons {sep : Char} {t : List Char} (hs : Derives .segment s)
    (hsep : sep = '/' ∨ sep = '.') (ht : Derives .classType ('L' :: t)) :
    Derives .classType ('L' :: (s ++ sep :: t)) := by
  cases ht with
  | @classType parts hne hparts =>
    rcases hsep with rfl | rfl
    · obtain ⟨part, parts, rfl⟩ := List.exists_cons_of_ne_nil hne
      obtain ⟨hpart, hmore⟩ := List.forall_mem_cons.mp hparts
      cases hpart with
      | @simpleType segments hsegments hall =>
        have hname := Derives.simpleType (List.cons_ne_nil _ _) (List.forall_mem_cons.mpr ⟨hs, hall⟩)
        have hclass := Derives.classType (List.cons_ne_nil _ _) (List.forall_mem_cons.mpr ⟨hname, hmore⟩)
        obtain ⟨p, segments, rfl⟩ := List.exists_cons_of_ne_nil hsegments
        cases parts <;> simpa [List.intercalate_cons_cons] using hclass
    · have hname := Derives.simpleType (List.cons_ne_nil _ _) (List.forall_mem_singleton.mpr hs)
      have hclass := Derives.classType (List.cons_ne_nil _ _) (List.forall_mem_cons.mpr ⟨hname, hparts⟩)
      obtain ⟨part, parts, rfl⟩ := List.exists_cons_of_ne_nil hne
      simpa [List.intercalate_cons_cons] using hclass

/-! ## Nested phrases -/

/-- What is known of a text if its front was read, with calls nested up to a depth. -/
structure Sound (n : Nat) : Prop where
  reference : ∀ s rest, reference? n s = some rest → ∃ p, s = p ++ rest ∧ Derives .reference p
  javaType : ∀ s rest, javaType? n s = some rest → ∃ p, s = p ++ rest ∧ Derives .javaType p
  segments : ∀ s rest, segments? n s = some rest → ∃ p, s = p ++ rest ∧ Derives .classType ('L' :: p)
  segmentsEnd : ∀ s rest, segmentsEnd? n s = some rest →
    ∃ p, s = p ++ rest ∧ ∀ q, Derives .segment q → Derives .classType ('L' :: (q ++ p))
  arguments : ∀ s rest, arguments? n s = some rest →
    ∃ args : List (List Char), args ≠ [] ∧ (∀ arg ∈ args, Derives .argument arg) ∧
      s = args.flatten ++ '>' :: rest
  argumentsEnd : ∀ s rest, argumentsEnd? n s = some rest →
    ∃ args : List (List Char), (∀ arg ∈ args, Derives .argument arg) ∧ s = args.flatten ++ '>' :: rest

theorem sound_zero : Sound 0 := by
  constructor <;> intro s rest h <;> cases s <;> cases h

namespace Sound

variable (hn : Sound n)
include hn

theorem reference_succ (h : reference? (n + 1) s = some rest) :
    ∃ p, s = p ++ rest ∧ Derives .reference p := by
  cases s with
  | nil => cases h
  | cons c s =>
    rw [reference?] at h
    split_ifs at h with hclass hvariable harray
    · obtain ⟨p, rfl, hp⟩ := hn.segments _ _ h
      exact ⟨c :: p, rfl, hclass ▸ .ofClass hp⟩
    · obtain ⟨p, rfl, hp⟩ := typeVariable?_eq_some h
      exact ⟨c :: p, rfl, hvariable ▸ .ofVariable hp⟩
    · obtain ⟨p, rfl, hp⟩ := hn.javaType _ _ h
      exact ⟨c :: p, rfl, harray ▸ .array hp⟩

theorem javaType_succ (h : javaType? (n + 1) s = some rest) : ∃ p, s = p ++ rest ∧ Derives .javaType p := by
  cases s with
  | nil => cases h
  | cons c s =>
    rw [javaType?] at h
    split_ifs at h with hbase
    · cases h
      exact ⟨[c], rfl, .base (isBaseType_iff.mp hbase)⟩
    · obtain ⟨p, hp, hderives⟩ := hn.reference _ _ h
      exact ⟨p, hp, .ofReference hderives⟩

theorem segments_succ (h : segments? (n + 1) s = some rest) :
    ∃ p, s = p ++ rest ∧ Derives .classType ('L' :: p) := by
  rw [segments?] at h
  split at h
  · cases h
  · rename_i hread
    obtain ⟨name, hname, rfl⟩ := identifier?_eq_some hread
    split at h
    · cases h
    · rename_i hread'
      obtain ⟨args, hne, hargs, rfl⟩ := hn.arguments _ _ hread'
      obtain ⟨p, rfl, hp⟩ := hn.segmentsEnd _ _ h
      exact ⟨_, by simp, hp _ (.applied hname hne hargs)⟩
  · rename_i hread
    obtain ⟨name, hname, rfl⟩ := identifier?_eq_some hread
    obtain ⟨p, rfl, hp⟩ := hn.segmentsEnd _ _ h
    exact ⟨name ++ p, by simp, hp name (.plain hname)⟩

theorem segmentsEnd_succ (h : segmentsEnd? (n + 1) s = some rest) :
    ∃ p, s = p ++ rest ∧ ∀ q, Derives .segment q → Derives .classType ('L' :: (q ++ p)) := by
  cases s with
  | nil => cases h
  | cons c s =>
    rw [segmentsEnd?] at h
    split_ifs at h with hsep hend
    · obtain ⟨p, rfl, hp⟩ := hn.segments _ _ h
      exact ⟨c :: p, rfl, fun q hq => derives_classType_cons hq hsep hp⟩
    · cases h
      exact ⟨[c], rfl, fun q hq => hend ▸ derives_classType_end hq⟩

theorem arguments_succ (h : arguments? (n + 1) s = some rest) :
    ∃ args : List (List Char), args ≠ [] ∧ (∀ arg ∈ args, Derives .argument arg) ∧
      s = args.flatten ++ '>' :: rest := by
  cases s with
  | nil => cases h
  | cons c s =>
    rw [arguments?] at h
    split at h
    · rename_i hstar
      obtain ⟨args, hargs, rfl⟩ := hn.argumentsEnd _ _ h
      exact ⟨[c] :: args, List.cons_ne_nil _ _,
        List.forall_mem_cons.mpr ⟨hstar ▸ .wildcard, hargs⟩, rfl⟩
    · split at h
      · cases h
      · rename_i t hread
        obtain ⟨args, hargs, rfl⟩ := hn.argumentsEnd _ _ h
        split at hread
        · rename_i hsign
          obtain ⟨p, rfl, hp⟩ := hn.reference _ _ hread
          have hsigned := Derives.bounded (by simpa using hsign) hp
          exact ⟨(c :: p) :: args, List.cons_ne_nil _ _, List.forall_mem_cons.mpr ⟨hsigned, hargs⟩,
            by simp⟩
        · obtain ⟨p, heq, hp⟩ := hn.reference _ _ hread
          exact ⟨p :: args, List.cons_ne_nil _ _, List.forall_mem_cons.mpr ⟨.exact hp, hargs⟩,
            by simp [heq]⟩

theorem argumentsEnd_succ (h : argumentsEnd? (n + 1) s = some rest) :
    ∃ args : List (List Char), (∀ arg ∈ args, Derives .argument arg) ∧ s = args.flatten ++ '>' :: rest := by
  cases s with
  | nil => cases h
  | cons c s =>
    rw [argumentsEnd?] at h
    split_ifs at h with hclose
    · cases h
      exact ⟨[], List.forall_mem_nil _, by rw [hclose]; rfl⟩
    · obtain ⟨args, -, hargs, heq⟩ := hn.arguments _ _ h
      exact ⟨args, hargs, heq⟩

theorem succ : Sound (n + 1) where
  reference _ _ := hn.reference_succ
  javaType _ _ := hn.javaType_succ
  segments _ _ := hn.segments_succ
  segmentsEnd _ _ := hn.segmentsEnd_succ
  arguments _ _ := hn.arguments_succ
  argumentsEnd _ _ := hn.argumentsEnd_succ

end Sound

theorem sound (n : Nat) : Sound n := by
  induction n with
  | zero => exact sound_zero
  | succ n ih => exact ih.succ

theorem classType?_eq_some (h : classType? n s = some rest) : ∃ p, s = p ++ rest ∧ Derives .classType p := by
  obtain ⟨t, ht, h⟩ := Option.bind_eq_some_iff.mp h
  obtain ⟨p, rfl, hp⟩ := (sound n).segments _ _ h
  exact ⟨'L' :: p, expect?_eq_some ht, hp⟩

/-! ## Type parameters -/

/-- Only the first character of what follows matters. -/
theorem IsParameter.congr {next other : List Char} (h : IsParameter next s)
    (hhead : next.head? = other.head?) : IsParameter other s := by
  cases h with
  | bounded hname hfirst hbounds => exact .bounded hname hfirst hbounds
  | unbounded hname hbounds hlook =>
    rw [List.head?_append, hhead, ← List.head?_append] at hlook
    exact .unbounded hname hbounds hlook

theorem bounds?_eq_some (h : bounds? n k s = some rest) :
    ∃ bounds : List (List Char), (∀ bound ∈ bounds, Derives .reference bound) ∧
      s = bounds.flatMap (':' :: ·) ++ rest := by
  induction k generalizing s with
  | zero => cases s <;> cases h
  | succ k ih =>
    rw [bounds?.eq_def] at h
    split at h
    · cases h
    · rename_i t heq
      cases heq
      obtain ⟨u, hu, hmore⟩ := Option.bind_eq_some_iff.mp h
      obtain ⟨bound, rfl, hbound⟩ := (sound n).reference _ _ hu
      obtain ⟨bounds, hbounds, rfl⟩ := ih hmore
      exact ⟨bound :: bounds, List.forall_mem_cons.mpr ⟨hbound, hbounds⟩, by simp⟩
    · cases h
      exact ⟨[], List.forall_mem_nil _, rfl⟩

theorem parameter?_eq_some (h : parameter? n k s = some rest) : ∃ p, s = p ++ rest ∧ IsParameter rest p := by
  rw [parameter?] at h
  obtain ⟨t, ht, hcolon⟩ := Option.bind_eq_some_iff.mp h
  obtain ⟨u, hu, hfirst⟩ := Option.bind_eq_some_iff.mp hcolon
  obtain ⟨name, hname, rfl⟩ := identifier?_eq_some ht
  obtain rfl := expect?_eq_some hu
  dsimp only at hfirst
  split at hfirst
  · rename_i hlook
    obtain ⟨bounds, hbounds, rfl⟩ := bounds?_eq_some hfirst
    exact ⟨_, by simp, .unbounded hname hbounds (by simpa using hlook)⟩
  · obtain ⟨v, hv, hbounds⟩ := Option.bind_eq_some_iff.mp hfirst
    obtain ⟨first, rfl, hreference⟩ := (sound n).reference _ _ hv
    obtain ⟨bounds, hderives, rfl⟩ := bounds?_eq_some hbounds
    exact ⟨_, by simp, .bounded hname hreference hderives⟩

theorem parameters?_eq_some (h : parameters? n k s = some rest) :
    ∃ p, s = p ++ rest ∧ IsParameterList p := by
  induction k generalizing s with
  | zero => cases h
  | succ k ih =>
    simp only [parameters?, Option.bind_eq_bind, Option.bind_eq_some_iff] at h
    obtain ⟨t, ht, h⟩ := h
    obtain ⟨p, rfl, hp⟩ := parameter?_eq_some ht
    split at h
    · rename_i hclose
      obtain ⟨t, rfl⟩ := List.head?_eq_some_iff.mp hclose
      cases h
      exact ⟨p ++ ['>'], by simp, .last (hp.congr rfl)⟩
    · obtain ⟨q, rfl, hq⟩ := ih h
      obtain ⟨c, u, rfl, -⟩ := hq.head
      exact ⟨p ++ c :: u, by simp, .cons (hp.congr rfl) hq⟩

theorem optionalParameters?_eq_some (h : optionalParameters? n s = some rest) :
    ∃ p, s = p ++ rest ∧ IsOptionalParameters p := by
  unfold optionalParameters? at h
  split at h
  · obtain ⟨p, rfl, hp⟩ := parameters?_eq_some h
    exact ⟨'<' :: p, rfl, Or.inr ⟨p, rfl, hp⟩⟩
  · cases h
    exact ⟨[], rfl, Or.inl rfl⟩

/-! ## Whole signatures -/

theorem exists_classTypes (h : classTypes n k s = true) :
    ∃ types : List (List Char), types ≠ [] ∧ (∀ t ∈ types, Derives .classType t) ∧ s = types.flatten := by
  induction k generalizing s with
  | zero => cases h
  | succ k ih =>
    rw [classTypes] at h
    split at h
    · cases h
    · rename_i hread
      obtain ⟨t, rfl, ht⟩ := classType?_eq_some hread
      exact ⟨[t], List.cons_ne_nil _ _, List.forall_mem_singleton.mpr ht, by simp⟩
    · rename_i hread
      obtain ⟨t, rfl, ht⟩ := classType?_eq_some hread
      obtain ⟨types, -, htypes, rfl⟩ := ih h
      exact ⟨t :: types, List.cons_ne_nil _ _, List.forall_mem_cons.mpr ⟨ht, htypes⟩, by simp⟩

theorem methodParameters?_eq_some (h : methodParameters? n k s = some rest) :
    ∃ types : List (List Char), (∀ t ∈ types, Derives .javaType t) ∧ s = types.flatten ++ ')' :: rest := by
  induction k generalizing s with
  | zero => cases h
  | succ k ih =>
    rw [methodParameters?.eq_def] at h
    split at h
    · cases h
    · cases h
      exact ⟨[], List.forall_mem_nil _, rfl⟩
    · rename_i heq _
      cases heq
      obtain ⟨u, hu, hmore⟩ := Option.bind_eq_some_iff.mp h
      obtain ⟨t, rfl, ht⟩ := (sound n).javaType _ _ hu
      obtain ⟨types, htypes, rfl⟩ := ih hmore
      exact ⟨t :: types, List.forall_mem_cons.mpr ⟨ht, htypes⟩, by simp⟩

theorem exists_throws (h : throws n k s = true) :
    ∃ exceptions : List (List Char),
      (∀ e ∈ exceptions, Derives .classType e ∨ Derives .typeVariable e) ∧
      s = exceptions.flatMap ('^' :: ·) := by
  induction k generalizing s with
  | zero => cases h
  | succ k ih =>
    rw [throws.eq_def] at h
    split at h
    · cases h
    · exact ⟨[], List.forall_mem_nil _, rfl⟩
    · rename_i t heq
      cases heq
      split at h
      · cases h
      · rename_i u hread
        obtain ⟨exceptions, hexceptions, rfl⟩ := ih h
        split at hread
        · rename_i hvariable
          obtain ⟨t, rfl⟩ := List.head?_eq_some_iff.mp hvariable
          obtain ⟨p, hp, hderives⟩ := typeVariable?_eq_some hread
          rw [List.tail_cons] at hp
          rw [hp]
          exact ⟨('T' :: p) :: exceptions, List.forall_mem_cons.mpr ⟨Or.inr hderives, hexceptions⟩,
            by simp⟩
        · obtain ⟨p, rfl, hp⟩ := classType?_eq_some hread
          exact ⟨p :: exceptions, List.forall_mem_cons.mpr ⟨Or.inl hp, hexceptions⟩, by simp⟩
    · cases h

theorem isClassSignature_iff : isClassSignature s = true ↔ IsClassSig s := by
  refine ⟨fun h => ?_, isClassSignature_of_isClassSig⟩
  rw [isClassSignature] at h
  split at h
  · cases h
  · rename_i rest hread
    obtain ⟨parameters, rfl, hparameters⟩ := optionalParameters?_eq_some hread
    obtain ⟨types, hne, htypes, rfl⟩ := exists_classTypes h
    exact .mk hparameters hne htypes

theorem isFieldSignature_iff : isFieldSignature s = true ↔ Derives .javaType s := by
  rw [isFieldSignature, beq_iff_eq]
  constructor
  · intro h
    obtain ⟨p, rfl, hp⟩ := (sound _).javaType _ _ h
    rwa [List.append_nil]
  · intro h
    have hread := h.isType (depth s) [] (by unfold depth; omega)
    rwa [List.append_nil] at hread

theorem isMethodSignature_iff : isMethodSignature s = true ↔ IsMethodSig s := by
  constructor
  · intro h
    simp only [isMethodSignature] at h
    split at h
    · cases h
    · rename_i rest hread
      obtain ⟨exceptions, hexceptions, rfl⟩ := exists_throws h
      simp only [Option.bind_eq_bind, Option.bind_eq_some_iff] at hread
      obtain ⟨t, ht, u, hu, v, hv, hresult⟩ := hread
      obtain ⟨parameters, rfl, hparameters⟩ := optionalParameters?_eq_some ht
      obtain ⟨types, htypes, rfl⟩ := methodParameters?_eq_some hv
      rw [expect?_eq_some hu]
      split at hresult
      · rename_i hvoid
        obtain ⟨v, rfl⟩ := List.head?_eq_some_iff.mp hvoid
        cases hresult
        exact @IsMethodSig.mk _ ['V'] _ _ hparameters htypes (Or.inl rfl) hexceptions
      · obtain ⟨result, rfl, hjava⟩ := (sound _).javaType _ _ hresult
        exact .mk hparameters htypes (Or.inr hjava) hexceptions
  · rintro ⟨hparameters, htypes, hresult, hexceptions⟩
    exact isMethodSignature_of_types hparameters (fun t ht => (htypes t ht).isType)
      (hresult.imp_right Derives.isType) hexceptions

/-- Exactly the signatures of the grammar are accepted. -/
theorem isSignature_iff_derives (s : List Char) :
    (isClassSignature s = true ↔ IsClassSig s) ∧ (isFieldSignature s = true ↔ Derives .javaType s) ∧
      (isMethodSignature s = true ↔ IsMethodSig s) :=
  ⟨isClassSignature_iff, isFieldSignature_iff, isMethodSignature_iff⟩

end BeanClass.Signature
