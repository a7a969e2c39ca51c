import BeanClass.Proofs.Verification.Calls
import BeanClass.Proofs.Verification.Crashes

/-! # Descriptors that crash verification

A descriptor that cannot be cut between characters crashes verification, be it that of a method or that
of a method that is called.
-/

namespace BeanClass.Verification

open MethodDescriptor ConstantPool

namespace Call

variable {descriptor : String}

theorem checkMethods_native (h : Torn descriptor) :
    checkMethods (classFile descriptor [native]) = .error .splitsCharacter := by
  have hname : textAt (pool descriptor) 3 = .ok "m" := textAt_eq_ok.mpr (utf8?_pool _ 3)
  have htext : textAt (pool descriptor) 6 = .ok descriptor := textAt_eq_ok.mpr (utf8?_pool _ 6)
  have haccess : isMethodAccess 0x21 0x101 = true := by decide
  simp [checkMethods, checkMethod, classFile, native, haccess, hname, htext, split_eq_error_iff.mpr h]

theorem verify_native_of_torn (h : Torn descriptor) :
    verify (classFile descriptor [native]) = .error (.method .splitsCharacter) :=
  verify_classFile (checkMethods_native h)

theorem verify_caller_of_torn (h : Torn descriptor) :
    verify (classFile descriptor [caller]) = .error (.method (.code "m" (.crash .splitsCharacter))) := by
  apply verify_caller
  rw [effect_call, splitDescriptor_eq_error.mpr h]
  rfl

end Call

open Call

/-- Verification crashes on nothing but descriptors that cannot be cut between characters, which have
characters of several bytes, and sums of slots that do not fit into 16 bits. It does so on each such
descriptor that a class file can hold, be it that of a method or that of a method that is called. -/
theorem crash_of_torn (cf : ClassFile) (text : String) :
    (∀ e, verify cf = .error e → ∀ crash, e.crash? = some crash →
      (crash = .splitsCharacter ∧ ∃ other, Splits cf other ∧ Torn other) ∨
      (crash = .slotOverflow ∧ ∃ n, Counts cf n ∧ 0x10000 ≤ n)) ∧
    (MethodDescriptor.split text = .error .splitsCharacter ↔ Torn text) ∧
    (Torn text → ∃ c ∈ text.toList, 0x80 ≤ c.toNat) ∧
    (Torn text → (Text.encode text.toList).length ≤ maxText →
      (∃ bytes cf m, ClassFile.decode bytes = .ok cf ∧ m ∈ cf.methods ∧
        cf.pool.utf8? m.descriptorIndex = some text ∧
        verify cf = .error (.method .splitsCharacter)) ∧
      ∃ bytes cf index name, ClassFile.decode bytes = .ok cf ∧
        memberDescriptor cf.pool index isMethodRef = .ok text ∧
        verify cf = .error (.method (.code name (.crash .splitsCharacter)))) := by
  refine ⟨fun e he crash hcrash => ?_, split_eq_error_iff, Torn.exists_wide,
    fun htorn hlength => ⟨?_, ?_⟩⟩
  · have hfrom : ComesFrom (Splits cf) (Counts cf) e.crash? := failsAs_verify cf e he
    rw [hcrash] at hfrom
    cases hfrom with
    | torn htext htorn => exact Or.inl ⟨rfl, _, htext, htorn⟩
    | overflow hn hle => exact Or.inr ⟨rfl, _, hn, hle⟩
  · exact ⟨_, _, native, decode_native hlength, List.mem_cons_self, utf8?_pool text 6,
      verify_native_of_torn htorn⟩
  · exact ⟨_, _, 8, "m", decode_caller hlength, memberDescriptor_pool text,
      verify_caller_of_torn htorn⟩

theorem crash_of_torn_accent : Torn "([Aé)V" ∧ (∃ c ∈ "([Aé)V".toList, 0x80 ≤ c.toNat) ∧
    (∃ bytes cf m, ClassFile.decode bytes = .ok cf ∧ m ∈ cf.methods ∧
      cf.pool.utf8? m.descriptorIndex = some "([Aé)V" ∧
      verify cf = .error (.method .splitsCharacter)) ∧
    ∃ other, Splits (classFile "([Aé)V" [caller]) other ∧ Torn other := by
  have htears : Tears "[Aé".toList := .bracket (.letter (by decide) (by decide) (.wide (by decide)))
  have htorn : Torn "([Aé)V" := ⟨"[Aé".toList, ['V'], rfl, by decide, htears⟩
  obtain ⟨hcrash, -, hwide, hclass⟩ := crash_of_torn (classFile "([Aé)V" [caller]) "([Aé)V"
  refine ⟨htorn, hwide htorn, (hclass htorn (by decide)).1, ?_⟩
  rcases hcrash _ (verify_caller_of_torn htorn) .splitsCharacter rfl with ⟨-, hsplits⟩ | ⟨hne, -⟩
  · exact hsplits
  · cases hne

/-- A letter with an accent is cut in the middle. -/
theorem exists_crash : ∃ bytes cf e, ClassFile.decode bytes = .ok cf ∧ verify cf = .error e ∧
    e.crash? = some .splitsCharacter := by
  have htorn : Torn "(é)V" := ⟨['é'], ['V'], rfl, by decide, .wide (by decide)⟩
  exact ⟨_, _, _, decode_native (by decide), verify_native_of_torn htorn, rfl⟩

end BeanClass.Verification
