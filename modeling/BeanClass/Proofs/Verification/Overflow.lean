import BeanClass.Proofs.Verification.Calls
import BeanClass.Proofs.Verification.Crashes

/-! # Sums that overflow

No check sees a sum of slots that has wrapped around: verification crashes instead. For bodies of bounded
lengths this does not happen, but a class file may well have a method that takes too many slots.
-/

namespace BeanClass.Verification

open ConstantPool

/-! ## Calls with many arguments -/

namespace Call

theorem executes_body {descriptor : String} {pc : Nat} {depth : UInt16} {insn : Insn}
    (hvisits : Visits (context descriptor) pc depth) (hinsn : table[pc]?.join = some insn) :
    Executes (pool descriptor) body "()V" none (context descriptor) pc depth insn where
  context := ⟨⟨[], "V"⟩, table, _, by decide, by decide, rfl, rfl⟩
  visits := hvisits
  insn := hinsn

theorem hasBody_caller (descriptor : String) :
    HasBody (classFile descriptor [caller]) body "()V" false none where
  ofMethod := ⟨caller, List.mem_cons_self, utf8?_pool descriptor 4, by decide, _, List.mem_cons_self,
    utf8?_pool descriptor 5, CodeAttribute.decode_encode fits_body⟩
  stackMap := rfl

variable {descriptor : String} {d : MethodDescriptor}

theorem counts_caller (hd : MethodDescriptor.split descriptor = .ok d) :
    Counts (classFile descriptor [caller]) (1 + d.parameterSum) := by
  have hcall : Insn.Counts (context descriptor) 1 1 ⟨.invokeSpecial, 8, none⟩ (1 + d.parameterSum) :=
    .called rfl (memberDescriptor_pool descriptor) hd
  exact ⟨_, _, _, _, hasBody_caller descriptor, .run (executes_body visits_call rfl) hcall⟩

theorem effect_call_of_overflow (hd : MethodDescriptor.split descriptor = .ok d)
    (hle : 0x10000 ≤ 1 + d.parameterSum) :
    (context descriptor).effect 1 ⟨.invokeSpecial, 8, none⟩ = .error (.crash .slotOverflow) := by
  rw [effect_call, splitDescriptor_eq_ok.mpr hd, ok_bind, countSlots_eq_error.mpr ⟨rfl, hle⟩]
  rfl

/-- A call crashes verification if its arguments take too many slots. -/
theorem verify_caller_of_overflow (hd : MethodDescriptor.split descriptor = .ok d)
    (hle : 0x10000 ≤ 1 + d.parameterSum) :
    verify (classFile descriptor [caller]) = .error (.method (.code "m" (.crash .slotOverflow))) :=
  verify_caller (effect_call_of_overflow hd hle)

/-- A descriptor with `n` parameters of two slots. -/
def wide (n : Nat) : String :=
  String.ofList ('(' :: (List.replicate n 'D' ++ [')', 'V']))

theorem length_encode_wide (n : Nat) : (Text.encode (wide n).toList).length = n + 3 := by
  simp [wide, Text.encode, List.length_flatMap, Text.units, Text.unitBytes]

theorem length_encode_wide_le : (Text.encode (wide 32768).toList).length ≤ maxText := by
  rw [length_encode_wide]
  decide

theorem split_wide (n : Nat) :
    MethodDescriptor.split (wide n) = .ok ⟨List.replicate n "D", "V"⟩ := by
  have htext : (wide n).toList = '(' :: ((List.replicate n ['D']).flatten ++ ')' :: ['V']) := by
    simp [wide]
  have hparameters : ∀ p ∈ List.replicate n ['D'], isFieldDescriptor p = true ∧ ')' ∉ p := by
    intro p hp
    rw [(List.mem_replicate.mp hp).2]
    decide
  have hsplit := MethodDescriptor.split_of_flatten _ htext hparameters (Or.inl rfl)
  rwa [List.map_replicate] at hsplit

theorem parameterSum_replicate (n : Nat) :
    (MethodDescriptor.mk (List.replicate n "D") "V").parameterSum = 2 * n := by
  have hslots : (ValueKind.ofDescriptor "D").slots.toNat = 2 := rfl
  simp [MethodDescriptor.parameterSum, hslots, Nat.mul_comm]

/-- The object and 32768 parameters of two slots. -/
theorem one_add_parameterSum_wide :
    1 + (MethodDescriptor.mk (List.replicate 32768 "D") "V").parameterSum = 65537 := by
  rw [parameterSum_replicate]

theorem wide_overflows :
    0x10000 ≤ 1 + (MethodDescriptor.mk (List.replicate 32768 "D") "V").parameterSum := by
  rw [one_add_parameterSum_wide]
  decide

end Call

open Call

/-- Every sum of slots is the sum in natural numbers, or a crash if that needs more than 16 bits. So all
sums that are taken on a body fit if the body is accepted or bounded, and those of local variables always
do. Others need not: a class file with a call crashes verification whenever the arguments take too many
slots. -/
theorem sums_exact (pool : ConstantPool) (code : CodeAttribute) (descriptor : String)
    (isStatic : Bool) (stackMap : Option StackMap) :
    (∀ m n : UInt16, addSlots m n = countSlots (m.toNat + n.toNat)) ∧
    (∀ d, neededSlots d isStatic = countSlots (d.parameterSum + if isStatic then 0 else 1) ∧
      calledSlots d = countSlots (1 + d.parameterSum)) ∧
    (∀ frame, frameSlots frame = countSlots frame.stackSum) ∧
    (checkCode pool code descriptor isStatic stackMap = .ok () →
      ∀ n, BodyCounts pool code descriptor isStatic stackMap n → n < 0x10000) ∧
    (checkCode pool code descriptor isStatic stackMap = .error (.crash .slotOverflow) →
      ∃ n, BodyCounts pool code descriptor isStatic stackMap n ∧ 0x10000 ≤ n) ∧
    (Bounded pool code descriptor stackMap →
      (∀ n, BodyCounts pool code descriptor isStatic stackMap n → n < 0x10000) ∧
      checkCode pool code descriptor isStatic stackMap ≠ .error (.crash .slotOverflow)) ∧
    (∀ ctx pc depth insn kind index, Executes pool code descriptor stackMap ctx pc depth insn →
      insn.loaded? = some (kind, index) → index.toNat + kind.slots.toNat ≤ 257) ∧
    ∀ text d, MethodDescriptor.split text = .ok d → 0x10000 ≤ 1 + d.parameterSum →
      (Text.encode text.toList).length ≤ maxText →
      ∃ bytes cf, ClassFile.decode bytes = .ok cf ∧ Counts cf (1 + d.parameterSum) ∧
        verify cf = .error (.method (.code "m" (.crash .slotOverflow))) := by
  refine ⟨addSlots_eq, fun d => ⟨neededSlots_eq d isStatic, calledSlots_eq d⟩, frameSlots_eq,
    fun h n hn => counts_lt_of_checkCode h hn, exists_counts_of_checkCode,
    fun hbounded => ⟨fun n hn => hbounded.lt_of_counts hn, fun h => ?_⟩,
    fun ctx pc depth insn kind index hrun hloaded => hrun.loaded_le hloaded,
    fun text d hd hle hlength => ?_⟩
  · obtain ⟨n, hn, hle⟩ := exists_counts_of_checkCode h
    exact Nat.not_lt.mpr hle (hbounded.lt_of_counts hn)
  · exact ⟨_, _, decode_caller hlength, counts_caller hd, verify_caller_of_overflow hd hle⟩

theorem bounded_nullCheck : Bounded .empty nullCheck "()V" (some ⟨[.same 5]⟩) where
  maxStack := by decide
  descriptor := by decide
  invoked index text h := by
    obtain ⟨hkind, -⟩ := ConstantPool.memberDescriptor_eq_ok.mp h
    simp [ConstantPool.get?, ConstantPool.empty] at hkind
  frames t ht delta locals stack hframe := by
    cases ht
    cases List.mem_singleton.mp hframe

/-- The null check is accepted, and a call of a method with 32768 parameters of two slots is not. -/
theorem sums_exact_nullCheck :
    checkCode .empty nullCheck "()V" false (some ⟨[.same 5]⟩) = .ok () ∧
    BodyCounts .empty nullCheck "()V" false (some ⟨[.same 5]⟩) 1 ∧ 1 < 0x10000 ∧
    Bounded .empty nullCheck "()V" (some ⟨[.same 5]⟩) ∧
    checkCode .empty nullCheck "()V" false (some ⟨[.same 5]⟩) ≠ .error (.crash .slotOverflow) ∧
    (0 : UInt16).toNat + ValueKind.reference.slots.toNat ≤ 257 ∧
    checkCode (pool (wide 32768)) body "()V" false none = .error (.crash .slotOverflow) ∧
    (∃ n, BodyCounts (pool (wide 32768)) body "()V" false none n ∧ 0x10000 ≤ n) ∧
    ∃ bytes cf, ClassFile.decode bytes = .ok cf ∧ Counts cf 65537 ∧
      verify cf = .error (.method (.code "m" (.crash .slotOverflow))) := by
  have hok : checkCode .empty nullCheck "()V" false (some ⟨[.same 5]⟩) = .ok () := by cbv
  have hcounts : BodyCounts .empty nullCheck "()V" false (some ⟨[.same 5]⟩) 1 :=
    .needed (by decide : MethodDescriptor.split "()V" = .ok ⟨[], "V"⟩)
  have hcrash : checkCode (pool (wide 32768)) body "()V" false none = .error (.crash .slotOverflow) :=
    checkCode_body (effect_call_of_overflow (split_wide 32768) wide_overflows)
  obtain ⟨-, -, -, hfits, -, hbounded, -⟩ :=
    sums_exact .empty nullCheck "()V" false (some ⟨[.same 5]⟩)
  obtain ⟨-, -, -, -, hoverflow, -, hlocals, hwide⟩ :=
    sums_exact (pool (wide 32768)) body "()V" false none
  have hload : Executes (pool (wide 32768)) body "()V" none (context (wide 32768)) 0 0
      ⟨.loadAt .reference 0, 0, none⟩ := executes_body .start rfl
  refine ⟨hok, hcounts, hfits hok 1 hcounts, bounded_nullCheck, (hbounded bounded_nullCheck).2,
    hlocals _ _ _ _ _ _ hload rfl, hcrash, hoverflow hcrash, ?_⟩
  rw [← one_add_parameterSum_wide]
  exact hwide (wide 32768) _ (split_wide 32768) wide_overflows length_encode_wide_le

/-- A sum of slots reaches 65537. -/
theorem exists_overflowing_call : ∃ bytes cf, ClassFile.decode bytes = .ok cf ∧ Counts cf 65537 ∧
    verify cf = .error (.method (.code "m" (.crash .slotOverflow))) := by
  have hcounts := counts_caller (split_wide 32768)
  rw [one_add_parameterSum_wide] at hcounts
  exact ⟨_, _, decode_caller length_encode_wide_le, hcounts,
    verify_caller_of_overflow (split_wide 32768) wide_overflows⟩

end BeanClass.Verification
