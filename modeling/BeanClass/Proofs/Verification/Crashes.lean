import BeanClass.Proofs.Descriptors.Torn
import BeanClass.Proofs.Verification.Slots
import BeanClass.Verification.ClassFile

/-! # Crashes of verification

Verification cuts the descriptors of methods and of the methods that they call, and it counts slots. It
crashes where a descriptor cannot be cut between characters or a number of slots does not fit into
16 bits, and at nothing else.
-/

namespace BeanClass.Verification

open MethodDescriptor ConstantPool

/-- A crash, if there is one, comes from one of the given texts, which cannot be cut, or from one of
the given sums, which does not fit into 16 bits. -/
inductive ComesFrom (texts : String → Prop) (sums : Nat → Prop) : Option Crash → Prop
  | none : ComesFrom texts sums none
  | torn {text : String} : texts text → Torn text → ComesFrom texts sums (some .splitsCharacter)
  | overflow {n : Nat} : sums n → 0x10000 ≤ n → ComesFrom texts sums (some .slotOverflow)

theorem ComesFrom.mono {texts texts' : String → Prop} {sums sums' : Nat → Prop} {crash : Option Crash}
    (h : ComesFrom texts sums crash) (htexts : ∀ text, texts text → texts' text)
    (hsums : ∀ n, sums n → sums' n) : ComesFrom texts' sums' crash := by
  cases h with
  | none => exact .none
  | torn htext htorn => exact .torn (htexts _ htext) htorn
  | overflow hn hle => exact .overflow (hsums _ hn) hle

/-- The descriptor that verification cuts for an instruction, if that is a call. -/
def Insn.Splits (pool : ConstantPool) (insn : Insn) (text : String) : Prop :=
  insn.opcode = .invokeSpecial ∧ memberDescriptor pool insn.operand isMethodRef = .ok text

/-- The descriptors that verification cuts for a method body: its own, and those of the calls that are
run. -/
inductive BodySplits (pool : ConstantPool) (code : CodeAttribute) (descriptor : String)
    (stackMap : Option StackMap) : String → Prop
  | own : BodySplits pool code descriptor stackMap descriptor
  | called {ctx : CodeContext} {pc : Nat} {depth : UInt16} {insn : Insn} {text : String} :
    Executes pool code descriptor stackMap ctx pc depth insn → insn.Splits pool text →
    BodySplits pool code descriptor stackMap text

/-- A method of the class file has a body, which is verified with the descriptor and the stack map. -/
structure HasBody (cf : ClassFile) (code : CodeAttribute) (descriptor : String) (isStatic : Bool)
    (stackMap : Option StackMap) : Prop where
  ofMethod : ∃ m ∈ cf.methods, cf.pool.utf8? m.descriptorIndex = some descriptor ∧
    AccessFlag.isStatic.isIn m.access = isStatic ∧
    ∃ a ∈ m.attributes, cf.pool.utf8? a.nameIndex = some "Code" ∧
      CodeAttribute.decode a.info = .ok code
  stackMap : stackMapOf cf.pool code = .ok stackMap

/-- The descriptors that verification cuts: those of the methods, and what it cuts for their bodies. -/
inductive Splits (cf : ClassFile) : String → Prop
  | ofMethod {m : Member} {text : String} : m ∈ cf.methods →
    cf.pool.utf8? m.descriptorIndex = some text → Splits cf text
  | ofBody {code : CodeAttribute} {descriptor : String} {isStatic : Bool} {stackMap : Option StackMap}
    {text : String} : HasBody cf code descriptor isStatic stackMap →
    BodySplits cf.pool code descriptor stackMap text → Splits cf text

/-- The sums of slots that verification takes on the bodies of methods. -/
def Counts (cf : ClassFile) (n : Nat) : Prop :=
  ∃ code descriptor isStatic stackMap, HasBody cf code descriptor isStatic stackMap ∧
    BodyCounts cf.pool code descriptor isStatic stackMap n

variable {pool : ConstantPool} {code : CodeAttribute} {descriptor : String} {isStatic : Bool}
  {stackMap : Option StackMap} {ctx : CodeContext} {pc : Nat} {depth : UInt16} {insn : Insn}
  {texts : String → Prop} {sums : Nat → Prop} {cf : ClassFile} {m : Member}

/-! ## Instructions -/

theorem splitDescriptor_eq_error :
    splitDescriptor descriptor = .error (.crash .splitsCharacter) ↔ Torn descriptor := by
  rw [← split_eq_error_iff, splitDescriptor]
  rcases MethodDescriptor.split descriptor with (_ | _) | d <;> simp

theorem failsAs_splitDescriptor (h : texts descriptor) :
    FailsAs (fun e => ComesFrom texts sums e.crash?) (splitDescriptor descriptor) := by
  intro e he
  have herror := he
  unfold splitDescriptor at herror
  split at herror
  · cases herror
  · cases herror
    exact .none
  · cases herror
    exact .torn h (splitDescriptor_eq_error.mp he)

theorem failsAs_countSlots {total : Nat} (h : sums total) :
    FailsAs (fun e => ComesFrom texts sums e.crash?) (countSlots total) := by
  intro e he
  obtain ⟨rfl, hle⟩ := countSlots_eq_error.mp he
  exact .overflow h hle

theorem failsAs_memberDescriptor (pool : ConstantPool) (index : UInt16) (isKind : Constant → Bool) :
    FailsAs (fun e => ComesFrom texts sums e.crash?) (memberDescriptor pool index isKind) := by
  unfold memberDescriptor
  dsimp only
  split
  · split
    · exact failsAs_ok _ _
    · exact failsAs_error .none
  · exact failsAs_error .none

theorem failsAs_loadEffect {kind : ValueKind} {index : UInt16}
    (h : sums (index.toNat + kind.slots.toNat)) :
    FailsAs (fun e => ComesFrom texts sums e.crash?) (ctx.loadEffect pc kind index) := by
  unfold CodeContext.loadEffect
  rw [addSlots_eq]
  exact (failsAs_countSlots h).bind fun _ _ => failsAs_guard .none fun _ => failsAs_ok _ _

theorem failsAs_effect (ctx : CodeContext) (pc : Nat) (depth : UInt16) (insn : Insn) :
    FailsAs (fun e => ComesFrom (insn.Splits ctx.pool) (insn.Counts ctx pc depth) e.crash?)
      (ctx.effect pc insn) := by
  unfold CodeContext.effect
  split
  · rename_i hopcode
    exact failsAs_loadEffect (.loaded (by simp [Insn.loaded?, hopcode]))
  · rename_i hopcode
    exact failsAs_loadEffect (.loaded (by simp [Insn.loaded?, hopcode]))
  · exact failsAs_ok _ _
  · split
    · exact failsAs_ok _ _
    · exact failsAs_error .none
  · exact failsAs_ok _ _
  · exact failsAs_ok _ _
  · exact failsAs_ok _ _
  · exact failsAs_ok _ _
  · exact (failsAs_memberDescriptor _ _ _).bind fun _ _ => failsAs_ok _ _
  · exact (failsAs_memberDescriptor _ _ _).bind fun _ _ => failsAs_ok _ _
  · rename_i hopcode
    refine (failsAs_memberDescriptor _ _ _).bind fun text htext => ?_
    refine (failsAs_splitDescriptor ⟨hopcode, htext⟩).bind fun d hd => ?_
    rw [calledSlots_eq]
    have hcalled : insn.Counts ctx pc depth (1 + d.parameterSum) :=
      .called hopcode htext (splitDescriptor_eq_ok.mp hd)
    exact (failsAs_countSlots hcalled).bind fun _ _ => failsAs_ok _ _

theorem failsAs_depthAfter (ctx : CodeContext) (pc : Nat) (depth : UInt16) (insn : Insn) :
    FailsAs (fun e => ComesFrom (insn.Splits ctx.pool) (insn.Counts ctx pc depth) e.crash?)
      (ctx.depthAfter pc depth insn) := by
  refine (failsAs_effect ctx pc depth insn).bind fun ⟨pop, push⟩ heffect => ?_
  refine failsAs_guard .none fun hpop => ?_
  rw [UInt16.not_lt] at hpop
  have hpushed := Insn.Counts.pushed heffect hpop
  rw [← UInt16.toNat_sub_of_le _ _ hpop] at hpushed
  rw [addSlots_eq]
  exact (failsAs_countSlots hpushed).bind fun _ _ => failsAs_guard .none fun _ => failsAs_ok _ _

theorem failsAs_successors (ctx : CodeContext) (pc : Nat) (insn : Insn) (after : UInt16) :
    FailsAs (fun e => ComesFrom texts sums e.crash?) (ctx.successors pc insn after) := by
  unfold CodeContext.successors
  split
  · exact failsAs_require .none
  · exact failsAs_ok _ _
  · split
    · exact failsAs_ok _ _
    · split
      · exact failsAs_ok _ _
      · exact failsAs_error .none

theorem failsAs_step (h : ∀ insn, ctx.table[pc]?.join = some insn →
      (∀ text, insn.Splits ctx.pool text → texts text) ∧ ∀ n, insn.Counts ctx pc depth n → sums n) :
    FailsAs (fun e => ComesFrom texts sums e.crash?) (ctx.step pc depth) := by
  have hrun : ∀ insn, ctx.table[pc]?.join = some insn →
      FailsAs (fun e => ComesFrom texts sums e.crash?)
        (ctx.depthAfter pc depth insn >>= ctx.successors pc insn) := by
    intro insn hinsn
    obtain ⟨htexts, hsums⟩ := h insn hinsn
    exact ((failsAs_depthAfter ctx pc depth insn).mono fun e he => he.mono htexts hsums).bind
      fun after _ => failsAs_successors ctx pc insn after
  unfold CodeContext.step
  split
  · exact failsAs_error .none
  · exact hrun _ ‹_›
  · split
    · exact hrun _ ‹_›
    · exact failsAs_error .none

/-! ## Bodies -/

theorem failsAs_decodeCode (bytes : List UInt8) :
    FailsAs (fun e => ComesFrom texts sums e.crash?) (decodeCode bytes) := by
  have hfrom : ∀ pc table, FailsAs (fun e => ComesFrom texts sums e.crash?)
      (decodeFrom pc table bytes) := by
    intro pc table
    fun_induction decodeFrom pc table bytes with
    | case1 => exact failsAs_ok _ _
    | case2 | case5 | case7 => exact failsAs_error .none
    | case3 | case4 | case6 => assumption
  unfold decodeCode
  split
  · exact failsAs_error .none
  · refine (hfrom _ _).bind fun table _ => ?_
    split
    · exact failsAs_error .none
    · exact failsAs_ok _ _

theorem failsAs_enterFrames {table : CodeTable} {depths : FrameDepths}
    {frames : List (Nat × StackFrame)} (h : ∀ entry ∈ frames, sums entry.2.stackSum) :
    FailsAs (fun e => ComesFrom texts sums e.crash?) (enterFrames table depths frames) := by
  fun_induction enterFrames table depths frames with
  | case1 => exact failsAs_ok _ _
  | case2 depths offset frame frames hinsn slots hslots ih =>
    exact ih fun entry hentry => h entry (List.mem_cons_of_mem _ hentry)
  | case3 depths offset frame frames hinsn e he =>
    rw [frameSlots_eq] at he
    exact failsAs_error (failsAs_countSlots (h _ List.mem_cons_self) e he)
  | case4 => exact failsAs_error .none

theorem failsAs_frameDepths (table : CodeTable)
    (h : ∀ t ∈ stackMap, ∀ frame ∈ t.frames, sums frame.stackSum) :
    FailsAs (fun e => ComesFrom texts sums e.crash?) (frameDepths table stackMap) := by
  unfold frameDepths
  split
  · exact failsAs_ok _ _
  · exact failsAs_enterFrames fun entry hentry => h _ rfl _ (List.of_mem_zip hentry).2

theorem failsAs_checkCode (pool : ConstantPool) (code : CodeAttribute) (descriptor : String)
    (isStatic : Bool) (stackMap : Option StackMap) :
    FailsAs (fun e => ComesFrom (BodySplits pool code descriptor stackMap)
      (BodyCounts pool code descriptor isStatic stackMap) e.crash?)
      (checkCode pool code descriptor isStatic stackMap) := by
  refine (failsAs_splitDescriptor .own).bind fun d hd => ?_
  rw [splitDescriptor_eq_ok] at hd
  rw [neededSlots_eq]
  refine (failsAs_countSlots (.needed hd)).bind fun needed _ => failsAs_guard .none fun _ => ?_
  refine (failsAs_decodeCode _).bind fun table htable => ?_
  refine (failsAs_frameDepths table fun t ht frame hframe => .declared ht hframe).bind
    fun frames hframes => ?_
  refine failsAs_walk (fun _ _ _ => .none) .none (fun pc depth hvisits => failsAs_step fun insn hinsn =>
    ?_) (List.forall_mem_singleton.mpr .start)
  have hrun : Executes pool code descriptor stackMap
      ⟨pool, code.maxStack, code.maxLocals, resultKind d.result, table, frames⟩ pc depth insn :=
    ⟨⟨d, table, frames, hd, htable, hframes, rfl⟩, hvisits, hinsn⟩
  exact ⟨fun text htext => .called hrun htext, fun n hn => .run hrun hn⟩

theorem exists_counts_of_checkCode
    (h : checkCode pool code descriptor isStatic stackMap = .error (.crash .slotOverflow)) :
    ∃ n, BodyCounts pool code descriptor isStatic stackMap n ∧ 0x10000 ≤ n := by
  cases failsAs_checkCode _ _ _ _ _ _ h with
  | overflow hn hle => exact ⟨_, hn, hle⟩

/-! ## Methods -/

theorem failsAs_stackMapOf (pool : ConstantPool) (code : CodeAttribute) :
    FailsAs (fun e => ComesFrom texts sums e.crash?) (stackMapOf pool code) := by
  unfold stackMapOf
  split
  · exact failsAs_ok _ _
  · exact FailsAs.bind (failsAs_mapError fun _ _ => .none) fun _ _ => failsAs_ok _ _
  · exact failsAs_error .none

theorem failsAs_checkBody {access : UInt16} {payload : List UInt8} (name : String)
    (h : ∀ code stackMap, CodeAttribute.decode payload = .ok code → stackMapOf pool code = .ok stackMap →
      (∀ text, BodySplits pool code descriptor stackMap text → texts text) ∧
      ∀ n, BodyCounts pool code descriptor (AccessFlag.isStatic.isIn access) stackMap n → sums n) :
    FailsAs (fun e => ComesFrom texts sums e.crash?)
      (checkBody pool access name descriptor payload) := by
  refine FailsAs.bind (failsAs_mapError fun _ _ => .none) fun code hcode => ?_
  refine (failsAs_stackMapOf pool code).bind fun stackMap hmap => failsAs_mapError ?_
  obtain ⟨htexts, hsums⟩ := h code stackMap (mapError_ok_iff.mp hcode) hmap
  exact (failsAs_checkCode _ _ _ _ _).mono fun e he => he.mono htexts hsums

theorem failsAs_checkMethodAttribute {a : RawAttribute} {access : UInt16} (name : String)
    (h : pool.utf8? a.nameIndex = some "Code" → ∀ code stackMap,
      CodeAttribute.decode a.info = .ok code → stackMapOf pool code = .ok stackMap →
      (∀ text, BodySplits pool code descriptor stackMap text → texts text) ∧
      ∀ n, BodyCounts pool code descriptor (AccessFlag.isStatic.isIn access) stackMap n → sums n)
    (seen : List String) :
    FailsAs (fun e => ComesFrom texts sums e.crash?)
      (checkMethodAttribute pool access name descriptor seen a) := by
  refine FailsAs.bind (failsAs_mapError fun _ _ => .none) fun found hfound => ?_
  split
  · rename_i hname
    have hutf8 : pool.utf8? a.nameIndex = some "Code" :=
      hname ▸ textAt_eq_ok.mp (mapError_ok_iff.mp hfound)
    refine failsAs_guard .none fun _ => ?_
    exact (failsAs_checkBody name (h hutf8)).bind fun _ _ => failsAs_ok _ _
  · split
    · split
      · exact failsAs_error .none
      · split
        · exact failsAs_error .none
        · exact FailsAs.bind (failsAs_mapError fun _ _ => .none) fun _ _ => failsAs_require .none
    · exact failsAs_guard .none fun _ => failsAs_ok _ _

theorem failsAs_checkHasCode (access : UInt16) (hasCode : Bool) :
    FailsAs (fun e => ComesFrom texts sums e.crash?) (checkHasCode access hasCode) := by
  unfold checkHasCode
  split
  · exact failsAs_guard .none fun _ => failsAs_ok _ _
  · exact failsAs_require .none

theorem failsAs_checkMethod (hm : m ∈ cf.methods) (seen : MemberNames) :
    FailsAs (fun e => ComesFrom (Splits cf) (Counts cf) e.crash?) (checkMethod cf seen m) := by
  unfold checkMethod
  split
  · exact failsAs_error .none
  · refine FailsAs.bind (failsAs_mapError fun _ _ => .none) fun name _ => ?_
    refine FailsAs.bind (failsAs_mapError fun _ _ => .none) fun descriptor hdescriptor => ?_
    have hutf8 : cf.pool.utf8? m.descriptorIndex = some descriptor :=
      textAt_eq_ok.mp (mapError_ok_iff.mp hdescriptor)
    split
    · exact failsAs_error .none
    · rename_i hsplit
      exact failsAs_error (.torn (.ofMethod hm hutf8) (split_eq_error_iff.mp hsplit))
    · -- of the attributes only the code is cut and counted
      refine failsAs_guard .none fun _ => failsAs_guard .none fun _ => ?_
      refine (failsAs_foldlM (fun found a ha => ?_) _).bind fun found _ => ?_
      · refine failsAs_checkMethodAttribute name (fun hname code stackMap hcode hmap => ?_) found
        have hbody : HasBody cf code descriptor (AccessFlag.isStatic.isIn m.access) stackMap :=
          ⟨⟨m, hm, hutf8, rfl, a, ha, hname, hcode⟩, hmap⟩
        exact ⟨fun text htext => .ofBody hbody htext, fun n hn => ⟨_, _, _, _, hbody, hn⟩⟩
      · exact (failsAs_checkHasCode _ _).bind fun _ _ => failsAs_ok _ _

/-- Verification crashes at nothing but a descriptor that it cuts or a sum that it takes. -/
theorem failsAs_verify (cf : ClassFile) :
    FailsAs (fun e => ComesFrom (Splits cf) (Counts cf) e.crash?) (verify cf) := by
  have hmethods : FailsAs (fun e => ComesFrom (Splits cf) (Counts cf) e.crash?)
      ((checkMethods cf).mapError VerifyError.method) := by
    refine failsAs_mapError ?_
    exact FailsAs.bind (failsAs_foldlM (fun seen m hm => failsAs_checkMethod hm seen) _)
      fun _ _ => failsAs_ok _ _
  have hname : ∀ index, FailsAs (fun e => ComesFrom (Splits cf) (Counts cf) e.crash?)
      (checkClassName cf.pool index) := by
    intro index
    exact FailsAs.bind (failsAs_mapError fun _ _ => .none) fun name _ => failsAs_require .none
  have hsuper : FailsAs (fun e => ComesFrom (Splits cf) (Counts cf) e.crash?) (checkSuperclass cf) := by
    unfold checkSuperclass
    split
    · exact failsAs_require .none
    · exact hname _
  unfold verify
  dsimp only
  refine failsAs_guard .none fun _ => failsAs_guard .none fun _ => ?_
  refine FailsAs.bind (failsAs_mapError fun _ _ => .none) fun _ _ => failsAs_guard .none fun _ => ?_
  refine (hname _).bind fun _ _ => hsuper.bind fun _ _ => ?_
  refine FailsAs.bind (failsAs_mapError fun _ _ => .none) fun _ _ => ?_
  refine FailsAs.bind (failsAs_mapError fun _ _ => .none) fun _ _ => ?_
  exact hmethods.bind fun _ _ => failsAs_mapError fun _ _ => .none

end BeanClass.Verification
