import BeanClass.Proofs.Verification.Steps

/-! # What verified code guarantees

The walk over a method body succeeds exactly if every execution is safe and paths agree where they
meet. It leaves the depth at each offset that it visits, and these depths are closed under steps.
-/

namespace BeanClass.Verification

variable {ctx : CodeContext} {m : Machine} {visited : Array (Option UInt16)}
  {work : List (Nat × UInt16)}

/-- Depths that complete a walk: they include those visited before and the work that is left, and
wherever they are new they are closed under steps. -/
structure Completes (ctx : CodeContext) (visited : Array (Option UInt16)) (work : List (Nat × UInt16))
    (depths : Nat → Option UInt16) : Prop where
  lt_size : ∀ pc d, depths pc = some d → pc < visited.size
  seen : ∀ pc d, visited[pc]?.join = some d → depths pc = some d
  todo : ∀ s ∈ work, depths s.1 = some s.2
  closed : ∀ pc d, depths pc = some d → visited[pc]?.join = some d ∨
    ∃ next, ctx.step pc d = .ok next ∧ ∀ s ∈ next, depths s.1 = some s.2

variable {pc : Nat} {depth : UInt16} {next : List (Nat × UInt16)} {depths : Nat → Option UInt16}

theorem completes_nil (visited : Array (Option UInt16)) :
    Completes ctx visited [] fun pc => visited[pc]?.join where
  lt_size pc d h := by
    rw [Option.join_eq_some_iff] at h
    exact (Array.getElem?_eq_some_iff.mp h).1
  seen _ _ h := h
  todo _ h := by cases h
  closed _ _ h := Or.inl h

theorem completes_seen (hseen : visited[pc]?.join = some depth) :
    Completes ctx visited ((pc, depth) :: work) depths ↔ Completes ctx visited work depths := by
  constructor
  · intro h
    exact { h with todo := fun s hs => h.todo s (List.mem_cons_of_mem _ hs) }
  · intro h
    refine { h with todo := fun s hs => ?_ }
    rcases List.mem_cons.mp hs with rfl | hs
    · exact h.seen _ _ hseen
    · exact h.todo s hs

theorem join_getElem?_set (hpc : pc < visited.size) (k : Nat) :
    (visited.set pc (some depth) hpc)[k]?.join =
      if k = pc then some depth else visited[k]?.join := by
  rw [Array.getElem?_set]
  by_cases hk : k = pc
  · simp [hk]
  · simp [hk, Ne.symm hk]

/-- Visiting an offset for the first time leaves what its step leads to. -/
theorem Completes.visit (h : Completes ctx visited ((pc, depth) :: work) depths)
    (hpc : pc < visited.size) (hnew : visited[pc]?.join = none)
    (hstep : ctx.step pc depth = .ok next) :
    Completes ctx (visited.set pc (some depth) hpc) (next ++ work) depths := by
  have hdepth := h.todo _ List.mem_cons_self
  have hnext : ∀ s ∈ next, depths s.1 = some s.2 := by
    rcases h.closed pc depth hdepth with hold | ⟨found, hfound, hall⟩
    · rw [hnew] at hold
      cases hold
    · rw [hstep] at hfound
      cases hfound
      exact hall
  refine ⟨fun k d hk => ?_, fun k d hk => ?_, fun s hs => ?_, fun k d hk => ?_⟩
  · rw [Array.size_set]
    exact h.lt_size k d hk
  · rw [join_getElem?_set] at hk
    split at hk
    · rename_i heq
      rw [heq, hdepth, hk]
    · exact h.seen k d hk
  · rcases List.mem_append.mp hs with hs | hs
    · exact hnext s hs
    · exact h.todo s (List.mem_cons_of_mem _ hs)
  · rw [join_getElem?_set]
    split
    · rename_i heq
      rw [heq, hdepth] at hk
      exact Or.inl hk
    · exact h.closed k d hk

theorem Completes.of_visit {hpc : pc < visited.size}
    (h : Completes ctx (visited.set pc (some depth) hpc) (next ++ work) depths)
    (hnew : visited[pc]?.join = none) (hstep : ctx.step pc depth = .ok next) :
    Completes ctx visited ((pc, depth) :: work) depths := by
  have hdepth : depths pc = some depth := h.seen pc depth (by rw [join_getElem?_set, if_pos rfl])
  refine ⟨fun k d hk => ?_, fun k d hk => h.seen k d ?_, fun s hs => ?_, fun k d hk => ?_⟩
  · have hlt := h.lt_size k d hk
    rwa [Array.size_set] at hlt
  · rw [join_getElem?_set, if_neg]
    · exact hk
    · rintro rfl
      rw [hnew] at hk
      cases hk
  · rcases List.mem_cons.mp hs with rfl | hs
    · exact hdepth
    · exact h.todo s (List.mem_append_right _ hs)
  · by_cases heq : k = pc
    · subst heq
      rw [hdepth, Option.some_inj] at hk
      subst hk
      exact Or.inr ⟨next, hstep, fun s hs => h.todo s (List.mem_append_left _ hs)⟩
    · have hclosed := h.closed k d hk
      rwa [join_getElem?_set, if_neg heq] at hclosed

theorem walk_eq_ok :
    ctx.walk visited work = .ok () ↔ ∃ depths, Completes ctx visited work depths := by
  fun_induction CodeContext.walk ctx visited work with
  | case1 visited => exact ⟨fun _ => ⟨_, completes_nil visited⟩, fun _ => rfl⟩
  | case2 visited pc work hpc seen hseen ih =>
    have hget : visited[pc]?.join = some seen := by simp [hpc, hseen]
    simp only [ih, completes_seen hget]
  | case3 visited pc depth work hpc seen hseen hne =>
    have hget : visited[pc]?.join = some seen := by simp [hpc, hseen]
    simp only [reduceCtorEq, false_iff]
    rintro ⟨depths, h⟩
    have hdepth := h.todo _ List.mem_cons_self
    rw [h.seen pc seen hget, Option.some_inj] at hdepth
    exact hne hdepth
  | case4 visited pc depth work hpc hnew e hstep =>
    have hget : visited[pc]?.join = none := by simp [hpc, hnew]
    simp only [reduceCtorEq, false_iff]
    rintro ⟨depths, h⟩
    rcases h.closed pc depth (h.todo _ List.mem_cons_self) with hold | ⟨next, hnext, -⟩
    · rw [hget] at hold
      cases hold
    · rw [hstep] at hnext
      cases hnext
  | case5 visited pc depth work hpc hnew next hstep ih =>
    have hget : visited[pc]?.join = none := by simp [hpc, hnew]
    rw [ih]
    exact exists_congr fun depths =>
      ⟨fun h => h.of_visit hget hstep, fun h => h.visit hpc hget hstep⟩
  | case6 visited pc depth work hpc =>
    simp only [reduceCtorEq, false_iff]
    rintro ⟨depths, h⟩
    exact hpc (h.lt_size pc depth (h.todo _ List.mem_cons_self))

/-- Depths that are right at the start and closed under steps. -/
def Closed (ctx : CodeContext) (depths : Nat → Option UInt16) : Prop :=
  depths 0 = some 0 ∧ ∀ pc d, depths pc = some d →
    ∃ next, ctx.step pc d = .ok next ∧ ∀ s ∈ next, depths s.1 = some s.2

theorem walk_start_eq_ok :
    ctx.walk (Array.replicate ctx.table.size none) [(0, 0)] = .ok () ↔
      ∃ depths, Closed ctx depths := by
  have hnone := join_getElem?_replicate_none ctx.table.size
  rw [walk_eq_ok]
  refine exists_congr fun depths => ⟨fun h => ⟨h.todo _ List.mem_cons_self, fun pc d hd => ?_⟩,
    fun h => ⟨fun pc d hd => ?_, fun pc d hd => ?_, fun s hs => ?_, fun pc d hd => ?_⟩⟩
  · exact (h.closed pc d hd).resolve_left (by rw [hnone]; exact nofun)
  · -- a step is only taken from an offset of the table
    obtain ⟨next, hnext, -⟩ := h.2 pc d hd
    obtain ⟨insn, hinsn, -⟩ := step_eq_ok_iff_insn.mp hnext
    rw [Option.join_eq_some_iff] at hinsn
    simpa using (Array.getElem?_eq_some_iff.mp hinsn).1
  · rw [hnone] at hd
    cases hd
  · cases List.mem_singleton.mp hs
    exact h.1
  · exact Or.inr (h.2 pc d hd)

theorem Describes.lt_of_le_maxStack (h : Describes ctx m) {n : Nat} (hn : n ≤ m.maxStack) :
    n < 0x10000 :=
  Nat.lt_of_le_of_lt (h.maxStack ▸ hn) ctx.maxStack.toNat_lt

/-- If paths agree where they meet, then the depth is a function of the offset. -/
theorem exists_depths (h : Describes ctx m) (haccepted : m.Accepted) :
    ∃ depths : Nat → Option UInt16, ∀ pc d, depths pc = some d ↔ m.Reaches pc d.toNat := by
  classical
  refine ⟨fun pc => if hpc : ∃ n, m.Reaches pc n then some (UInt16.ofNat hpc.choose) else none,
    fun pc d => ?_⟩
  by_cases hpc : ∃ n, m.Reaches pc n
  · have hreaches := hpc.choose_spec
    have htoNat : (UInt16.ofNat hpc.choose).toNat = hpc.choose := by
      obtain ⟨line, after, -, hallows⟩ := haccepted.safe hreaches
      exact UInt16.toNat_ofNat_of_lt' (h.lt_of_le_maxStack hallows.depth_le)
    simp only [dif_pos hpc, Option.some_inj]
    constructor
    · rintro rfl
      rwa [htoNat]
    · intro hd
      rw [← UInt16.toNat_inj, htoNat]
      exact haccepted.unique hreaches hd
  · simp only [dif_neg hpc, reduceCtorEq, false_iff]
    exact fun hd => hpc ⟨_, hd⟩

/-- Closed depths are those of the executions, which they show to be safe. -/
theorem exists_closed_iff (h : Describes ctx m) : (∃ depths, Closed ctx depths) ↔ m.Accepted := by
  constructor
  · rintro ⟨depths, hstart, hclosed⟩
    refine Machine.accepted_of_closed (fun pc n => ∃ d, depths pc = some d ∧ d.toNat = n)
      ⟨0, hstart, rfl⟩ ?_ ?_ ?_
    · rintro pc _ _ ⟨d, hd, rfl⟩ ⟨d', hd', rfl⟩
      rw [hd, Option.some_inj] at hd'
      rw [hd']
    · rintro pc _ ⟨d, hd, rfl⟩
      obtain ⟨next, hnext, -⟩ := hclosed pc d hd
      obtain ⟨line, after, hruns, hallows, -⟩ := (step_eq_ok h).mp hnext
      exact ⟨line, after.toNat, hruns, hallows⟩
    · rintro pc _ pc' depth' ⟨d, hd, rfl⟩ hstep
      obtain ⟨next, hnext, hall⟩ := hclosed pc d hd
      obtain ⟨line, after, hruns, -, rfl⟩ := (step_eq_ok h).mp hnext
      obtain ⟨d', hmem, hd'⟩ := (mem_nexts h hruns).mp hstep
      exact ⟨d', hall _ hmem, hd'⟩
  · intro haccepted
    obtain ⟨depths, hdepths⟩ := exists_depths h haccepted
    refine ⟨depths, (hdepths 0 0).mpr .refl, fun pc d hd => ?_⟩
    have hreaches := (hdepths pc d).mp hd
    obtain ⟨line, n, hruns, hallows⟩ := haccepted.safe hreaches
    obtain ⟨after, rfl⟩ := exists_toNat_eq (h.lt_of_le_maxStack hallows.after_le)
    refine ⟨_, (step_eq_ok h).mpr ⟨line, _, hruns, hallows, rfl⟩, fun s hs => ?_⟩
    exact (hdepths _ _).mpr (hreaches.tail ((mem_nexts h hruns).mpr ⟨s.2, hs, rfl⟩))

/-- The machine of a method body with the given lines and descriptor. -/
def machineOf (pool : ConstantPool) (code : CodeAttribute) (stackMap : Option StackMap)
    (d : MethodDescriptor) (lines : List CodeLine) : Machine where
  pool := pool
  lines := lines
  frames := StackMap.declared stackMap
  maxStack := code.maxStack.toNat
  maxLocals := code.maxLocals.toNat
  result := resultKind d.result

/-- A method body that can be read, whose branches and frames stand at lines, and whose executions
are safe. -/
def AcceptsCode (pool : ConstantPool) (code : CodeAttribute) (descriptor : String) (isStatic : Bool)
    (stackMap : Option StackMap) : Prop :=
  ∃ d lines, MethodDescriptor.split descriptor = .ok d ∧
    d.parameterSum + (if isStatic then 0 else 1) ≤ code.maxLocals.toNat ∧
    code.code ≠ [] ∧ CodeLine.scan 0 code.code = some lines ∧
    (∀ line ∈ lines, line.opcode = .ifNonNull → ∃ other ∈ lines, line.target = other.pc) ∧
    (∀ offset n, (offset, n) ∈ StackMap.declared stackMap → ∃ line ∈ lines, line.pc = offset) ∧
    (machineOf pool code stackMap d lines).Accepted

/-- No sum of slots of the body is too large for 16 bits, and the stack has room for one value more
than it may hold. -/
structure SlotsFit (pool : ConstantPool) (code : CodeAttribute) (descriptor : String)
    (isStatic : Bool) (stackMap : Option StackMap) : Prop where
  maxStack : code.maxStack.toNat ≤ 65533
  parameters : ∀ d, MethodDescriptor.split descriptor = .ok d →
    d.parameterSum + (if isStatic then 0 else 1) < 0x10000
  invoked : ∀ lines, CodeLine.scan 0 code.code = some lines → ∀ line ∈ lines, ∀ d,
    line.opcode = .invokeSpecial → line.invoked? pool = some d → 1 + d.parameterSum < 0x10000
  frames : ∀ t ∈ stackMap, ∀ frame ∈ t.frames, frame.stackSum < 0x10000

variable {pool : ConstantPool} {code : CodeAttribute} {descriptor : String} {isStatic : Bool}
  {stackMap : Option StackMap}

theorem describes_machineOf (pool : ConstantPool) (d : MethodDescriptor) {lines : List CodeLine}
    {table : CodeTable} {frames : FrameDepths} (hscan : CodeLine.scan 0 code.code = some lines)
    (htargets : ∀ line ∈ lines, line.opcode = .ifNonNull → ∃ other ∈ lines, line.target = other.pc)
    (hcells : table.toList = lines.flatMap CodeLine.cells)
    (hframes : frameDepths table stackMap = .ok frames) :
    Describes ⟨pool, code.maxStack, code.maxLocals, resultKind d.result, table, frames⟩
      (machineOf pool code stackMap d lines) where
  pool := rfl
  maxStack := rfl
  maxLocals := rfl
  result := rfl
  table := tabulates_of_cells hscan hcells
  frames := frameDepths_eq_ok hframes
  frames_lt k n hn :=
    ((exists_frameDepths (tabulates_of_cells hscan hcells)).mp ⟨frames, hframes⟩ k n hn).2
  scan := ⟨code.code, hscan⟩
  targets line hline hbranch := by
    obtain ⟨other, -, htarget⟩ := htargets line hline hbranch
    omega

theorem checkCode_eq_ok_iff_walk {d : MethodDescriptor}
    (hd : MethodDescriptor.split descriptor = .ok d) :
    checkCode pool code descriptor isStatic stackMap = .ok () ↔
      d.parameterSum + (if isStatic then 0 else 1) ≤ code.maxLocals.toNat ∧
      ∃ table, decodeCode code.code = .ok table ∧ ∃ frames, frameDepths table stackMap = .ok frames ∧
        CodeContext.walk ⟨pool, code.maxStack, code.maxLocals, resultKind d.result, table, frames⟩
          (Array.replicate table.size none) [(0, 0)] = .ok () := by
  rw [checkCode, splitDescriptor_eq_ok.mpr hd, ok_bind, neededSlots_eq]
  simp only [bind_ok_iff, countSlots_eq_ok, ite_error_ok_iff, UInt16.not_lt, UInt16.le_iff_toNat_le]
  constructor
  · rintro ⟨needed, hneeded, hle, hwalk⟩
    exact ⟨hneeded ▸ hle, hwalk⟩
  · rintro ⟨hle, hwalk⟩
    obtain ⟨needed, hneeded⟩ := exists_toNat_eq (Nat.lt_of_le_of_lt hle code.maxLocals.toNat_lt)
    exact ⟨needed, hneeded, hneeded ▸ hle, hwalk⟩

/-- The bodies that verification accepts are those whose executions are safe, and whose frames declare
depths that fit into 16 bits. -/
theorem checkCode_eq_ok_iff_fits :
    checkCode pool code descriptor isStatic stackMap = .ok () ↔
      AcceptsCode pool code descriptor isStatic stackMap ∧
        ∀ offset n, (offset, n) ∈ StackMap.declared stackMap → n < 0x10000 := by
  constructor
  · intro h
    obtain ⟨d, hd, -⟩ := bind_ok_iff.mp h
    rw [splitDescriptor_eq_ok] at hd
    obtain ⟨hlocals, table, htable, frames, hframes, hwalk⟩ := (checkCode_eq_ok_iff_walk hd).mp h
    obtain ⟨hne, lines, hscan, htargets, hcells⟩ := decodeCode_eq_ok.mp htable
    have hdescribes := describes_machineOf pool d hscan htargets hcells hframes
    have hdeclared := (exists_frameDepths (tabulates_of_cells hscan hcells)).mp ⟨frames, hframes⟩
    refine ⟨⟨d, lines, hd, hlocals, hne, hscan, htargets, ?_, ?_⟩, ?_⟩
    · exact fun offset n hn => (hdeclared offset n hn).1
    · exact (exists_closed_iff hdescribes).mp (walk_start_eq_ok.mp hwalk)
    · exact fun offset n hn => (hdeclared offset n hn).2
  · rintro ⟨⟨d, lines, hd, hlocals, hne, hscan, htargets, hoffsets, haccepted⟩, hfits⟩
    let table : CodeTable := (lines.flatMap CodeLine.cells).toArray
    have hcells : table.toList = lines.flatMap CodeLine.cells := rfl
    obtain ⟨frames, hframes⟩ := (exists_frameDepths (tabulates_of_cells hscan hcells)).mpr
      fun offset n hn => ⟨hoffsets offset n hn, hfits offset n hn⟩
    have hdescribes := describes_machineOf pool d hscan htargets hcells hframes
    refine (checkCode_eq_ok_iff_walk hd).mpr ⟨hlocals, table, ?_, frames, hframes, ?_⟩
    · exact decodeCode_eq_ok.mpr ⟨hne, lines, hscan, htargets, hcells⟩
    · exact walk_start_eq_ok.mpr ((exists_closed_iff hdescribes).mpr haccepted)

theorem SlotsFit.declared_lt (hfit : SlotsFit pool code descriptor isStatic stackMap) {offset n : Nat}
    (hn : (offset, n) ∈ StackMap.declared stackMap) : n < 0x10000 := by
  cases stackMap with
  | none => cases hn
  | some t =>
    obtain ⟨frame, hmem, rfl⟩ := mem_declared_some.mp hn
    exact hfit.frames t rfl frame (List.of_mem_zip hmem).2

/-- Verification accepts exactly the bodies whose executions are safe. -/
theorem checkCode_eq_ok_iff (hfit : SlotsFit pool code descriptor isStatic stackMap) :
    checkCode pool code descriptor isStatic stackMap = .ok () ↔
      AcceptsCode pool code descriptor isStatic stackMap :=
  checkCode_eq_ok_iff_fits.trans (and_iff_left fun _ _ => hfit.declared_lt)

/-- A null check of the receiver that branches over a return. -/
def nullCheck : CodeAttribute where
  maxStack := 1
  maxLocals := 1
  code := [0x2A, 0xC7, 0x00, 0x04, 0xB1, 0xB1]
  exceptions := []
  attributes := []

theorem slotsFit_nullCheck : SlotsFit .empty nullCheck "()V" false (some ⟨[.same 5]⟩) where
  maxStack := by decide
  parameters d hd := by
    have hsplit : MethodDescriptor.split "()V" = .ok ⟨[], "V"⟩ := by decide
    rw [hsplit] at hd
    cases hd
    decide
  invoked lines _ line _ d _ hd := by
    simp [CodeLine.invoked?, ConstantPool.get?, ConstantPool.empty] at hd
  frames t ht frame hframe := by
    cases ht
    cases List.mem_singleton.mp hframe
    decide

theorem checkCode_eq_ok_iff_nullCheck :
    checkCode .empty nullCheck "()V" false (some ⟨[.same 5]⟩) = .ok () ∧
      AcceptsCode .empty nullCheck "()V" false (some ⟨[.same 5]⟩) := by
  have hok : checkCode .empty nullCheck "()V" false (some ⟨[.same 5]⟩) = .ok () := by cbv
  exact ⟨hok, (checkCode_eq_ok_iff slotsFit_nullCheck).mp hok⟩

end BeanClass.Verification
