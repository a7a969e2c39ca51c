import BeanClass.Proofs.ClassFile.Offsets
import BeanClass.Proofs.Verification.Sums

/-! # Code tables and lines

The table of a code array has an instruction exactly where a line of the array starts, and stack
frames are entered at their offsets.
-/

namespace BeanClass

open Verification

namespace CodeLine

variable {pc : Nat} {code : List UInt8} {lines : List CodeLine}

/-- The entry of a code table for the line. -/
def insn (line : CodeLine) : Insn where
  opcode := line.opcode
  operand := line.operand
  target := if line.opcode = .ifNonNull then some line.target.toNat else none

/-- The part of a code table that the bytes of the line take. -/
def cells (line : CodeLine) : List (Option Insn) :=
  some line.insn :: List.replicate line.opcode.operandCount none

theorem operandCount_le (opcode : Opcode) : opcode.operandCount ≤ 2 := by
  cases opcode <;> simp [Opcode.operandCount]

/-- Fewer bytes are left than the opcode has operands, if none of the shapes of operands is there. -/
theorem length_lt_operandCount {opcode : Opcode} {rest : List UInt8}
    (h0 : opcode.operandCount ≠ 0) (h1 : ∀ a tail, opcode.operandCount = 1 → rest ≠ a :: tail)
    (h2 : ∀ a b tail, opcode.operandCount = 2 → rest ≠ a :: b :: tail) :
    rest.length < opcode.operandCount := by
  have hle := operandCount_le opcode
  rcases rest with _ | ⟨a, _ | ⟨b, rest⟩⟩
  · exact Nat.pos_of_ne_zero h0
  · have hne : opcode.operandCount ≠ 1 := fun h => h1 a [] h rfl
    simp only [List.length_cons, List.length_nil]
    omega
  · have hne₁ : opcode.operandCount ≠ 1 := fun h => h1 a _ h rfl
    have hne₂ : opcode.operandCount ≠ 2 := fun h => h2 a b _ h rfl
    omega

theorem scan_of_ofByte? {byte : UInt8} {opcode : Opcode} (hopcode : Opcode.ofByte? byte = some opcode)
    (operands rest : List UInt8) (h : operands.length = opcode.operandCount) :
    scan pc (byte :: (operands ++ rest)) =
      (scan (pc + 1 + operands.length) rest).map (⟨pc, opcode, operands⟩ :: ·) := by
  rw [← Opcode.toByte_of_ofByte? hopcode]
  exact scan_cons pc opcode operands rest h

/-- The cells of lines from offset `pc` on hold the instruction of a line where it starts. -/
theorem getElem?_cells (h : scan pc code = some lines) (k : Nat) (insn : Insn) :
    (lines.flatMap cells)[k]?.join = some insn ↔
      ∃ line ∈ lines, line.pc = pc + k ∧ line.insn = insn := by
  fun_induction scan pc code generalizing lines k with
  | case1 => cases h; simp
  | case2 => cases h
  | case3 => cases h
  | case4 pc byte rest opcode _ hlength ih =>
    obtain ⟨tail, htail, rfl⟩ := Option.map_eq_some_iff.mp h
    have hlater := (scan_eq_some htail).1
    have ih := ih htail (k - (1 + opcode.operandCount))
    generalize hline : CodeLine.mk pc opcode (rest.take opcode.operandCount) = line
    have hpc : line.pc = pc := by rw [← hline]
    have hsize : line.cells.length = 1 + opcode.operandCount := by
      rw [← hline]
      simp [cells, Nat.add_comm]
    rw [List.flatMap_cons, List.getElem?_append, hsize]
    simp only [List.mem_cons, exists_eq_or_imp, hpc]
    split
    · -- none of the later lines starts before the end of this one
      have hnone : ¬∃ later ∈ tail, later.pc = pc + k ∧ later.insn = insn := by
        rintro ⟨later, hmem, heq, -⟩
        have hle := (hlater later hmem).1
        omega
      simp only [hnone, or_false]
      cases k with
      | zero => simp [cells]
      | succ k => simp [cells, List.getElem?_replicate]; split <;> simp
    · rw [ih]
      have hne : ¬pc = pc + k := by omega
      have hsum : pc + 1 + opcode.operandCount + (k - (1 + opcode.operandCount)) = pc + k := by omega
      simp only [hne, hsum, false_and, false_or]

end CodeLine

namespace Verification

open CodeLine

variable {pc : Nat} {code : List UInt8} {lines : List CodeLine} {table out : CodeTable}

/-- The table is extended by the cells of lines, none of which branches to a negative offset. -/
def Extends (table out : CodeTable) (lines : List CodeLine) : Prop :=
  (∀ line ∈ lines, line.opcode = .ifNonNull → 0 ≤ line.target) ∧
    out.toList = table.toList ++ lines.flatMap cells

theorem extends_cons {line : CodeLine} {mid : CodeTable}
    (hline : line.opcode = .ifNonNull → 0 ≤ line.target)
    (hmid : mid.toList = table.toList ++ line.cells) :
    Extends table out (line :: lines) ↔ Extends mid out lines := by
  unfold Extends
  rw [List.forall_mem_cons, List.flatMap_cons, ← List.append_assoc, ← hmid]
  exact and_congr_left' (and_iff_right hline)

theorem exists_scan_cons {line : CodeLine} {mid : CodeTable}
    (hline : line.opcode = .ifNonNull → 0 ≤ line.target)
    (hmid : mid.toList = table.toList ++ line.cells) :
    (∃ lines, (scan pc code).map (line :: ·) = some lines ∧ Extends table out lines) ↔
      ∃ lines, scan pc code = some lines ∧ Extends mid out lines := by
  constructor
  · rintro ⟨lines, hscan, hext⟩
    obtain ⟨tail, htail, rfl⟩ := Option.map_eq_some_iff.mp hscan
    exact ⟨tail, htail, (extends_cons hline hmid).mp hext⟩
  · rintro ⟨tail, htail, hext⟩
    exact ⟨line :: tail, by rw [htail]; rfl, (extends_cons hline hmid).mpr hext⟩

/-- Decoding is scanning, where no branch goes to a negative offset. -/
theorem decodeFrom_eq_ok :
    decodeFrom pc table code = .ok out ↔
      ∃ lines, scan pc code = some lines ∧ Extends table out lines := by
  fun_induction decodeFrom pc table code with
  | case1 pc table =>
    simp only [scan_nil, Option.some_inj, exists_eq_left', Extends, Except.ok.injEq]
    simp [Array.toList_inj, eq_comm]
  | case2 pc table byte rest hopcode =>
    rw [scan, hopcode]
    simp
  | case3 pc table byte opcode hopcode rest hcount ih =>
    have hne : opcode ≠ .ifNonNull := by rintro rfl; cases hcount
    rw [ih, ← List.nil_append rest, scan_of_ofByte? hopcode [] rest hcount.symm]
    refine (exists_scan_cons (absurd · hne) ?_).symm
    simp [cells, insn, hcount, hne, operand]
  | case4 pc table byte opcode hopcode a rest hcount ih =>
    have hne : opcode ≠ .ifNonNull := by rintro rfl; cases hcount
    rw [ih, ← List.singleton_append (l := rest), scan_of_ofByte? hopcode [a] rest hcount.symm]
    refine (exists_scan_cons (absurd · hne) ?_).symm
    simp [cells, insn, hcount, hne, operand]
  | case5 pc table byte opcode hopcode a b rest hcount word target hbad =>
    rw [show a :: b :: rest = [a, b] ++ rest from rfl,
      scan_of_ofByte? hopcode [a, b] rest hcount.symm]
    simp only [reduceCtorEq, false_iff]
    rintro ⟨lines, hscan, hnonneg, -⟩
    obtain ⟨tail, -, rfl⟩ := Option.map_eq_some_iff.mp hscan
    exact Int.not_le.mpr hbad.2 (hnonneg _ List.mem_cons_self hbad.1)
  | case6 pc table byte opcode hopcode a b rest hcount word goal hgood target ih =>
    rw [ih, show a :: b :: rest = [a, b] ++ rest from rfl,
      scan_of_ofByte? hopcode [a, b] rest hcount.symm]
    refine (exists_scan_cons (fun hbranch => ?_) ?_).symm
    · exact Int.not_lt.mp fun hlt => hgood ⟨hbranch, hlt⟩
    · simp [cells, insn, hcount, operand, CodeLine.target, word, goal, target]
  | case7 pc table byte rest opcode hopcode h0 h1 h2 =>
    have hlength := length_lt_operandCount h0 h1 h2
    rw [scan, hopcode]
    simp [hlength]

/-- The table has the instruction of a line where the line starts, and no other. -/
def Tabulates (table : CodeTable) (lines : List CodeLine) : Prop :=
  ∀ k insn, table[k]?.join = some insn ↔ ∃ line ∈ lines, line.pc = k ∧ line.insn = insn

theorem tabulates_of_cells (hscan : scan 0 code = some lines)
    (h : table.toList = lines.flatMap cells) : Tabulates table lines := by
  intro k insn
  rw [← Array.getElem?_toList, h, getElem?_cells hscan, Nat.zero_add]

theorem hasInsn_iff (h : Tabulates table lines) {k : Nat} :
    table.hasInsn k = true ↔ ∃ line ∈ lines, line.pc = k := by
  have hjoin : table.hasInsn k = true ↔ ∃ insn, table[k]?.join = some insn := by
    unfold CodeTable.hasInsn
    rcases table[k]? with _ | _ | insn <;> simp
  rw [hjoin]
  constructor
  · rintro ⟨insn, hinsn⟩
    obtain ⟨line, hline, hpc, -⟩ := (h k insn).mp hinsn
    exact ⟨line, hline, hpc⟩
  · rintro ⟨line, hline, hpc⟩
    exact ⟨line.insn, (h k line.insn).mpr ⟨line, hline, hpc, rfl⟩⟩

theorem badBranch?_eq_none (h : Tabulates table lines) :
    badBranch? table = none ↔ ∀ line ∈ lines, line.opcode = .ifNonNull →
      ∃ other ∈ lines, other.pc = line.target.toNat := by
  unfold badBranch?
  rw [List.findSome?_eq_none_iff]
  constructor
  · intro hall line hline hbranch
    have hcell := (h line.pc line.insn).mpr ⟨line, hline, rfl, rfl⟩
    have hmem : (some line.insn, line.pc) ∈ table.toList.zipIdx := by
      rw [List.mk_mem_zipIdx_iff_getElem?, Array.getElem?_toList]
      exact Option.join_eq_some_iff.mp hcell
    have htarget := hall _ hmem
    simpa [insn, hbranch, hasInsn_iff h] using htarget
  · rintro hall ⟨slot, pc⟩ hmem
    rw [List.mk_mem_zipIdx_iff_getElem?, Array.getElem?_toList] at hmem
    cases slot with
    | none => rfl
    | some insn =>
      obtain ⟨line, hline, -, rfl⟩ := (h pc insn).mp (Option.join_eq_some_iff.mpr hmem)
      by_cases hbranch : line.opcode = .ifNonNull
      · have htarget := hall line hline hbranch
        simpa [CodeLine.insn, hbranch, hasInsn_iff h] using htarget
      · simp [CodeLine.insn, hbranch]

theorem decodeCode_eq_ok :
    decodeCode code = .ok table ↔ code ≠ [] ∧ ∃ lines, scan 0 code = some lines ∧
      (∀ line ∈ lines, line.opcode = .ifNonNull → ∃ other ∈ lines, line.target = other.pc) ∧
      table.toList = lines.flatMap cells := by
  have hcut : decodeCode code = .ok table ↔
      code ≠ [] ∧ decodeFrom 0 #[] code = .ok table ∧ badBranch? table = none := by
    cases code with
    | nil => simp [decodeCode]
    | cons byte code =>
      simp only [decodeCode, List.isEmpty_cons, Bool.false_eq_true, if_false, bind_ok_iff]
      constructor
      · rintro ⟨out, hdecode, h⟩
        cases hbad : badBranch? out with
        | none => rw [hbad] at h; cases h; exact ⟨List.cons_ne_nil _ _, hdecode, hbad⟩
        | some => rw [hbad] at h; cases h
      · rintro ⟨-, hdecode, hbad⟩
        exact ⟨table, hdecode, by rw [hbad]⟩
  rw [hcut, decodeFrom_eq_ok]
  refine and_congr_right fun _ => ?_
  constructor
  · rintro ⟨⟨lines, hscan, hnonneg, hcells⟩, hbad⟩
    rw [Array.toList_empty, List.nil_append] at hcells
    refine ⟨lines, hscan, fun line hline hbranch => ?_, hcells⟩
    obtain ⟨other, hother, hpc⟩ :=
      (badBranch?_eq_none (tabulates_of_cells hscan hcells)).mp hbad line hline hbranch
    exact ⟨other, hother, by rw [hpc, Int.toNat_of_nonneg (hnonneg line hline hbranch)]⟩
  · rintro ⟨lines, hscan, htargets, hcells⟩
    refine ⟨⟨lines, hscan, fun line hline hbranch => ?_, hcells⟩, ?_⟩
    · obtain ⟨other, -, htarget⟩ := htargets line hline hbranch
      omega
    · rw [badBranch?_eq_none (tabulates_of_cells hscan hcells)]
      intro line hline hbranch
      obtain ⟨other, hother, htarget⟩ := htargets line hline hbranch
      exact ⟨other, hother, by omega⟩

/-- Frames that were entered at different offsets are found there. -/
theorem enterFrames_eq_ok {depths out : FrameDepths} {frames : List (Nat × StackFrame)}
    (hsize : ∀ k, table.hasInsn k = true → k < depths.size) (hnodup : (frames.map Prod.fst).Nodup)
    (h : enterFrames table depths frames = .ok out) (k : Nat) (d : UInt16) :
    out[k]?.join = some d ↔ (∃ frame, (k, frame) ∈ frames ∧ frameSlots frame = .ok d) ∨
      k ∉ frames.map Prod.fst ∧ depths[k]?.join = some d := by
  fun_induction enterFrames table depths frames with
  | case1 depths => cases h; simp
  | case2 depths offset frame frames hinsn slots hslots ih =>
    obtain ⟨hnot, hnodup⟩ := List.nodup_cons.mp hnodup
    rw [ih (by simpa using hsize) hnodup h]
    by_cases hk : k = offset
    · subst hk
      have hnone : ¬∃ other, (k, other) ∈ frames ∧ frameSlots other = .ok d := by
        rintro ⟨other, hmem, -⟩
        exact hnot (List.mem_map.mpr ⟨_, hmem, rfl⟩)
      have hset : (depths.setIfInBounds k (some slots))[k]? = some (some slots) :=
        Array.getElem?_setIfInBounds_self_of_lt (hsize k hinsn)
      have hhead : (∃ other, (k, other) ∈ (k, frame) :: frames ∧ frameSlots other = .ok d) ↔
          frameSlots frame = .ok d := by
        simp only [List.mem_cons, Prod.mk.injEq, true_and, or_and_right, exists_or, exists_eq_left,
          hnone, or_false]
      rw [hset, hhead, hslots]
      simp [hnone, hnot]
    · rw [Array.getElem?_setIfInBounds_ne (Ne.symm hk)]
      simp [hk]
  | case3 | case4 => cases h

/-- Frames are entered if all of them start instructions and have stacks whose slots can be counted. -/
theorem exists_enterFrames {frames : List (Nat × StackFrame)} (depths : FrameDepths) :
    (∃ out, enterFrames table depths frames = .ok out) ↔
      ∀ entry ∈ frames, table.hasInsn entry.1 = true ∧ entry.2.stackSum < 0x10000 := by
  fun_induction enterFrames table depths frames with
  | case1 => simp
  | case2 depths offset frame frames hinsn slots hslots ih =>
    rw [frameSlots_eq] at hslots
    rw [ih, List.forall_mem_cons, and_iff_right ⟨hinsn, exists_countSlots.mp ⟨slots, hslots⟩⟩]
  | case3 depths offset frame frames hinsn e he =>
    rw [frameSlots_eq, countSlots_eq_error] at he
    have hle : ¬frame.stackSum < 0x10000 := Nat.not_lt.mpr he.2
    simp [hle]
  | case4 depths offset frame frames hinsn => simp [hinsn]

theorem mem_declared_some {t : StackMap} {k n : Nat} :
    (k, n) ∈ StackMap.declared (some t) ↔
      ∃ frame, (k, frame) ∈ t.offsets.zip t.frames ∧ frame.stackSum = n := by
  simp only [StackMap.declared, Option.elim_some, List.zip_map_right, List.mem_map, Prod.exists,
    Prod.map_apply, id_eq, Prod.mk.injEq]
  constructor
  · rintro ⟨offset, frame, hmem, rfl, hsum⟩
    exact ⟨frame, hmem, hsum⟩
  · rintro ⟨frame, hmem, hsum⟩
    exact ⟨k, frame, hmem, rfl, hsum⟩

theorem exists_declared {t : StackMap} {frame : StackFrame} (h : frame ∈ t.frames) :
    ∃ offset, (offset, frame.stackSum) ∈ StackMap.declared (some t) := by
  rw [← t.map_snd_zip_offsets] at h
  obtain ⟨⟨offset, frame⟩, hmem, rfl⟩ := List.mem_map.mp h
  exact ⟨offset, mem_declared_some.mpr ⟨frame, hmem, rfl⟩⟩

/-- Frames are accepted where all of them start instructions, with depths that fit into 16 bits. -/
theorem exists_frameDepths {stackMap : Option StackMap} (h : Tabulates table lines) :
    (∃ depths, frameDepths table stackMap = .ok depths) ↔
      ∀ k n, (k, n) ∈ StackMap.declared stackMap → (∃ line ∈ lines, line.pc = k) ∧ n < 0x10000 := by
  cases stackMap with
  | none => simp [frameDepths, StackMap.declared]
  | some t =>
    simp only [frameDepths, exists_enterFrames, mem_declared_some, hasInsn_iff h, Prod.forall]
    constructor
    · rintro hall k n ⟨frame, hmem, rfl⟩
      exact hall k frame hmem
    · intro hall k frame hmem
      exact hall k _ ⟨frame, hmem, rfl⟩

theorem lt_size_of_hasInsn {k : Nat} (h : table.hasInsn k = true) : k < table.size := by
  unfold CodeTable.hasInsn at h
  split at h
  · rename_i hget
    exact (Array.getElem?_eq_some_iff.mp hget).1
  · cases h

theorem join_getElem?_replicate_none (n k : Nat) :
    (Array.replicate n (none : Option UInt16))[k]?.join = none := by
  rw [Array.getElem?_replicate]
  split <;> rfl

/-- No two frames share an offset, so that the depth of each is found at its own. -/
theorem frameDepths_some_eq_ok {t : StackMap} {depths : FrameDepths}
    (h : frameDepths table (some t) = .ok depths) (k : Nat) (d : UInt16) :
    depths[k]?.join = some d ↔
      ∃ frame, (k, frame) ∈ t.offsets.zip t.frames ∧ frameSlots frame = .ok d := by
  have hnodup : ((t.offsets.zip t.frames).map Prod.fst).Nodup := by
    rw [t.map_fst_zip_offsets]
    exact (StackMap.pairwise_offsetsFrom 0 t.frames).imp Nat.ne_of_lt
  have hsize : ∀ k, table.hasInsn k = true →
      k < (Array.replicate table.size (none : Option UInt16)).size := by
    intro k hk
    rw [Array.size_replicate]
    exact lt_size_of_hasInsn hk
  rw [enterFrames_eq_ok hsize hnodup h]
  simp only [join_getElem?_replicate_none, reduceCtorEq, and_false, or_false]

theorem frameDepths_eq_ok {stackMap : Option StackMap} {depths : FrameDepths}
    (h : frameDepths table stackMap = .ok depths) (k : Nat) (d : UInt16) :
    depths[k]?.join = some d ↔ (k, d.toNat) ∈ StackMap.declared stackMap := by
  cases stackMap with
  | none =>
    cases h
    simp [join_getElem?_replicate_none, StackMap.declared]
  | some t =>
    simp only [frameDepths_some_eq_ok h, mem_declared_some, frameSlots_eq, countSlots_eq_ok,
      eq_comm (a := d.toNat)]

end Verification

end BeanClass
