import BeanClass.ClassFile.Disassembly
import BeanClass.Proofs.Verification.Table

/-! # Listings and code tables

Disassembly and verification read code arrays on their own. Both of them read the lines of the array:
disassembly writes each line down, and the table that verification works on has an instruction for
each line.
-/

namespace BeanClass

open Disassembly Verification

variable {pc : Nat} {code : List UInt8} {lines : List CodeLine} {found texts : List String}
  {table : CodeTable} {e : CodeError}

/-- The instructions of a table with the offsets at which they start, in order. -/
def Verification.CodeTable.insns (table : CodeTable) : List (Nat × Insn) :=
  table.toList.zipIdx.filterMap fun entry => entry.1.map (Prod.mk entry.2)

/-- The operands of a decoded instruction: the offset that a branch goes to, the number of a local
variable, or a reference to the pool. -/
def Verification.Insn.operandText (pool : ConstantPool) (insn : Insn) : String :=
  match insn.target with
  | some target => s!" {target}"
  | none =>
    match insn.opcode.operandCount with
    | 0 => ""
    | 1 => s!" {insn.operand}"
    | _ => s!" {reference pool insn.opcode insn.operand}"

namespace CodeLine

def operandText (pool : ConstantPool) (line : CodeLine) : String :=
  if line.opcode = .ifNonNull then s!" {line.target}"
  else
    match line.opcode.operandCount with
    | 0 => ""
    | 1 => s!" {line.operand}"
    | _ => s!" {reference pool line.opcode line.operand}"

/-- The line as it is listed. -/
def listed (pool : ConstantPool) (line : CodeLine) : String :=
  Disassembly.line line.pc (line.opcode.mnemonic ++ line.operandText pool)

theorem operandText_insn (pool : ConstantPool) {line : CodeLine}
    (h : line.opcode = .ifNonNull → 0 ≤ line.target) :
    line.insn.operandText pool = line.operandText pool := by
  unfold operandText Insn.operandText
  by_cases hbranch : line.opcode = .ifNonNull
  · obtain ⟨target, htarget⟩ := Int.eq_ofNat_of_zero_le (h hbranch)
    simp [insn, hbranch, htarget]
    rfl
  · simp [insn, hbranch]

end CodeLine

namespace Disassembly

open CodeLine

theorem exists_scan_map {line : CodeLine} {pool : ConstantPool} :
    (∃ lines, (scan pc code).map (line :: ·) = some lines ∧
      texts = found.reverse ++ lines.map (listed pool)) ↔
    ∃ lines, scan pc code = some lines ∧
      texts = (line.listed pool :: found).reverse ++ lines.map (listed pool) := by
  constructor
  · rintro ⟨lines, hscan, rfl⟩
    obtain ⟨tail, htail, rfl⟩ := Option.map_eq_some_iff.mp hscan
    exact ⟨tail, htail, by simp⟩
  · rintro ⟨tail, htail, rfl⟩
    exact ⟨line :: tail, by rw [htail]; rfl, by simp⟩

/-- Disassembly lists the lines of a code array, behind those that were listed before. -/
theorem linesFrom_eq_ok {pool : ConstantPool} :
    linesFrom pool pc found code = .ok texts ↔
      ∃ lines, scan pc code = some lines ∧ texts = found.reverse ++ lines.map (listed pool) := by
  fun_induction linesFrom pool pc found code with
  | case1 pc found => simp [scan_nil, eq_comm]
  | case2 pc found byte rest hopcode =>
    rw [scan, hopcode]
    simp
  | case3 pc found byte opcode hopcode rest hcount ih =>
    have hne : opcode ≠ .ifNonNull := by rintro rfl; cases hcount
    have hlisted : (CodeLine.mk pc opcode []).listed pool = line pc opcode.mnemonic := by
      simp [listed, operandText, hne, hcount]
    rw [ih, ← List.nil_append rest, scan_of_ofByte? hopcode [] rest hcount.symm, exists_scan_map,
      hlisted]
    rfl
  | case4 pc found byte opcode hopcode a rest hcount ih =>
    have hne : opcode ≠ .ifNonNull := by rintro rfl; cases hcount
    have hlisted : (CodeLine.mk pc opcode [a]).listed pool = line pc s!"{opcode.mnemonic} {a}" := by
      have hoperand : toString a.toUInt16 = toString a := congrArg Nat.repr (UInt8.toNat_toUInt16 a)
      simp only [listed, operandText, operand, if_neg hne, hcount, hoperand, String.append_assoc]
      rfl
    rw [ih, ← List.singleton_append (l := rest), scan_of_ofByte? hopcode [a] rest hcount.symm,
      exists_scan_map, hlisted]
    rfl
  | case5 pc found byte opcode hopcode a b rest hcount text ih =>
    have hlisted : (CodeLine.mk pc opcode [a, b]).listed pool =
        line pc s!"{opcode.mnemonic} {text}" := by
      simp only [listed, operandText, operand, hcount, text, String.append_assoc]
      split <;> rfl
    rw [ih, show a :: b :: rest = [a, b] ++ rest from rfl,
      scan_of_ofByte? hopcode [a, b] rest hcount.symm, exists_scan_map, hlisted]
    rfl
  | case6 pc found byte rest opcode hopcode h0 h1 h2 =>
    have hlength := length_lt_operandCount h0 h1 h2
    rw [scan, hopcode]
    simp [hlength]

theorem lines_eq_ok {pool : ConstantPool} :
    Disassembly.lines pool code = .ok texts ↔
      ∃ lines, scan 0 code = some lines ∧ texts = lines.map (listed pool) :=
  linesFrom_eq_ok

end Disassembly

namespace Verification

open CodeLine

/-- The bytes behind the first one of a line hold no instructions. -/
theorem filterMap_cells (line : CodeLine) :
    (line.cells.zipIdx line.pc).filterMap (fun entry => entry.1.map (Prod.mk entry.2)) =
      [(line.pc, line.insn)] := by
  have hnone : ((List.replicate line.opcode.operandCount (none : Option Insn)).zipIdx
      (line.pc + 1)).filterMap (fun entry => entry.1.map (Prod.mk entry.2)) = [] := by
    rw [List.filterMap_eq_nil_iff]
    intro entry hmem
    rw [(List.mem_replicate.mp (List.fst_mem_of_mem_zipIdx hmem)).2, Option.map_none]
  rw [cells, List.zipIdx_cons, List.filterMap_cons, hnone]
  rfl

theorem filterMap_flatMap_cells (h : scan pc code = some lines) :
    ((lines.flatMap cells).zipIdx pc).filterMap (fun entry => entry.1.map (Prod.mk entry.2)) =
      lines.map fun line => (line.pc, line.insn) := by
  fun_induction scan pc code generalizing lines with
  | case1 => cases h; rfl
  | case2 => cases h
  | case3 => cases h
  | case4 pc byte rest opcode _ hlength ih =>
    obtain ⟨tail, htail, rfl⟩ := Option.map_eq_some_iff.mp h
    generalize hline : CodeLine.mk pc opcode (rest.take opcode.operandCount) = line
    have hpc : line.pc = pc := by rw [← hline]
    have hsize : pc + line.cells.length = pc + 1 + opcode.operandCount := by
      rw [← hline]
      simp [cells, Nat.add_assoc, Nat.add_comm]
    have hhead := filterMap_cells line
    rw [hpc] at hhead
    rw [List.flatMap_cons, List.zipIdx_append, List.filterMap_append, hsize, ih htail, hhead,
      List.map_cons, hpc, List.singleton_append]

/-- The table of a code array has the lines of the array as its instructions. -/
theorem insns_eq (hscan : scan 0 code = some lines) (h : table.toList = lines.flatMap cells) :
    table.insns = lines.map fun line => (line.pc, line.insn) := by
  rw [CodeTable.insns, h, filterMap_flatMap_cells hscan]

/-- Decoding fails where there are no lines, or at a branch to a negative offset. -/
theorem decodeFrom_eq_error (h : decodeFrom pc table code = .error e) :
    scan pc code = none ∧ (∀ pc target, e ≠ .badBranchTarget pc target) ∨
      ∃ pc target, e = .badBranchTarget pc target ∧ target < 0 := by
  fun_induction decodeFrom pc table code with
  | case1 => cases h
  | case2 pc table byte rest hopcode =>
    cases h
    refine Or.inl ⟨?_, by simp⟩
    rw [scan, hopcode]
  | case3 pc table byte opcode hopcode rest hcount ih =>
    rw [← List.nil_append rest, scan_of_ofByte? hopcode [] rest hcount.symm, Option.map_eq_none_iff]
    exact ih h
  | case4 pc table byte opcode hopcode a rest hcount ih =>
    rw [← List.singleton_append (l := rest), scan_of_ofByte? hopcode [a] rest hcount.symm,
      Option.map_eq_none_iff]
    exact ih h
  | case5 pc table byte opcode hopcode a b rest hcount word target hbad =>
    cases h
    exact Or.inr ⟨pc, target, rfl, hbad.2⟩
  | case6 pc table byte opcode hopcode a b rest hcount word goal hgood target ih =>
    rw [show a :: b :: rest = [a, b] ++ rest from rfl,
      scan_of_ofByte? hopcode [a, b] rest hcount.symm, Option.map_eq_none_iff]
    exact ih h
  | case7 pc table byte rest opcode hopcode h0 h1 h2 =>
    have hlength := length_lt_operandCount h0 h1 h2
    cases h
    refine Or.inl ⟨?_, by simp⟩
    rw [scan, hopcode]
    simp [hlength]

theorem decodeCode_eq_error (h : decodeCode code = .error e) :
    e = .emptyCode ∨ decodeFrom 0 #[] code = .error e ∨
      ∃ table pc target, decodeFrom 0 #[] code = .ok table ∧
        e = .badBranchTarget pc (target : Nat) := by
  unfold decodeCode at h
  split at h
  · cases h
    exact Or.inl rfl
  · rcases bind_error_iff.mp h with hdecode | ⟨table, hdecode, h⟩
    · exact Or.inr (Or.inl hdecode)
    · split at h
      · cases h
        exact Or.inr (Or.inr ⟨table, _, _, hdecode, rfl⟩)
      · cases h

theorem decodeFrom_of_decodeCode (h : decodeCode code = .ok table) :
    decodeFrom 0 #[] code = .ok table := by
  obtain ⟨-, lines, hscan, htargets, hcells⟩ := decodeCode_eq_ok.mp h
  refine decodeFrom_eq_ok.mpr ⟨lines, hscan, fun line hline hbranch => ?_, by simpa using hcells⟩
  obtain ⟨other, -, htarget⟩ := htargets line hline hbranch
  rw [htarget]
  exact Int.natCast_nonneg _

theorem exists_lines_of_decodeFrom {pool : ConstantPool} (h : decodeFrom 0 #[] code = .ok table) :
    ∃ texts, Disassembly.lines pool code = .ok texts := by
  obtain ⟨lines, hscan, -⟩ := decodeFrom_eq_ok.mp h
  exact ⟨_, lines_eq_ok.mpr ⟨lines, hscan, rfl⟩⟩

/-- Where no branch is at fault, disassembly fails as decoding does. -/
theorem exists_error_of_decodeCode {pool : ConstantPool} (h : decodeCode code = .error e)
    (hempty : e ≠ .emptyCode) (hbranch : ∀ pc target, e ≠ .badBranchTarget pc target) :
    ∃ fault, Disassembly.lines pool code = .error fault := by
  have hscan : scan 0 code = none := by
    rcases decodeCode_eq_error h with he | hdecode | ⟨-, pc, target, -, he⟩
    · exact absurd he hempty
    · rcases decodeFrom_eq_error hdecode with ⟨hscan, -⟩ | ⟨pc, target, he, -⟩
      · exact hscan
      · exact absurd he (hbranch pc target)
    · exact absurd he (hbranch pc target)
  rcases hlines : Disassembly.lines pool code with fault | texts
  · exact ⟨fault, rfl⟩
  · obtain ⟨lines, hsome, -⟩ := lines_eq_ok.mp hlines
    rw [hscan] at hsome
    cases hsome

/-- A branch is refused in the linear scan exactly if it goes to a negative offset. -/
theorem nonneg_iff_of_badBranchTarget {target : Int}
    (h : decodeCode code = .error (.badBranchTarget pc target)) :
    0 ≤ target ↔ ∃ table, decodeFrom 0 #[] code = .ok table := by
  rcases decodeCode_eq_error h with he | hdecode | ⟨table, pc', goal, hdecode, he⟩
  · cases he
  · rcases decodeFrom_eq_error hdecode with ⟨-, hne⟩ | ⟨pc', goal, he, hneg⟩
    · exact absurd rfl (hne pc target)
    · cases he
      simp [hdecode, hneg]
  · cases he
    exact iff_of_true (Int.natCast_nonneg _) ⟨table, hdecode⟩

/-- Disassembly lists what verification decodes. It succeeds where the linear scan of the verifier
comes to an end, even if a branch is refused later as its target is no instruction, and it fails
where the verifier finds an unknown or a cut instruction. If no branch goes to a negative offset, the
lines are those of the instructions that the verifier decodes, in order, each with the offset of the
instruction and its operands. -/
theorem listing_agrees (pool : ConstantPool) (code : List UInt8) :
    (∀ table, decodeCode code = .ok table → ∃ texts, Disassembly.lines pool code = .ok texts) ∧
    (∀ pc target, decodeCode code = .error (.badBranchTarget pc target) →
      (0 ≤ target ↔ ∃ table, decodeFrom 0 #[] code = .ok table) ∧
      (0 ≤ target → ∃ texts, Disassembly.lines pool code = .ok texts)) ∧
    (∀ pc opcode, decodeCode code = .error (.unsupportedOpcode pc opcode) →
      ∃ fault, Disassembly.lines pool code = .error fault) ∧
    (∀ pc, decodeCode code = .error (.truncated pc) →
      ∃ fault, Disassembly.lines pool code = .error fault) ∧
    ∀ texts, Disassembly.lines pool code = .ok texts → ∃ instrs, scan 0 code = some instrs ∧
      ((∀ instr ∈ instrs, instr.opcode = .ifNonNull → 0 ≤ instr.target) →
        ∃ table, decodeFrom 0 #[] code = .ok table ∧
          table.insns = instrs.map (fun instr => (instr.pc, instr.insn)) ∧
          texts = table.insns.map fun (pc, insn) => Text.padLeft 4 (toString pc) ++ ": " ++
            (insn.opcode.mnemonic ++ insn.operandText pool)) := by
  refine ⟨fun table h => exists_lines_of_decodeFrom (decodeFrom_of_decodeCode h), fun pc target h => ?_,
    fun pc opcode h => exists_error_of_decodeCode h nofun nofun,
    fun pc h => exists_error_of_decodeCode h nofun nofun, fun texts h => ?_⟩
  · have hiff := nonneg_iff_of_badBranchTarget h
    refine ⟨hiff, fun hnonneg => ?_⟩
    obtain ⟨table, hdecode⟩ := hiff.mp hnonneg
    exact exists_lines_of_decodeFrom hdecode
  · obtain ⟨instrs, hscan, rfl⟩ := lines_eq_ok.mp h
    refine ⟨instrs, hscan, fun hnonneg => ?_⟩
    have hcells : (instrs.flatMap cells).toArray.toList = instrs.flatMap cells := rfl
    have hinsns := insns_eq hscan hcells
    refine ⟨(instrs.flatMap cells).toArray, ?_, hinsns, ?_⟩
    · exact decodeFrom_eq_ok.mpr ⟨instrs, hscan, hnonneg, by simp⟩
    · rw [hinsns, List.map_map]
      refine List.map_congr_left fun instr hinstr => ?_
      rw [listed, ← operandText_insn pool (hnonneg instr hinstr)]
      rfl

theorem listing_agrees_branch : ∃ instrs table,
    scan 0 [0x19, 0xC7, 0x2A, 0xC7, 0, 4, 0xBF, 0xB1] = some instrs ∧
    decodeFrom 0 #[] [0x19, 0xC7, 0x2A, 0xC7, 0, 4, 0xBF, 0xB1] = .ok table ∧
    table.insns.length = 5 ∧
    Disassembly.lines .empty [0x19, 0xC7, 0x2A, 0xC7, 0, 4, 0xBF, 0xB1] =
      .ok ["   0: aload 199", "   2: aload_0", "   3: ifnonnull 7", "   6: athrow", "   7: return"] ∧
    ∃ fault, Disassembly.lines .empty [0x2A, 0xC7, 0] = .error fault := by
  have hlines : Disassembly.lines .empty [0x19, 0xC7, 0x2A, 0xC7, 0, 4, 0xBF, 0xB1] =
      .ok ["   0: aload 199", "   2: aload_0", "   3: ifnonnull 7", "   6: athrow", "   7: return"] := by
    decide +kernel
  have hcut : decodeCode [0x2A, 0xC7, 0] = .error (.truncated 1) := by decide +kernel
  obtain ⟨-, -, -, hfails, -⟩ := listing_agrees .empty [0x2A, 0xC7, 0]
  obtain ⟨-, -, -, -, hlisted⟩ := listing_agrees .empty [0x19, 0xC7, 0x2A, 0xC7, 0, 4, 0xBF, 0xB1]
  obtain ⟨instrs, hscan, hlisted⟩ := hlisted _ hlines
  have hinstrs : scan 0 [0x19, 0xC7, 0x2A, 0xC7, 0, 4, 0xBF, 0xB1] = some
      [⟨0, .load .reference, [0xC7]⟩, ⟨2, .loadAt .reference 0, []⟩, ⟨3, .ifNonNull, [0, 4]⟩,
        ⟨6, .athrow, []⟩, ⟨7, .ret none, []⟩] := by decide +kernel
  rw [hscan, Option.some_inj] at hinstrs
  obtain ⟨table, hdecode, hinsns, -⟩ := hlisted (by rw [hinstrs]; decide)
  exact ⟨instrs, table, hscan, hdecode, by rw [hinsns, hinstrs]; rfl, hlines, hfails 1 hcut⟩

end Verification

end BeanClass
