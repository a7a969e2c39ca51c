import BeanClass.Lowering.Code
import BeanClass.Proofs.ClassFile.RoundTrip
import BeanClass.Proofs.Code.Lines
import BeanClass.Proofs.Lowering.Layout
import BeanClass.Proofs.Lowering.StackMap
import BeanClass.Proofs.Pool.Operations

/-! # Lowered bodies keep their instructions

The lines of a lowered code array are the operations of the body, in order and at the offsets of the
layout, and what they refer to in the pool is what the body names.
-/

namespace BeanClass

open ConstantPool Instruction

variable {p q : ConstantPool} {body : List Instruction} {line : CodeLine}

namespace CodeLine

/-- The line does what the instruction of the body says, where the pool gives names to operands. -/
def Spells (pool : ConstantPool) (body : List Instruction) (line : CodeLine) : Instruction → Prop
  | .load kind slot => line.loaded? = some (kind, slot)
  | .getField field =>
    line.opcode = .getField ∧ (∃ i j, pool.get? line.operand = some (.fieldRef i j)) ∧
      pool.memberRef? line.operand = some field
  | .putField field =>
    line.opcode = .putField ∧ (∃ i j, pool.get? line.operand = some (.fieldRef i j)) ∧
      pool.memberRef? line.operand = some field
  | .invokeSpecial method =>
    line.opcode = .invokeSpecial ∧ (∃ i j, pool.get? line.operand = some (.methodRef i j)) ∧
      pool.memberRef? line.operand = some method
  | .new name => line.opcode = .new ∧ pool.className? line.operand = some name
  | .ret kind => line.opcode = .ret kind
  | .dup => line.opcode = .dup
  | .athrow => line.opcode = .athrow
  | .ifNonNull name =>
    line.opcode = .ifNonNull ∧ (∃ k : Nat, body[k]? = some (.label name)) ∧
      ∀ k : Nat, body[k]? = some (.label name) → line.target = offsetAt body k
  | .label _ | .frame _ _ => False

theorem Spells.grows {ok : ConstantPool → Constant → Prop} {instruction : Instruction}
    (h : line.Spells p body instruction) (hpq : Grows ok p q) : line.Spells q body instruction := by
  cases instruction with
  | getField | putField | invokeSpecial =>
    obtain ⟨hopcode, ⟨i, j, hget⟩, hmember⟩ := h
    exact ⟨hopcode, ⟨i, j, hpq.get? hget⟩, hpq.memberRef? hmember⟩
  | new => exact ⟨h.1, hpq.className? h.2⟩
  | _ => exact h

theorem operand_be16 (pc : Nat) (opcode : Opcode) (n : UInt16) :
    CodeLine.operand ⟨pc, opcode, be16 n⟩ = n :=
  join16_bytes n

end CodeLine

namespace Lowering

theorem loaded?_loadOf {kind : ValueKind} {slot : UInt16} (pc : Nat) (h : slot.toNat ≤ 255) :
    CodeLine.loaded? ⟨pc, (Opcode.loadOf kind slot).1, (Opcode.loadOf kind slot).2.toList⟩ =
      some (kind, slot) := by
  unfold Opcode.loadOf
  split
  · simp [CodeLine.loaded?]
  · have hslot : (UInt8.ofNat slot.toNat).toUInt16 = slot := by
      apply UInt16.toNat_inj.mp
      rw [UInt8.toNat_toUInt16, UInt8.toNat_ofNat', Nat.mod_eq_of_lt (by omega)]
    simp only [CodeLine.loaded?, Option.toList_some, hslot]

theorem length_loadOf (kind : ValueKind) (slot : UInt16) :
    (Opcode.loadOf kind slot).2.toList.length = (Opcode.loadOf kind slot).1.operandCount ∧
      1 + (Opcode.loadOf kind slot).1.operandCount = (Instruction.load kind slot).size := by
  have hle : slot ≤ 3 ↔ slot.toNat < 4 := by
    rw [UInt16.le_iff_toNat_le]
    exact Nat.lt_succ_iff.symm
  unfold Opcode.loadOf size
  simp only [hle]
  split
  · exact ⟨rfl, rfl⟩
  · exact ⟨rfl, rfl⟩

/-- A branch distance that fits into 16 bits is read back as it was. -/
theorem target_of_distance {pc target : Nat}
    (h : ¬((target : Int) - pc < -32768 ∨ 32767 < (target : Int) - pc)) :
    CodeLine.target ⟨pc, .ifNonNull, be16 (Int16.ofInt ((target : Int) - pc)).toUInt16⟩ = target := by
  have hread : (Int16.ofInt ((target : Int) - pc)).toInt = target - pc :=
    Int16.toInt_ofInt_of_le (by omega) (by omega)
  have htoInt : (Int16.ofInt ((target : Int) - pc)).toUInt16.toInt16 =
      Int16.ofInt ((target : Int) - pc) := rfl
  rw [CodeLine.target, CodeLine.operand_be16, htoInt, hread]
  change (pc : Int) + (target - pc) = target
  omega

/-- What emitting one instruction of a body leaves: no bytes for a mark, and otherwise one line. -/
theorem emit_ok {method : String} {layout : Layout} {pc : Nat} {instruction : Instruction}
    {bytes : List UInt8} (hlayout : Layout.ofBody method body = .ok layout) (hp : p.Sound)
    (h : emit method layout pc instruction p = .ok bytes q) :
    Grows Supports p q ∧
      if instruction.isMark then bytes = []
      else ∃ opcode operands, bytes = opcode.toByte :: operands ∧
        operands.length = opcode.operandCount ∧ 1 + operands.length = instruction.size ∧
        CodeLine.Spells q body ⟨pc, opcode, operands⟩ instruction := by
  cases instruction with
  | load kind slot =>
    simp only [emit] at h
    split at h
    · cases h
    · rename_i hslot
      obtain ⟨rfl, rfl⟩ := pure_eq_ok.mp h
      obtain ⟨hlength, hsize⟩ := length_loadOf kind slot
      refine ⟨.refl, _, _, rfl, hlength, hlength ▸ hsize, ?_⟩
      exact loaded?_loadOf pc (by rwa [UInt16.lt_iff_toNat_lt, Nat.not_lt] at hslot)
  | getField field | putField field =>
    obtain ⟨index, r, hadd, h⟩ := bind_eq_ok.mp h
    obtain ⟨rfl, rfl⟩ := pure_eq_ok.mp h
    obtain ⟨hgrows, hget, hmember⟩ := addFieldRef_ok hp hadd
    refine ⟨hgrows, _, _, rfl, rfl, rfl, rfl, ?_⟩
    rw [CodeLine.operand_be16]
    exact ⟨hget, hmember⟩
  | ret kind =>
    obtain ⟨rfl, rfl⟩ := pure_eq_ok.mp h
    exact ⟨.refl, _, [], rfl, by cases kind <;> rfl, rfl, rfl⟩
  | dup | athrow =>
    obtain ⟨rfl, rfl⟩ := pure_eq_ok.mp h
    exact ⟨.refl, _, [], rfl, rfl, rfl, rfl⟩
  | ifNonNull name =>
    cases hfind : layout.find? name with
    | none => simp only [emit, hfind] at h; cases h
    | some target =>
      simp only [emit, hfind] at h
      split at h
      · cases h
      · rename_i hdistance
        obtain ⟨rfl, rfl⟩ := pure_eq_ok.mp h
        obtain ⟨k, hk, -⟩ := (Layout.find?_eq_some hlayout).mp hfind
        refine ⟨.refl, _, _, rfl, rfl, rfl, rfl, ⟨k, hk⟩, fun j hj => ?_⟩
        -- two declarations of the label would be two results of one look-up
        have hsame := (Layout.find?_eq_some hlayout).mpr ⟨j, hj, rfl⟩
        rw [hfind, Option.some_inj] at hsame
        rw [target_of_distance hdistance, hsame]
  | new name =>
    obtain ⟨index, r, hadd, h⟩ := bind_eq_ok.mp h
    obtain ⟨rfl, rfl⟩ := pure_eq_ok.mp h
    obtain ⟨hgrows, hname⟩ := addClass_ok hp hadd
    refine ⟨hgrows, _, _, rfl, rfl, rfl, rfl, ?_⟩
    rw [CodeLine.operand_be16]
    exact hname
  | invokeSpecial target =>
    obtain ⟨index, r, hadd, h⟩ := bind_eq_ok.mp h
    obtain ⟨rfl, rfl⟩ := pure_eq_ok.mp h
    obtain ⟨hgrows, hget, hmember⟩ := addMethodRef_ok hp hadd
    refine ⟨hgrows, _, _, rfl, rfl, rfl, rfl, ?_⟩
    rw [CodeLine.operand_be16]
    exact ⟨hget, hmember⟩
  | label | frame =>
    obtain ⟨rfl, rfl⟩ := pure_eq_ok.mp h
    exact ⟨.refl, rfl⟩

/-- What emitting the rest of a body from offset `pc` on adds to the bytes emitted before. -/
theorem emitAll_ok {method : String} {layout : Layout} {pc : Nat} {emitted : List (List UInt8)}
    {rest : List Instruction} {code : List UInt8} (hlayout : Layout.ofBody method body = .ok layout)
    (hp : p.Sound) (h : emitAll method layout pc emitted rest p = .ok code q) :
    Grows Supports p q ∧ ∃ tail lines, code = emitted.reverse.flatten ++ tail ∧
      CodeLine.scan pc tail = some lines ∧
      List.Forall₂ (CodeLine.Spells q body) lines (operations rest) ∧
      lines.map CodeLine.size = (operations rest).map size ∧
      ∀ k line, lines[k]? = some line → line.pc = pc + offsetAt (operations rest) k := by
  fun_induction emitAll method layout pc emitted rest p with
  | case1 pc emitted p =>
    cases h
    exact ⟨.refl, [], [], by simp, CodeLine.scan_nil pc, .nil, rfl, by simp⟩
  | case2 pc emitted instruction rest p bytes r hemit ih =>
    obtain ⟨hpr, hbytes⟩ := emit_ok hlayout hp hemit
    obtain ⟨hrq, tail, lines, hcode, hscan, hspells, hsizes, hpcs⟩ := ih (hpr.sound hp) h
    refine ⟨hpr.trans hrq, bytes ++ tail, ?_⟩
    have hjoin : code = emitted.reverse.flatten ++ (bytes ++ tail) := by
      simpa using hcode
    split at hbytes
    · rename_i hmark
      subst hbytes
      refine ⟨lines, hjoin, hscan, ?_⟩
      simpa [operations, hmark] using And.intro hspells (And.intro hsizes hpcs)
    · rename_i hmark
      obtain ⟨opcode, operands, rfl, hlength, hsize, hline⟩ := hbytes
      have hoperations : operations (instruction :: rest) = instruction :: operations rest := by
        simp [operations, hmark]
      refine ⟨⟨pc, opcode, operands⟩ :: lines, hjoin, ?_, ?_, ?_, ?_⟩
      · rw [List.cons_append, CodeLine.scan_cons pc opcode operands tail hlength]
        rw [List.length_cons, Nat.add_comm operands.length, ← Nat.add_assoc] at hscan
        rw [hscan, Option.map_some]
      · rw [hoperations]
        exact .cons (hline.grows hrq) hspells
      · rw [hoperations, List.map_cons, List.map_cons, hsizes, ← hsize, hlength]
        rfl
      · rw [hoperations]
        intro k line hk
        cases k with
        | zero => cases hk; rfl
        | succ k =>
          rw [hpcs k line hk, offsetAt_succ, ← hsize, List.length_cons]
          omega
  | case3 => cases h

theorem named_ok {name : String} {info : List UInt8} {a : RawAttribute} (hp : p.Sound)
    (h : named name info p = .ok a q) :
    Grows Supports p q ∧ a.name? q = some name ∧ a.info = info ∧ a.Fits := by
  simp only [named] at h
  split at h
  · cases h
  · rename_i hlength
    obtain ⟨index, r, hadd, h⟩ := bind_eq_ok.mp h
    obtain ⟨rfl, rfl⟩ := pure_eq_ok.mp h
    obtain ⟨hgrows, hname⟩ := addUtf8_ok hp hadd
    exact ⟨hgrows, hname, rfl, Nat.lt_of_not_le hlength⟩

/-- The frames of a body with their offsets. -/
def placedFrames (body : List Instruction) : List (Nat × List FrameType × List FrameType) :=
  ((placed 0 body).filterMap framed?).zip (framesOf body)

/-- The attributes hold a stack map with the given frames, or nothing if there are none. -/
inductive MapShows (pool : ConstantPool) :
    List RawAttribute → List (Nat × List FrameType × List FrameType) → Prop
  | none : MapShows pool [] []
  | table {table : RawAttribute} {found : List StackFrame}
    {frames : List (Nat × List FrameType × List FrameType)} (hne : frames ≠ [])
    (hname : table.name? pool = some "StackMapTable")
    (hinfo : table.info = (StackMap.mk found).encode)
    (hoffsets : StackMap.offsetsFrom 0 found = frames.map Prod.fst)
    (hframes : List.Forall₂ (FrameShows pool) found (frames.map Prod.snd)) :
    MapShows pool [table] frames

theorem MapShows.grows {attributes : List RawAttribute}
    {frames : List (Nat × List FrameType × List FrameType)} (hpq : Grows Supports p q)
    (h : MapShows p attributes frames) : MapShows q attributes frames := by
  cases h with
  | none => exact .none
  | table hne hname hinfo hoffsets hframes =>
    exact .table hne (hpq.utf8? hname) hinfo hoffsets (hframes.imp fun _ _ h => h.grows hpq)

/-- The stack map of a lowered body is read back, if its lists can be counted. -/
theorem MapShows.decode {attributes : List RawAttribute}
    {frames : List (Nat × List FrameType × List FrameType)} (h : MapShows p attributes frames)
    (hlength : frames.length < 0x10000)
    (hfits : ∀ f ∈ frames, f.2.1.length < 0x10000 ∧ f.2.2.length < 0x10000) :
    (frames = [] ∧ attributes = []) ∨ ∃ table t, frames ≠ [] ∧ attributes = [table] ∧
      table.name? p = some "StackMapTable" ∧ StackMap.decode table.info = .ok t ∧
      t.offsets = frames.map Prod.fst ∧
      List.Forall₂ (FrameShows p) t.frames (frames.map Prod.snd) := by
  cases h with
  | none => exact Or.inl ⟨rfl, rfl⟩
  | @table table found frames hne hname hinfo hoffsets hframes =>
    refine Or.inr ⟨table, ⟨found⟩, hne, rfl, hname, ?_, hoffsets, hframes⟩
    rw [hinfo]
    refine StackMap.decode_encode ⟨?_, fun frame hframe => ?_⟩
    · change found.length < 0x10000
      rwa [hframes.length_eq, List.length_map]
    · obtain ⟨types, htypes, hshows⟩ := exists_related hframes hframe
      obtain ⟨f, hf, rfl⟩ := List.mem_map.mp htypes
      exact hshows.fits (hfits f hf).1 (hfits f hf).2

theorem stackMapAttributes_ok {method : String} {attributes : List RawAttribute}
    {frames : List (Nat × List FrameType × List FrameType)} (hp : p.Sound)
    (h : stackMapAttributes method frames p = .ok attributes q) :
    Grows Supports p q ∧ RawAttribute.AllFit attributes ∧ MapShows q attributes frames := by
  cases frames with
  | nil =>
    obtain ⟨rfl, rfl⟩ := pure_eq_ok.mp h
    exact ⟨.refl, by simp [RawAttribute.AllFit], .none⟩
  | cons frame frames =>
    obtain ⟨found, r, hfound, h⟩ := bind_eq_ok.mp h
    obtain ⟨table, s, htable, h⟩ := bind_eq_ok.mp h
    obtain ⟨rfl, rfl⟩ := pure_eq_ok.mp h
    obtain ⟨hpr, hoffsets, hframes⟩ := stackFrames_ok hp hfound
    obtain ⟨hrs, hname, hinfo, hfits⟩ := named_ok (hpr.sound hp) htable
    refine ⟨hpr.trans hrs, by simpa [RawAttribute.AllFit] using hfits, ?_⟩
    exact .table (List.cons_ne_nil _ _) hname hinfo hoffsets
      (hframes.imp fun _ _ h => h.grows hrs)

/-- The attribute is a `Code` attribute with the given lines, which say what the body says. -/
structure Lowers (pool : ConstantPool) (a : RawAttribute) (m : MethodModel) (c : CodeAttribute)
    (lines : List CodeLine) : Prop where
  name : a.name? pool = some "Code"
  fits : a.Fits
  decode : CodeAttribute.decode a.info = .ok c
  maxStack : c.maxStack = m.maxStack
  maxLocals : c.maxLocals = m.maxLocals
  exceptions : c.exceptions = []
  attributes : MapShows pool c.attributes (placedFrames m.body)
  scan : CodeLine.scan 0 c.code = some lines
  spells : List.Forall₂ (CodeLine.Spells pool m.body) lines (operations m.body)
  sizes : lines.map CodeLine.size = (operations m.body).map size
  pcs : ∀ k line, lines[k]? = some line → line.pc = offsetAt (operations m.body) k

theorem Lowers.grows {a : RawAttribute} {m : MethodModel} {c : CodeAttribute}
    {lines : List CodeLine} (h : Lowers p a m c lines) (hpq : Grows Supports p q) :
    Lowers q a m c lines :=
  { h with
    name := hpq.utf8? h.name
    attributes := h.attributes.grows hpq
    spells := h.spells.imp fun _ _ h => h.grows hpq }

theorem codeAttribute_ok {m : MethodModel} {a : RawAttribute} (hp : p.Sound)
    (h : codeAttribute m p = .ok a q) :
    Grows Supports p q ∧ ∃ c lines, Lowers q a m c lines := by
  cases hlayout : Layout.ofBody m.name m.body with
  | error => simp only [codeAttribute, hlayout] at h; cases h
  | ok layout =>
    simp only [codeAttribute, hlayout] at h
    obtain ⟨code, r, hcode, h⟩ := bind_eq_ok.mp h
    split at h
    · cases h
    · rename_i hlength
      obtain ⟨attributes, s, hattributes, h⟩ := bind_eq_ok.mp h
      obtain ⟨hpr, _, lines, rfl, hscan, hspells, hsizes, hpcs⟩ := emitAll_ok hlayout hp hcode
      obtain ⟨hrs, hall, hmap⟩ := stackMapAttributes_ok (hpr.sound hp) hattributes
      obtain ⟨hsq, hname, hinfo, hfits⟩ := named_ok (hrs.sound (hpr.sound hp)) h
      rw [(Layout.ofBody_eq_ok hlayout).2.1] at hmap
      refine ⟨(hpr.trans hrs).trans hsq, ⟨m.maxStack, m.maxLocals, code, [], attributes⟩, lines, ?_⟩
      exact {
        name := hname
        fits := hfits
        decode := by
          rw [hinfo]
          refine CodeAttribute.decode_encode ⟨?_, by simp, hall⟩
          exact Nat.lt_of_le_of_lt (Nat.le_of_not_lt hlength) (by decide)
        maxStack := rfl
        maxLocals := rfl
        exceptions := rfl
        attributes := hmap.grows hsq
        scan := hscan
        spells := hspells.imp fun _ _ h => h.grows (hrs.trans hsq)
        sizes := hsizes
        pcs := fun k line hk => (hpcs k line hk).trans (Nat.zero_add _) }

/-- A lowered body is read back as the operations of the body, in order and without gaps. -/
theorem codeAttribute_lines {m : MethodModel} {a : RawAttribute} (hp : p.Reachable)
    (h : codeAttribute m p = .ok a q) :
    ∃ c lines, CodeAttribute.decode a.info = .ok c ∧ c.maxStack = m.maxStack ∧
      c.maxLocals = m.maxLocals ∧ c.exceptions = [] ∧ CodeLine.scan 0 c.code = some lines ∧
      List.Forall₂ (CodeLine.Spells q m.body) lines (operations m.body) ∧
      ∀ k line, lines[k]? = some line → line.pc = offsetAt (operations m.body) k := by
  obtain ⟨-, c, lines, hlowers⟩ := codeAttribute_ok hp.sound h
  exact ⟨c, lines, hlowers.decode, hlowers.maxStack, hlowers.maxLocals, hlowers.exceptions,
    hlowers.scan, hlowers.spells, hlowers.pcs⟩

/-- A body that branches back over a field access to a label with a frame. -/
def fieldLoop : MethodModel where
  access := 0
  name := "f"
  descriptor := "()V"
  signature := none
  maxStack := 1
  maxLocals := 5
  body := [.label 1, .frame [.object "A"] [], .load .reference 4, .getField ⟨"A", "x", "LA;"⟩,
    .ifNonNull 1, .ret none]

theorem exists_codeAttribute_fieldLoop : ∃ a q, codeAttribute fieldLoop empty = .ok a q := by
  simp +decide [codeAttribute, fieldLoop, Layout.ofBody, Layout.ofBodyFrom, emitAll, emit, bind,
    EStateM.bind, pure, EStateM.pure, addFieldRef, addClass, addUtf8, addNameAndType, add, push,
    empty, count, stackMapAttributes, framesOf, stackFrames, slotType, named, Opcode.loadOf,
    Layout.find?, Std.ExtHashMap.getElem?_insertIfNew, -getElem?_pos]

theorem codeAttribute_lines_fieldLoop : ∃ a q, codeAttribute fieldLoop empty = .ok a q ∧
    ∃ c lines, CodeAttribute.decode a.info = .ok c ∧ c.maxStack = 1 ∧ c.maxLocals = 5 ∧
      c.exceptions = [] ∧ CodeLine.scan 0 c.code = some lines ∧
      List.Forall₂ (CodeLine.Spells q fieldLoop.body) lines (operations fieldLoop.body) ∧
      ∀ k line, lines[k]? = some line → line.pc = offsetAt (operations fieldLoop.body) k := by
  obtain ⟨a, q, h⟩ := exists_codeAttribute_fieldLoop
  exact ⟨a, q, h, codeAttribute_lines ⟨[], rfl⟩ h⟩

end Lowering

end BeanClass
