import BeanClass.Proofs.Lowering.Class
import BeanClass.Proofs.Lowering.Lowerable

/-! # Counts of an encoded class

A class is lowered exactly if its fields and methods can be counted, every body can be lowered and the
pool takes all constants. The entries of a frame are written behind a count that is not checked: where
they can be counted, the frame is read back with all of them, and where they cannot, the count is
written modulo 65536.
-/

namespace BeanClass

open ConstantPool Lowering

variable {p q : ConstantPool}

/-- The calls that lower an optional text attribute. -/
def textCalls (name : String) (text : Option String) : List Call :=
  text.elim [] fun text => [.addUtf8 text, .addUtf8 name]

def FieldModel.calls (f : FieldModel) : List Call :=
  [.addUtf8 f.name, .addUtf8 f.descriptor] ++ textCalls "Signature" f.signature

def MethodModel.calls (m : MethodModel) : List Call :=
  [.addUtf8 m.name, .addUtf8 m.descriptor] ++ (constants m.body ++ textCalls "Signature" m.signature)

/-- The calls that lower a class, in order. -/
def ClassModel.calls (model : ClassModel) : List Call :=
  [.addClass model.internalName, .addClass model.superName] ++
    (model.fields.flatMap FieldModel.calls ++ (model.methods.flatMap MethodModel.calls ++
      (textCalls "Signature" model.signature ++ textCalls "SourceFile" model.sourceFile)))

/-- The members of the class can be counted, and the class file format can state their bodies. -/
structure ClassModel.Countable (model : ClassModel) : Prop where
  fields : model.fields.length ≤ maxEntries
  methods : model.methods.length ≤ maxEntries
  bodies : ∀ m ∈ model.methods, Lowerable m.body ∧ codeSize m.body < 0x100000000

namespace Lowering

theorem succeedsIff_textAttribute (name text : String) :
    SucceedsIff (textAttribute name text) True [.addUtf8 text, .addUtf8 name] := by
  have hindex : ∀ index : UInt16, SucceedsIff (named name (be16 index)) True [.addUtf8 name] :=
    fun index => (succeedsIff_named name _).congr
      (iff_of_true (show 2 < 0x100000000 by decide) trivial)
  exact ((Call.succeedsIff (.addUtf8 text)).bind fun {_ index _} _ => hindex index).congr
    (iff_of_eq (and_true _))

theorem succeedsIff_optionalText (name : String) (text : Option String) :
    SucceedsIff (text.elim (pure []) fun text => textAttribute name text >>= fun a => pure [a])
      True (textCalls name text) := by
  cases text with
  | none => exact succeedsIff_pure []
  | some text => exact (succeedsIff_textAttribute name text).map ([·])

theorem succeedsIff_signatureAttributes (text : Option String) :
    SucceedsIff (signatureAttributes text) True (textCalls "Signature" text) := by
  have h := succeedsIff_optionalText "Signature" text
  cases text <;> exact h

theorem succeedsIff_sourceAttributes (text : Option String) :
    SucceedsIff (sourceAttributes text) True (textCalls "SourceFile" text) := by
  have h := succeedsIff_optionalText "SourceFile" text
  cases text <;> exact h

theorem succeedsIff_field (f : FieldModel) : SucceedsIff (field f) True f.calls := by
  have h := (Call.succeedsIff (.addUtf8 f.name)).bind fun {_ name _} _ =>
    (Call.succeedsIff (.addUtf8 f.descriptor)).bind fun {_ descriptor _} _ =>
      (succeedsIff_signatureAttributes f.signature).map (Member.mk f.access name descriptor ·)
  exact h.congr (by simp only [and_true])

theorem succeedsIff_method (m : MethodModel) :
    SucceedsIff (method m) (Lowerable m.body ∧ codeSize m.body < 0x100000000) m.calls := by
  have h := (Call.succeedsIff (.addUtf8 m.name)).bind fun {_ name _} _ =>
    (Call.succeedsIff (.addUtf8 m.descriptor)).bind fun {_ descriptor _} _ =>
      (succeedsIff_codeAttribute m).bind fun {_ code _} _ =>
        (succeedsIff_signatureAttributes m.signature).map
          fun rest => Member.mk m.access name descriptor (code :: rest)
  exact h.congr (by simp only [and_true, true_and])

theorem succeedsIff_checkCount (what : String) (count : Nat) :
    SucceedsIff (checkCount what count) (count ≤ maxEntries) [] := by
  unfold checkCount
  split
  · exact succeedsIff_throw (Nat.not_le.mpr ‹_›)
  · exact (succeedsIff_pure ()).congr (iff_of_true trivial (Nat.le_of_not_lt ‹_›))

/-- Lowering a class succeeds exactly if its members can be counted, its bodies can be lowered and the
pool takes its constants. -/
theorem succeedsIff_classFileM (major : UInt16) (model : ClassModel) :
    SucceedsIff (classFileM major model) model.Countable model.calls := by
  have h := (succeedsIff_checkCount "fields" model.fields.length).bind fun _ =>
    (succeedsIff_checkCount "methods" model.methods.length).bind fun _ =>
      (Call.succeedsIff (.addClass model.internalName)).bind fun {_ thisClass _} _ =>
        (Call.succeedsIff (.addClass model.superName)).bind fun {_ superClass _} _ =>
          (SucceedsIff.mapM succeedsIff_field model.fields).bind fun {_ fields _} _ =>
            (SucceedsIff.mapM succeedsIff_method model.methods).bind fun {_ methods _} _ =>
              (succeedsIff_signatureAttributes model.signature).bind fun {_ signature _} _ =>
                (succeedsIff_sourceAttributes model.sourceFile).bind fun {_ sourceFile _} _ =>
                  succeedsIff_get.map fun pool => ClassFile.mk classMagic 0 major pool model.access
                    thisClass superClass [] fields methods (signature ++ sourceFile)
  rw [List.append_nil] at h
  refine h.congr ⟨fun ⟨hfields, hmethods, _, _, _, hbodies, _⟩ => ⟨hfields, hmethods, hbodies⟩,
    fun hcount => ⟨hcount.fields, hcount.methods, trivial, trivial, fun _ _ => trivial, hcount.bodies,
      trivial, trivial, trivial⟩⟩

theorem exists_classFile_iff {major : UInt16} {model : ClassModel} :
    (∃ cf, classFile major model = .ok cf) ↔ model.Countable ∧ ∃ q, Adds model.calls empty q := by
  have hstep : (∃ cf, classFile major model = .ok cf) ↔
      ∃ q cf, classFileM major model empty = .ok cf q := by
    unfold classFile
    rcases classFileM major model empty with ⟨cf, q⟩ | ⟨e, q⟩ <;> simp
  simp only [hstep, succeedsIff_classFileM major model empty, exists_and_left]

theorem classFile_fields {major : UInt16} {model : ClassModel}
    (h : maxEntries < model.fields.length) :
    classFile major model = .error (.tooMany "fields" model.fields.length) := by
  rw [classFile, classFileM, checkCount, if_pos h]
  rfl

theorem classFile_methods {major : UInt16} {model : ClassModel}
    (hfields : model.fields.length ≤ maxEntries) (h : maxEntries < model.methods.length) :
    classFile major model = .error (.tooMany "methods" model.methods.length) := by
  rw [classFile, classFileM, checkCount, if_neg (Nat.not_lt.mpr hfields), checkCount, if_pos h]
  rfl

/-- No two frames have the same offset, so that there are at most as many frames as offsets. -/
theorem Lowerable.length_framesOf_le {body : List Instruction} (h : Lowerable body) :
    (framesOf body).length ≤ 65536 := by
  have hsub : Instruction.frameOffsets body ⊆ List.range 65536 := by
    intro offset hoffset
    exact List.mem_range.mpr
      (Nat.lt_succ_of_le ((Instruction.le_of_mem_frameOffsets hoffset).trans h.size_le))
  have hle := (List.subperm_of_subset h.apart hsub).length_le
  rwa [← length_framesOf, List.length_range] at hle

/-- A full frame with as many entries as a body declares. -/
def SameCounts (frame : StackFrame) (types : List FrameType × List FrameType) : Prop :=
  ∃ delta locals stack, frame = .full delta locals stack ∧
    locals.length = types.1.length ∧ stack.length = types.2.length

/-- The frames of the body and their entries can be counted in 16 bits. -/
structure FramesFit (body : List Instruction) : Prop where
  frames : (framesOf body).length ≤ 65535
  entries : ∀ locals stack, .frame locals stack ∈ body → locals.length ≤ 65535 ∧ stack.length ≤ 65535

/-- The body of the method is read back with as many frames as the model has, each with as many
entries. -/
def CountsFrames (pool : ConstantPool) (f : Member) (m : MethodModel) : Prop :=
  ∃ a ∈ f.attributes, ∃ c, a.name? pool = some "Code" ∧ CodeAttribute.decode a.info = .ok c ∧
    ((framesOf m.body = [] ∧ c.attributes = []) ∨ ∃ table t, c.attributes = [table] ∧
      table.name? pool = some "StackMapTable" ∧ StackMap.decode table.info = .ok t ∧
      List.Forall₂ SameCounts t.frames (framesOf m.body))

theorem FrameShows.sameCounts {frame : StackFrame} {types : List FrameType × List FrameType}
    (h : FrameShows p frame types) : SameCounts frame types := by
  obtain ⟨delta, locals, stack, hframe, hlocals, hstack⟩ := h
  exact ⟨delta, locals, stack, hframe, hlocals.length_eq, hstack.length_eq⟩

theorem countsFrames_of_shows {f : Member} {m : MethodModel} (h : f.ShowsMethod p m)
    (hfit : FramesFit m.body) : CountsFrames p f m := by
  obtain ⟨a, rest, hattributes, ⟨c, lines, hlowers⟩, -⟩ := h.attributes
  obtain ⟨hlength, hentries⟩ := placedFrames_fit hfit.frames hfit.entries
  refine ⟨a, hattributes ▸ List.mem_cons_self, c, hlowers.name, hlowers.decode, ?_⟩
  rcases hlowers.attributes.decode hlength hentries with ⟨hnone, hattributes⟩ |
    ⟨table, t, -, hattributes, hname, hdecode, -, hframes⟩
  · rw [← types_placedFrames, hnone]
    exact Or.inl ⟨rfl, hattributes⟩
  · rw [types_placedFrames] at hframes
    exact Or.inr ⟨table, t, hattributes, hname, hdecode, hframes.imp fun _ _ h => h.sameCounts⟩

end Lowering

/-- Members are counted before anything is lowered, and a body has no more frames than offsets. What is
encoded is read back with as many members as the model has, and with as many frames and entries of
frames where these can be counted. Without verification, no other count is checked. -/
theorem ClassModel.encode_counts (model : ClassModel) (config : Config) :
    (65535 < model.fields.length →
      model.encode config = .error (.lowering (.tooMany "fields" model.fields.length))) ∧
    (model.fields.length ≤ 65535 → 65535 < model.methods.length →
      model.encode config = .error (.lowering (.tooMany "methods" model.methods.length))) ∧
    (∀ m ∈ model.methods, 65536 < (framesOf m.body).length →
      ∃ fault, model.encode config = .error fault) ∧
    (config.verify = false → ((∃ bytes, model.encode config = .ok bytes) ↔
      model.Countable ∧ ∃ q, Adds model.calls empty q)) ∧
    ∀ bytes, model.encode config = .ok bytes → ∃ cf, ClassFile.decode bytes = .ok cf ∧
      cf.fields.length = model.fields.length ∧ cf.methods.length = model.methods.length ∧
      List.Forall₂ (fun f m => FramesFit m.body → CountsFrames cf.pool f m) cf.methods
        model.methods := by
  refine ⟨fun h => ?_, fun hfields h => ?_, fun m hm h => ?_, fun hverify => ?_, fun bytes h => ?_⟩
  · rw [encode, classFile_fields h]
    rfl
  · rw [encode, classFile_methods hfields h]
    rfl
  · rcases hencode : model.encode config with fault | bytes
    · exact ⟨fault, rfl⟩
    · obtain ⟨cf, hclass, -⟩ := encode_eq_ok hencode
      obtain ⟨hcount, -⟩ := exists_classFile_iff.mp ⟨cf, hclass⟩
      exact absurd (hcount.bodies m hm).1.length_framesOf_le (Nat.not_le.mpr h)
  · rw [← @exists_classFile_iff config.major]
    constructor
    · rintro ⟨bytes, h⟩
      obtain ⟨cf, hclass, -⟩ := encode_eq_ok h
      exact ⟨cf, hclass⟩
    · rintro ⟨cf, hclass⟩
      exact ⟨cf.encode, by rw [encode_of_ok hclass, hverify]; rfl⟩
  · obtain ⟨cf, hclass, rfl⟩ := encode_eq_ok h
    obtain ⟨-, -, -, -, hshows, hdecode⟩ := classFile_ok hclass
    exact ⟨cf, hdecode, hshows.fields.length_eq, hshows.methods.length_eq,
      hshows.methods.imp fun f m hm hfit => countsFrames_of_shows hm hfit⟩

/-- A class with one frame, in which `n` local variables hold numbers of two slots. -/
def ClassModel.wideFrame (n : Nat) : ClassModel where
  access := 0x21
  internalName := "A"
  superName := rootClass
  signature := none
  sourceFile := none
  fields := []
  methods := [⟨1, "m", "()V", none, 0, 1,
    [.label 0, .frame (List.replicate n .long) [], .ret none]⟩]

theorem ClassModel.calls_wideFrame (n : Nat) : (wideFrame n).calls =
    [.addClass "A", .addClass "java/lang/Object", .addUtf8 "m", .addUtf8 "()V",
      .addUtf8 "StackMapTable", .addUtf8 "Code"] := by
  have hlocals : (List.replicate n FrameType.long).flatMap FrameType.calls = [] :=
    List.flatMap_eq_nil_iff.mpr fun type h => by rw [List.eq_of_mem_replicate h]; rfl
  simp [calls, wideFrame, MethodModel.calls, constants, framesOf, mapCalls, frameCalls, hlocals,
    Instruction.calls, textCalls, rootClass]

theorem ClassModel.exists_adds_wideFrame (n : Nat) : ∃ q, Adds (wideFrame n).calls empty q := by
  rw [calls_wideFrame]
  simp +decide [Adds, Call.run, bind, EStateM.bind, pure, EStateM.pure, addClass, addUtf8, add, push,
    empty, count, -getElem?_pos]

theorem lowerable_wideFrame (locals : List FrameType) :
    Lowerable [.label 0, .frame locals [], .ret none] where
  labels := List.nodup_singleton 0
  targets := by simp
  frames k _ _ hk := by
    rcases k with _ | _ | _ | k
    · cases hk
    · exact ⟨0, 0, rfl, rfl⟩
    · cases hk
    · cases hk
  apart := List.nodup_singleton 0
  slots := by simp
  reach i _ _ hi _ := by
    have hmem := List.mem_of_getElem? hi
    simp at hmem
  size_le := (by decide : 1 ≤ 65535)

theorem ClassModel.countable_wideFrame {n : Nat} (hn : n ≤ 65536) : (wideFrame n).Countable where
  fields := Nat.zero_le _
  methods := (by decide : 1 ≤ maxEntries)
  bodies m hm := by
    cases List.mem_singleton.mp hm
    refine ⟨lowerable_wideFrame _, ?_⟩
    have hsize : codeSize [.label 0, .frame (List.replicate n .long) [], .ret none] = 28 + n := by
      simp [codeSize, framesOf, stackMapSize, frameSize, FrameType.entrySize, Instruction.size]
      omega
    rw [hsize]
    omega

theorem Lowering.MapShows.exists_table {attributes : List RawAttribute}
    {frames : List (Nat × List FrameType × List FrameType)} (h : MapShows p attributes frames)
    (hne : frames ≠ []) : ∃ table found, attributes = [table] ∧
      table.name? p = some "StackMapTable" ∧ table.info = (StackMap.mk found).encode ∧
      List.Forall₂ (FrameShows p) found (frames.map Prod.snd) := by
  cases h with
  | none => exact absurd rfl hne
  | table _ hname hinfo _ hframes => exact ⟨_, _, rfl, hname, hinfo, hframes⟩

/-- The count in front of the local variables of a frame is written without a check. -/
theorem ClassModel.encode_wideFrame {n : Nat} (hn : n ≤ 65536) :
    (∃ m ∈ (wideFrame n).methods, ∃ locals, .frame locals [] ∈ m.body ∧ locals.length = n) ∧
    ∃ bytes cf f a c table delta rest,
    (wideFrame n).encode { verify := false } = .ok bytes ∧ ClassFile.decode bytes = .ok cf ∧
    cf.methods = [f] ∧ a ∈ f.attributes ∧ CodeAttribute.decode a.info = .ok c ∧
    c.attributes = [table] ∧ table.name? cf.pool = some "StackMapTable" ∧
    table.info = count16 1 ++ 255 :: (be16 delta ++ (count16 n ++ rest)) := by
  obtain ⟨cf, hclass⟩ :=
    (@exists_classFile_iff 51 _).mpr ⟨countable_wideFrame hn, exists_adds_wideFrame n⟩
  obtain ⟨-, -, -, -, hshows, hdecode⟩ := classFile_ok hclass
  have hencode : (wideFrame n).encode { verify := false } = .ok cf.encode := encode_of_ok hclass
  obtain ⟨f, _, hf, hnil, hmethods⟩ := List.forall₂_cons_right_iff.mp hshows.methods
  obtain rfl := List.forall₂_nil_right_iff.mp hnil
  obtain ⟨a, _, hattributes, ⟨c, lines, hlowers⟩, -⟩ := hf.attributes
  have hplaced := types_placedFrames [.label 0, .frame (List.replicate n .long) [], .ret none]
  obtain ⟨table, found, htable, hname, hinfo, hframes⟩ :=
    hlowers.attributes.exists_table fun hnil => by rw [hnil] at hplaced; cases hplaced
  rw [hplaced] at hframes
  obtain ⟨frame, _, ⟨delta, locals, stack, rfl, hlocals, -⟩, hnil, rfl⟩ :=
    List.forall₂_cons_right_iff.mp hframes
  obtain rfl := List.forall₂_nil_right_iff.mp hnil
  have hlength : locals.length = n := hlocals.length_eq.trans List.length_replicate
  have hframe : .frame (List.replicate n .long) [] ∈
      [Instruction.label 0, .frame (List.replicate n .long) [], .ret none] :=
    List.mem_cons_of_mem _ List.mem_cons_self
  have hbytes : (StackMap.mk [.full delta locals stack]).encode = count16 1 ++
      255 :: (be16 delta ++ (count16 n ++ (StackFrame.encodeTypes locals ++
        (count16 stack.length ++ StackFrame.encodeTypes stack)))) := by
    simp [StackMap.encode, StackFrame.encode, hlength]
  exact ⟨⟨_, List.mem_cons_self, _, hframe, List.length_replicate⟩, cf.encode, cf, f, a, c, table,
    delta, _, hencode, hdecode, hmethods, hattributes ▸ List.mem_cons_self, hlowers.decode, htable,
    hname, hinfo.trans hbytes⟩

/-- A frame with 65536 local variables is encoded behind the count 0. -/
theorem ClassModel.encode_wraps_count :
    (∃ m ∈ (wideFrame 65536).methods, ∃ locals, .frame locals [] ∈ m.body ∧ locals.length = 65536) ∧
    ∃ bytes cf f a c table delta rest,
    (wideFrame 65536).encode { verify := false } = .ok bytes ∧ ClassFile.decode bytes = .ok cf ∧
    cf.methods = [f] ∧ a ∈ f.attributes ∧ CodeAttribute.decode a.info = .ok c ∧
    c.attributes = [table] ∧ table.name? cf.pool = some "StackMapTable" ∧
    table.info = count16 1 ++ 255 :: (be16 delta ++ (be16 0 ++ rest)) :=
  encode_wideFrame (Nat.le_refl 65536)

end BeanClass
