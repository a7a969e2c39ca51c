import BeanClass.ClassFile.Basic
import BeanClass.Proofs.Binary.Reading
import BeanClass.Proofs.Pool.Operations
import BeanClass.Proofs.Text.ModifiedUtf8

/-! # Class files are read back

Every section of a class file is read back from its bytes, if the counts in front of its lists and
texts can state their lengths. A pool is rebuilt by pushing its constants again.
-/

namespace BeanClass

open Reader

/-- A text is short enough for the length in front of it. -/
def Constant.Fits : Constant → Prop
  | .utf8 text => (Text.encode text.toList).length < 0x10000
  | _ => True

theorem Constant.reads_text {text : String} {index : Nat} (h : Constant.Fits (.utf8 text)) :
    Reads (Constant.read index) (Constant.encode (.utf8 text)) (.utf8 text) := by
  refine (reads_u8 1).bind ((reads_u16 _).bind ?_)
  rw [UInt16.toNat_ofNat_of_lt' h]
  refine (reads_bytes _).last ?_
  simp only [Text.decode?_encode, String.ofList_toList]
  exact reads_pure _

theorem Constant.reads {c : Constant} (index : Nat) (h : c.Fits) :
    Reads (Constant.read index) c.encode c := by
  cases c with
  | utf8 text => exact reads_text h
  | integer value => exact (reads_u8 3).bind (reads_u32 _).map
  | float bits => exact (reads_u8 4).bind (reads_u32 _).map
  | long value => exact (reads_u8 5).bind (reads_u64 _).map
  | double bits => exact (reads_u8 6).bind (reads_u64 _).map
  | classRef i => exact (reads_u8 7).bind (reads_u16 _).map
  | string i => exact (reads_u8 8).bind (reads_u16 _).map
  | fieldRef i j => exact (reads_u8 9).bind ((reads_u16 _).bind (reads_u16 _).map)
  | methodRef i j => exact (reads_u8 10).bind ((reads_u16 _).bind (reads_u16 _).map)
  | interfaceMethodRef i j => exact (reads_u8 11).bind ((reads_u16 _).bind (reads_u16 _).map)
  | nameAndType i j => exact (reads_u8 12).bind ((reads_u16 _).bind (reads_u16 _).map)
  | methodHandle kind i => exact (reads_u8 15).bind ((reads_u8 _).bind (reads_u16 _).map)
  | methodType i => exact (reads_u8 16).bind (reads_u16 _).map
  | dynamic i j => exact (reads_u8 17).bind ((reads_u16 _).bind (reads_u16 _).map)
  | invokeDynamic i j => exact (reads_u8 18).bind ((reads_u16 _).bind (reads_u16 _).map)
  | module i => exact (reads_u8 19).bind (reads_u16 _).map
  | package i => exact (reads_u8 20).bind (reads_u16 _).map

namespace ConstantPool

variable {p q r : ConstantPool} {c : Constant} {i : UInt16}

/-- The bytes of the constants, in the order of the slots. -/
def body (p : ConstantPool) : List UInt8 :=
  p.slots.toList.flatMap fun slot => slot.elim [] Constant.encode

theorem encode_eq (p : ConstantPool) : p.encode = count16 p.count ++ p.body := by
  have hslots : ∀ (slots : List (Option Constant)) (n : Nat),
      ((slots.zipIdx n).filterMap fun x => x.1.map fun constant => (UInt16.ofNat x.2, constant)).flatMap
          (fun entry => entry.2.encode) =
        slots.flatMap fun slot => slot.elim [] Constant.encode := by
    intro slots
    induction slots with
    | nil => intro n; rfl
    | cons slot slots ih =>
      intro n
      cases slot <;> simp [ih]
  exact congrArg (count16 p.count ++ ·) (hslots p.slots.toList 1)

theorem body_push (h : push c p = .ok i q) : q.body = p.body ++ c.encode := by
  obtain ⟨-, -, hslots, -⟩ := push_eq_ok h
  unfold body
  rw [hslots]
  split <;> simp

theorem readSlots_step (h : push c p = .ok i q) (hc : c.Fits) (left offset : Nat)
    (rest : List UInt8) :
    readSlots (c.width + left) p ⟨offset, c.encode ++ rest⟩ =
      readSlots left q ⟨offset + c.encode.length, rest⟩ := by
  have hread := Constant.reads p.count hc offset rest
  unfold Constant.width
  split
  · rename_i hwide
    rw [show 2 + left = left + 1 + 1 by omega, readSlots]
    simp only [hread, h, hwide, if_true]
  · rename_i hwide
    rw [show 1 + left = left + 1 by omega, readSlots]
    simp only [hread, h, hwide]
    simp

/-- Reading the constants of a pool into an empty one pushes them again. -/
theorem readSlots_body {ok : ConstantPool → Constant → Prop} (hok : ∀ q c, ok q c → c.Fits)
    (h : Grows ok empty p) (left offset : Nat) (rest : List UInt8) :
    readSlots (p.count - 1 + left) empty ⟨offset, p.body ++ rest⟩ =
      readSlots left p ⟨offset + p.body.length, rest⟩ := by
  induction h generalizing left offset rest with
  | refl => simp [count, empty, body]
  | @push q r c i _ hc hpush ih =>
    have hcount : r.count - 1 + left = q.count - 1 + (c.width + left) := by
      have hq : 1 ≤ q.count := Nat.le_add_left ..
      rw [count_push hpush]
      omega
    rw [body_push hpush, hcount, List.append_assoc, ih, readSlots_step hpush (hok _ _ hc),
      List.length_append, Nat.add_assoc]

theorem reads {ok : ConstantPool → Constant → Prop} (hok : ∀ q c, ok q c → c.Fits)
    (h : Grows ok empty p) : Reads read p.encode p := by
  have hcount : (UInt16.ofNat p.count).toNat = p.count :=
    UInt16.toNat_ofNat_of_lt' (Nat.lt_succ_of_le (h.sound sound_empty).count_le)
  rw [encode_eq]
  refine (reads_u16 _).bind ?_
  have hne : UInt16.ofNat p.count ≠ 0 := by
    intro h0
    rw [h0] at hcount
    simp [count] at hcount
  simp only [hne, if_false, hcount]
  intro offset rest
  have hread := readSlots_body hok h 0 offset rest
  simpa only [Nat.add_zero, readSlots] using hread

end ConstantPool

namespace RawAttribute

/-- The payload is short enough for the length in front of it. -/
def Fits (a : RawAttribute) : Prop :=
  a.info.length < 0x100000000

theorem reads {a : RawAttribute} (h : a.Fits) : Reads read a.encode a := by
  rw [encode, List.append_assoc]
  refine (reads_u16 _).bind ((reads_u32 _).bind ?_)
  rw [UInt32.toNat_ofNat_of_lt' h]
  exact (reads_bytes _).map

/-- The list and its items can be counted. -/
def AllFit (attributes : List RawAttribute) : Prop :=
  attributes.length < 0x10000 ∧ ∀ a ∈ attributes, a.Fits

theorem reads_all {attributes : List RawAttribute} (h : AllFit attributes) :
    Reads readAll (encodeAll attributes) attributes :=
  reads_counted attributes h.1 fun a ha => reads (h.2 a ha)

end RawAttribute

theorem ExceptionEntry.reads (e : ExceptionEntry) : Reads ExceptionEntry.read e.encode e := by
  simp only [ExceptionEntry.encode, List.append_assoc]
  exact (reads_u16 _).bind ((reads_u16 _).bind ((reads_u16 _).bind (reads_u16 _).map))

namespace CodeAttribute

/-- All counts and lengths of the payload can be stated. -/
structure Fits (c : CodeAttribute) : Prop where
  code : c.code.length < 0x100000000
  exceptions : c.exceptions.length < 0x10000
  attributes : RawAttribute.AllFit c.attributes

theorem decode_encode {c : CodeAttribute} (h : c.Fits) : decode c.encode = .ok c := by
  have hreads : Reads read c.encode c := by
    simp only [encode, List.append_assoc]
    refine (reads_u16 _).bind ((reads_u16 _).bind ((reads_u32 _).bind ?_))
    rw [UInt32.toNat_ofNat_of_lt' h.code]
    refine (reads_bytes _).bind ?_
    rw [← List.append_assoc]
    exact (reads_counted c.exceptions h.exceptions fun e _ => e.reads).bind
      (RawAttribute.reads_all h.attributes).map
  rw [decode, hreads.runAll]
  rfl

end CodeAttribute

theorem Member.reads {m : Member} (h : RawAttribute.AllFit m.attributes) :
    Reads Member.read m.encode m := by
  simp only [Member.encode, List.append_assoc]
  exact (reads_u16 _).bind ((reads_u16 _).bind ((reads_u16 _).bind (RawAttribute.reads_all h).map))

namespace ClassFile

/-- A class file that its counts and lengths can describe, with a pool that grew from the empty
one. -/
structure Fits (cf : ClassFile) : Prop where
  magic : cf.magic = classMagic
  pool : ConstantPool.Grows (fun _ c => c.Fits) ConstantPool.empty cf.pool
  interfaces : cf.interfaces.length < 0x10000
  fields : cf.fields.length < 0x10000 ∧ ∀ m ∈ cf.fields, RawAttribute.AllFit m.attributes
  methods : cf.methods.length < 0x10000 ∧ ∀ m ∈ cf.methods, RawAttribute.AllFit m.attributes
  attributes : RawAttribute.AllFit cf.attributes

theorem decode_encode {cf : ClassFile} (h : cf.Fits) : decode cf.encode = .ok cf := by
  have hreads : Reads read cf.encode cf := by
    simp only [encode, List.append_assoc]
    refine (reads_u32 _).bind ?_
    simp only [h.magic, ne_eq, not_true_eq_false, if_false]
    refine (reads_u16 _).bind ((reads_u16 _).bind ?_)
    refine (ConstantPool.reads (fun _ _ h => h) h.pool).bind ?_
    refine (reads_u16 _).bind ((reads_u16 _).bind ((reads_u16 _).bind ?_))
    rw [← List.append_assoc (count16 cf.interfaces.length)]
    refine (reads_counted cf.interfaces h.interfaces fun n _ => reads_u16 n).bind ?_
    rw [← List.append_assoc (count16 cf.fields.length)]
    refine (reads_counted cf.fields h.fields.1 fun m hm => Member.reads (h.fields.2 m hm)).bind ?_
    rw [← List.append_assoc (count16 cf.methods.length)]
    refine (reads_counted cf.methods h.methods.1 fun m hm => Member.reads (h.methods.2 m hm)).bind ?_
    rw [← h.magic]
    exact (RawAttribute.reads_all h.attributes).map
  exact hreads.runAll

/-- A class file with any pool that operations lead to, whose texts, payloads and lists are not longer
than a class file can state. -/
structure Encodable (cf : ClassFile) : Prop where
  magic : cf.magic = classMagic
  pool : cf.pool.Reachable
  texts : ∀ text, some (.utf8 text) ∈ cf.pool.slots →
    (Text.encode text.toList).length ≤ ConstantPool.maxText
  interfaces : cf.interfaces.length < 0x10000
  fields : cf.fields.length < 0x10000 ∧ ∀ m ∈ cf.fields, RawAttribute.AllFit m.attributes
  methods : cf.methods.length < 0x10000 ∧ ∀ m ∈ cf.methods, RawAttribute.AllFit m.attributes
  attributes : RawAttribute.AllFit cf.attributes

theorem Encodable.fits {cf : ClassFile} (h : cf.Encodable) : cf.Fits where
  magic := h.magic
  pool := by
    refine h.pool.grows.of_mem fun c hc => ?_
    cases c with
    | utf8 text => exact Nat.lt_succ_of_le (h.texts text hc)
    | _ => trivial
  interfaces := h.interfaces
  fields := h.fields
  methods := h.methods
  attributes := h.attributes

/-- An encodable class file is read back with the same pool, count and look-ups included, in which the
index behind a wide constant holds nothing, and with all other sections unchanged. -/
theorem decode_encode_of_encodable {cf : ClassFile} (h : cf.Encodable) :
    decode cf.encode = .ok cf ∧ ∀ i c, cf.pool.get? i = some c → c.isWide = true →
      i.toNat + 1 < cf.pool.count ∧ cf.pool.get? (i + 1) = none :=
  ⟨decode_encode h.fits, fun _ _ => h.pool.grows.get?_behind_wide⟩

open ConstantPool

/-- A class with a field, whose pool was built by pushes and by operations that find what is there. -/
def wideConstant : ClassFile where
  magic := classMagic
  minor := 0
  major := 51
  pool := [Call.push (.long (-2)), .push (.utf8 "A"), .addClass "A", .push (.utf8 "A")].foldl
    (fun p call => after call.run p) .empty
  access := 1
  thisClass := 4
  superClass := 0
  interfaces := []
  fields := [⟨2, 3, 5, [⟨3, [0, 5]⟩]⟩]
  methods := []
  attributes := []

theorem slots_wideConstant : wideConstant.pool.slots =
    #[some (.long (-2)), none, some (.utf8 "A"), some (.classRef 3), some (.utf8 "A")] := by
  simp +decide [wideConstant, after, Call.run, bind, EStateM.bind, addClass, addUtf8, add, push, empty,
    count, Std.ExtHashMap.getElem?_insertIfNew, -getElem?_pos]

theorem encodable_wideConstant : wideConstant.Encodable where
  magic := rfl
  pool := ⟨_, rfl⟩
  texts text h := by
    rw [slots_wideConstant] at h
    simp at h
    subst h
    decide
  interfaces := by decide
  fields := by simp [wideConstant, RawAttribute.AllFit, RawAttribute.Fits]
  methods := by simp [wideConstant]
  attributes := by simp [wideConstant, RawAttribute.AllFit]

theorem decode_encode_wideConstant : wideConstant.Encodable ∧
    decode wideConstant.encode = .ok wideConstant ∧ wideConstant.pool.get? 2 = none := by
  have hget : wideConstant.pool.get? 1 = some (.long (-2)) := by
    rw [get?, slots_wideConstant]
    rfl
  obtain ⟨hdecode, hwide⟩ := decode_encode_of_encodable encodable_wideConstant
  exact ⟨encodable_wideConstant, hdecode, (hwide 1 _ hget rfl).2⟩

end ClassFile

end BeanClass
