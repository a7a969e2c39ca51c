import BeanClass.Proofs.Binary.Faithful
import BeanClass.Proofs.ClassFile.RoundTrip
import BeanClass.Proofs.Text.Groups

/-! # Class files are written back

A class file that was read is written with the same bytes, except that every text of its pool gets its
shortest spelling. The texts are found in the bytes by cutting the pool into the runs of its constants,
without reading them.
-/

namespace BeanClass

open Reader

/-- The bytes are the shortest spelling of the text that they are decoded to. -/
def Text.IsShortest (payload : List UInt8) : Prop :=
  (Text.decode? payload).map Text.encode = some payload

instance (payload : List UInt8) : Decidable (Text.IsShortest payload) :=
  inferInstanceAs (Decidable (_ = _))

namespace ConstantPool

/-- The number of bytes behind the tag of a constant that is no text. -/
def fixedSize : UInt8 → Nat
  | 5 | 6 => 8
  | 7 | 8 | 16 | 19 | 20 => 2
  | 15 => 3
  | _ => 4

/-- The size of the constant in front of the bytes, with its tag. -/
def runSize : List UInt8 → Nat
  | [] => 0
  | 1 :: a :: b :: _ => 3 + (join16 a b).toNat
  | tag :: _ => 1 + fixedSize tag

def startsWide : List UInt8 → Bool
  | 5 :: _ | 6 :: _ => true
  | _ => false

/-- The runs of bytes of the constants that fill the slots that are left. -/
def runs : (left : Nat) → List UInt8 → List (List UInt8)
  | 0, _ => []
  | left + 1, bytes =>
    bytes.take (runSize bytes) ::
      if startsWide bytes then
        match left with
        | 0 => []
        | left + 1 => runs left (bytes.drop (runSize bytes))
      else runs left (bytes.drop (runSize bytes))

/-- The payload of a run of bytes that is a text. -/
def text? : List UInt8 → Option (List UInt8)
  | 1 :: _ :: _ :: payload => some payload
  | _ => none

end ConstantPool

/-- The payloads of the texts in the pool of a class file, which starts behind magic and version. -/
def ClassFile.texts (bytes : List UInt8) : List (List UInt8) :=
  match bytes.drop 8 with
  | a :: b :: rest => (ConstantPool.runs ((join16 a b).toNat - 1) rest).filterMap ConstantPool.text?
  | _ => []

namespace Constant

/-- The runs of bytes that are read as a constant: any spelling of a text, and of any other constant
the one that is written. -/
inductive Spelled : List UInt8 → Constant → Prop
  | text {payload : List UInt8} {s : List Char} : Text.decode? payload = some s →
    payload.length < 0x10000 → Spelled (1 :: (count16 payload.length ++ payload)) (.utf8 (.ofList s))
  | plain {c : Constant} : c.tag ≠ 1 → Spelled c.encode c

variable {α β : Type} {c : Constant} {index : Nat} {xs : List UInt8} {cursor cursor' : Cursor}

/-- A constant of one part behind its tag. -/
theorem spelled_one {part : Reader α} {spell : α → List UInt8} {fits : α → Prop}
    (hpart : Faithful part spell fits) {make : α → Constant} {tag : UInt8} (htag : tag ≠ 1)
    (hmake : ∀ a, (make a).tag = tag ∧ (make a).payload = spell a)
    (h : (part >>= fun a => pure (make a)) cursor = .ok (c, cursor')) :
    ∃ xs, Spelled xs c ∧ tag :: cursor.rest = xs ++ cursor'.rest := by
  obtain ⟨a, d, ha, h⟩ := bind_eq_ok.mp h
  obtain ⟨rfl, rfl⟩ := pure_eq_ok.mp h
  refine ⟨_, .plain ((hmake a).1 ▸ htag), ?_⟩
  rw [encode, (hmake a).1, (hmake a).2, (hpart ha).2, List.cons_append]

/-- A constant of two parts behind its tag. -/
theorem spelled_two {first : Reader α} {second : Reader β} {spell : α → List UInt8}
    {spell' : β → List UInt8} {fits : α → Prop} {fits' : β → Prop} (hfirst : Faithful first spell fits)
    (hsecond : Faithful second spell' fits') {make : α → β → Constant} {tag : UInt8} (htag : tag ≠ 1)
    (hmake : ∀ a b, (make a b).tag = tag ∧ (make a b).payload = spell a ++ spell' b)
    (h : (first >>= fun a => second >>= fun b => pure (make a b)) cursor = .ok (c, cursor')) :
    ∃ xs, Spelled xs c ∧ tag :: cursor.rest = xs ++ cursor'.rest := by
  obtain ⟨a, d, ha, h⟩ := bind_eq_ok.mp h
  obtain ⟨b, d', hb, h⟩ := bind_eq_ok.mp h
  obtain ⟨rfl, rfl⟩ := pure_eq_ok.mp h
  refine ⟨_, .plain ((hmake a b).1 ▸ htag), ?_⟩
  rw [encode, (hmake a b).1, (hmake a b).2, (hfirst ha).2, (hsecond hb).2, List.cons_append,
    List.append_assoc]

theorem spelled_text (h : (u16 >>= fun length => bytes length.toNat >>= fun encoded =>
      match Text.decode? encoded with
      | some text => pure (utf8 (String.ofList text))
      | none => throw (.invalidText index)) cursor = .ok (c, cursor')) :
    ∃ xs, Spelled xs c ∧ 1 :: cursor.rest = xs ++ cursor'.rest := by
  obtain ⟨n, d, hn, h⟩ := bind_eq_ok.mp h
  obtain ⟨payload, d', hpayload, h⟩ := bind_eq_ok.mp h
  obtain ⟨hlength, hrest⟩ := faithful_bytes n.toNat hpayload
  cases hs : Text.decode? payload with
  | none =>
    simp only [hs] at h
    cases h
  | some s =>
    simp only [hs] at h
    obtain ⟨rfl, rfl⟩ := pure_eq_ok.mp h
    refine ⟨_, .text hs (hlength ▸ n.toNat_lt), ?_⟩
    rw [count16, hlength, UInt16.ofNat_toNat, (faithful_u16 hn).2, hrest, List.cons_append,
      List.append_assoc]
    rfl

theorem read_eq_ok (h : read index cursor = .ok (c, cursor')) :
    ∃ xs, Spelled xs c ∧ cursor.rest = xs ++ cursor'.rest := by
  obtain ⟨tag, d, htag, h⟩ := bind_eq_ok.mp h
  rw [(faithful_u8 htag).2]
  split at h
  · exact spelled_text h
  · exact spelled_one faithful_u32 (by decide) (fun _ => ⟨rfl, rfl⟩) h
  · exact spelled_one faithful_u32 (by decide) (fun _ => ⟨rfl, rfl⟩) h
  · exact spelled_one faithful_u64 (by decide) (fun _ => ⟨rfl, rfl⟩) h
  · exact spelled_one faithful_u64 (by decide) (fun _ => ⟨rfl, rfl⟩) h
  · exact spelled_one faithful_u16 (by decide) (fun _ => ⟨rfl, rfl⟩) h
  · exact spelled_one faithful_u16 (by decide) (fun _ => ⟨rfl, rfl⟩) h
  · exact spelled_two faithful_u16 faithful_u16 (by decide) (fun _ _ => ⟨rfl, rfl⟩) h
  · exact spelled_two faithful_u16 faithful_u16 (by decide) (fun _ _ => ⟨rfl, rfl⟩) h
  · exact spelled_two faithful_u16 faithful_u16 (by decide) (fun _ _ => ⟨rfl, rfl⟩) h
  · exact spelled_two faithful_u16 faithful_u16 (by decide) (fun _ _ => ⟨rfl, rfl⟩) h
  · exact spelled_two faithful_u8 faithful_u16 (by decide) (fun _ _ => ⟨rfl, rfl⟩) h
  · exact spelled_one faithful_u16 (by decide) (fun _ => ⟨rfl, rfl⟩) h
  · exact spelled_two faithful_u16 faithful_u16 (by decide) (fun _ _ => ⟨rfl, rfl⟩) h
  · exact spelled_two faithful_u16 faithful_u16 (by decide) (fun _ _ => ⟨rfl, rfl⟩) h
  · exact spelled_one faithful_u16 (by decide) (fun _ => ⟨rfl, rfl⟩) h
  · exact spelled_one faithful_u16 (by decide) (fun _ => ⟨rfl, rfl⟩) h
  · cases h

theorem fits_of_tag (h : c.tag ≠ 1) : c.Fits := by
  cases c with
  | utf8 text => exact absurd rfl h
  | _ => trivial

theorem Spelled.fits (h : Spelled xs c) : c.Fits := by
  cases h with
  | text hs hlength =>
    have hle := Text.length_encode_le hs
    simp only [Fits, String.toList_ofList]
    omega
  | plain htag => exact fits_of_tag htag

theorem Spelled.runSize_append (h : Spelled xs c) (rest : List UInt8) :
    ConstantPool.runSize (xs ++ rest) = xs.length := by
  cases h with
  | @text payload s hs hlength =>
    have hjoin := join16_bytes (UInt16.ofNat payload.length)
    simp only [count16, be16, List.cons_append, List.nil_append, ConstantPool.runSize, hjoin,
      List.length_cons]
    rw [UInt16.toNat_ofNat_of_lt' hlength]
    omega
  | plain htag =>
    cases c with
    | utf8 text => exact absurd rfl htag
    | _ => rfl

theorem Spelled.startsWide_append (h : Spelled xs c) (rest : List UInt8) :
    ConstantPool.startsWide (xs ++ rest) = c.isWide := by
  cases h with
  | text => rfl
  | plain htag =>
    cases c with
    | utf8 text => exact absurd rfl htag
    | _ => rfl

theorem Spelled.length_encode_le (h : Spelled xs c) : c.encode.length ≤ xs.length := by
  cases h with
  | text hs hlength =>
    have hle := Text.length_encode_le hs
    simpa [encode, payload, count16, be16] using hle
  | plain => exact Nat.le_refl _

/-- A constant is written as it was spelled unless it is a text that was spelled too long. -/
theorem Spelled.encode_eq_iff (h : Spelled xs c) :
    c.encode = xs ↔ ∀ payload, ConstantPool.text? xs = some payload → Text.IsShortest payload := by
  cases h with
  | @text payload s hs hlength =>
    have hpayload : ConstantPool.text? (1 :: (count16 payload.length ++ payload)) = some payload := rfl
    have hshortest : Text.IsShortest payload ↔ Text.encode s = payload := by
      rw [Text.IsShortest, hs, Option.map_some, Option.some_inj]
    simp only [hpayload, Option.some_inj, forall_eq', hshortest, encode, tag, Constant.payload,
      String.toList_ofList, List.cons_inj_right]
    constructor
    · intro heq
      exact (List.append_inj heq rfl).2
    · intro heq
      rw [heq]
  | plain htag =>
    simp only [true_iff]
    intro payload hpayload
    cases c with
    | utf8 text => exact absurd rfl htag
    | _ => cases hpayload

end Constant

namespace ConstantPool

open Constant

variable {p q r : ConstantPool} {c : Constant} {i : UInt16} {left : Nat} {xs bytes rest : List UInt8}
  {spans : List (List UInt8 × Constant)}

/-- The bytes start with spellings of constants that fill `left` slots and lead from `p` to `q`. -/
structure Fills (spans : List (List UInt8 × Constant)) (left : Nat) (bytes rest : List UInt8)
    (p q : ConstantPool) : Prop where
  spelled : ∀ span ∈ spans, Spelled span.1 span.2
  bytes_eq : bytes = spans.flatMap (·.1) ++ rest
  runs_eq : runs left bytes = spans.map (·.1)
  body_eq : q.body = p.body ++ spans.flatMap (·.2.encode)
  count_eq : q.count = p.count + left
  grows : Grows (fun _ c => c.Fits) p q

theorem fills_nil (p : ConstantPool) (bytes : List UInt8) : Fills [] 0 bytes bytes p p where
  spelled := nofun
  bytes_eq := rfl
  runs_eq := rfl
  body_eq := by simp
  count_eq := rfl
  grows := .refl

theorem runs_append (h : Spelled xs c) (left : Nat) (bytes : List UInt8) :
    runs (c.width + left) (xs ++ bytes) = xs :: runs left bytes := by
  have hsize := h.runSize_append bytes
  have hwide := h.startsWide_append bytes
  unfold width
  split
  · rename_i hc
    rw [show 2 + left = left + 1 + 1 by omega, runs.eq_def]
    simp [hsize, hwide, hc]
  · rename_i hc
    rw [show 1 + left = left + 1 by omega, runs.eq_def]
    simp [hsize, hwide, hc]

theorem Fills.cons (hc : Spelled xs c) (hpush : push c p = .ok i q)
    (h : Fills spans left bytes rest q r) :
    Fills ((xs, c) :: spans) (c.width + left) (xs ++ bytes) rest p r where
  spelled := List.forall_mem_cons.mpr ⟨hc, h.spelled⟩
  bytes_eq := by rw [h.bytes_eq, List.flatMap_cons, List.append_assoc]
  runs_eq := by rw [runs_append hc, h.runs_eq, List.map_cons]
  body_eq := by rw [h.body_eq, body_push hpush, List.flatMap_cons, List.append_assoc]
  count_eq := by rw [h.count_eq, count_push hpush, Nat.add_assoc]
  grows := (Grows.refl.push hc.fits hpush).trans h.grows

theorem readSlots_eq_ok {cursor cursor' : Cursor}
    (h : readSlots left p cursor = .ok (q, cursor')) :
    ∃ spans, Fills spans left cursor.rest cursor'.rest p q := by
  fun_induction readSlots left p cursor with
  | case1 p cursor =>
    cases h
    exact ⟨[], fills_nil _ _⟩
  | case5 p cursor c d hread i r hpush hwide left ih =>
    obtain ⟨xs, hc, hrest⟩ := read_eq_ok hread
    obtain ⟨spans, hspans⟩ := ih h
    have hwidth : left.succ.succ = c.width + left := by
      rw [width, if_pos hwide]
      omega
    exact ⟨(xs, c) :: spans, hrest ▸ hwidth ▸ hspans.cons hc hpush⟩
  | case6 left p cursor c d hread i r hpush hwide ih =>
    obtain ⟨xs, hc, hrest⟩ := read_eq_ok hread
    obtain ⟨spans, hspans⟩ := ih h
    have hwidth : left.succ = c.width + left := by
      rw [width, if_neg hwide]
      omega
    exact ⟨(xs, c) :: spans, hrest ▸ hwidth ▸ hspans.cons hc hpush⟩
  | _ => cases h

/-- What is read as a pool leads from the empty pool to it. -/
theorem read_eq_ok {cursor cursor' : Cursor} (h : read cursor = .ok (q, cursor')) :
    ∃ spans bytes, cursor.rest = count16 q.count ++ bytes ∧
      Fills spans (q.count - 1) bytes cursor'.rest empty q := by
  obtain ⟨n, d, hn, h⟩ := Reader.bind_eq_ok.mp h
  dsimp only at h
  split at h
  · cases h
  · rename_i hne
    obtain ⟨spans, hspans⟩ := readSlots_eq_ok h
    have hpos : 0 < n.toNat := Nat.pos_of_ne_zero fun h => hne (UInt16.toNat_inj.mp h)
    have hcount : q.count = n.toNat := by
      rw [hspans.count_eq]
      simp only [count, empty, List.size_toArray, List.length_nil]
      omega
    rw [hcount]
    refine ⟨spans, d.rest, ?_, hspans⟩
    rw [count16, UInt16.ofNat_toNat]
    exact (faithful_u16 hn).2

end ConstantPool

theorem RawAttribute.faithful_read : Faithful RawAttribute.read RawAttribute.encode RawAttribute.Fits := by
  intro c a c' h
  obtain ⟨name, d, hname, h⟩ := bind_eq_ok.mp h
  obtain ⟨length, d', hlength, h⟩ := bind_eq_ok.mp h
  obtain ⟨info, d'', hinfo, h⟩ := bind_eq_ok.mp h
  obtain ⟨rfl, rfl⟩ := pure_eq_ok.mp h
  obtain ⟨heq, hrest⟩ := faithful_bytes length.toNat hinfo
  have hfits : info.length < 0x100000000 := heq ▸ length.toNat_lt
  refine ⟨hfits, ?_⟩
  rw [RawAttribute.encode, count32, heq, UInt32.ofNat_toNat, (faithful_u16 hname).2,
    (faithful_u32 hlength).2, hrest]
  simp

theorem RawAttribute.faithful_readAll :
    Faithful RawAttribute.readAll RawAttribute.encodeAll RawAttribute.AllFit :=
  faithful_counted RawAttribute.faithful_read

theorem Member.faithful_read :
    Faithful Member.read Member.encode fun m => RawAttribute.AllFit m.attributes := by
  intro c m c' h
  obtain ⟨access, d₁, haccess, h⟩ := bind_eq_ok.mp h
  obtain ⟨name, d₂, hname, h⟩ := bind_eq_ok.mp h
  obtain ⟨descriptor, d₃, hdescriptor, h⟩ := bind_eq_ok.mp h
  obtain ⟨attributes, d₄, hattributes, h⟩ := bind_eq_ok.mp h
  obtain ⟨rfl, rfl⟩ := pure_eq_ok.mp h
  obtain ⟨hfit, hrest⟩ := RawAttribute.faithful_readAll hattributes
  refine ⟨hfit, ?_⟩
  rw [Member.encode, (faithful_u16 haccess).2, (faithful_u16 hname).2, (faithful_u16 hdescriptor).2,
    hrest]
  simp

namespace ClassFile

open ConstantPool

/-- The sections in front of the pool. -/
def head (cf : ClassFile) : List UInt8 :=
  be32 cf.magic ++ be16 cf.minor ++ be16 cf.major ++ count16 cf.pool.count

/-- The sections behind the pool. -/
def tail (cf : ClassFile) : List UInt8 :=
  be16 cf.access ++ be16 cf.thisClass ++ be16 cf.superClass ++
    count16 cf.interfaces.length ++ cf.interfaces.flatMap be16 ++
    count16 cf.fields.length ++ cf.fields.flatMap Member.encode ++
    count16 cf.methods.length ++ cf.methods.flatMap Member.encode ++
    RawAttribute.encodeAll cf.attributes

theorem encode_eq_sections (cf : ClassFile) : cf.encode = cf.head ++ cf.pool.body ++ cf.tail := by
  simp [encode, head, tail, ConstantPool.encode_eq]

/-- A class file that is read fits its counts and lengths, and only the spellings of its constants can
differ from what is written. -/
theorem decode_eq_ok {bytes : List UInt8} {cf : ClassFile} (h : decode bytes = .ok cf) :
    cf.Fits ∧ ∃ spans rest, bytes = cf.head ++ rest ∧
      Fills spans (cf.pool.count - 1) rest cf.tail .empty cf.pool := by
  obtain ⟨offset, h⟩ := runAll_eq_ok h
  obtain ⟨magic, d₁, hmagic, h⟩ := bind_eq_ok.mp h
  dsimp only at h
  split at h
  · cases h
  rename_i hne
  obtain ⟨minor, d₂, hminor, h⟩ := bind_eq_ok.mp h
  obtain ⟨major, d₃, hmajor, h⟩ := bind_eq_ok.mp h
  obtain ⟨pool, d₄, hpool, h⟩ := bind_eq_ok.mp h
  obtain ⟨access, d₅, haccess, h⟩ := bind_eq_ok.mp h
  obtain ⟨this, d₆, hthis, h⟩ := bind_eq_ok.mp h
  obtain ⟨super, d₇, hsuper, h⟩ := bind_eq_ok.mp h
  obtain ⟨interfaces, d₈, hinterfaces, h⟩ := bind_eq_ok.mp h
  obtain ⟨fields, d₉, hfields, h⟩ := bind_eq_ok.mp h
  obtain ⟨methods, d₁₀, hmethods, h⟩ := bind_eq_ok.mp h
  obtain ⟨attributes, d₁₁, hattributes, h⟩ := bind_eq_ok.mp h
  obtain ⟨rfl, rfl⟩ := pure_eq_ok.mp h
  obtain ⟨spans, rest, hcount, hspans⟩ := ConstantPool.read_eq_ok hpool
  obtain ⟨hinterfacesFit, hinterfacesEq⟩ := faithful_counted faithful_u16 hinterfaces
  obtain ⟨hfieldsFit, hfieldsEq⟩ := faithful_counted Member.faithful_read hfields
  obtain ⟨hmethodsFit, hmethodsEq⟩ := faithful_counted Member.faithful_read hmethods
  obtain ⟨hattributesFit, hattributesEq⟩ := RawAttribute.faithful_readAll hattributes
  refine ⟨⟨not_not.mp hne, hspans.grows, hinterfacesFit.1, hfieldsFit, hmethodsFit, hattributesFit⟩,
    spans, rest, ?_, ?_⟩
  · change (Cursor.mk 0 bytes).rest = _
    rw [(faithful_u32 hmagic).2, (faithful_u16 hminor).2, (faithful_u16 hmajor).2, hcount]
    simp [head]
  · have htail : d₄.rest = tail ⟨magic, minor, major, pool, access, this, super, interfaces, fields,
        methods, attributes⟩ := by
      rw [(faithful_u16 haccess).2, (faithful_u16 hthis).2, (faithful_u16 hsuper).2, hinterfacesEq,
        hfieldsEq, hmethodsEq, hattributesEq]
      simp [tail]
    exact htail ▸ hspans

theorem texts_of_fills {cf : ClassFile} {spans : List (List UInt8 × Constant)} {rest : List UInt8}
    (hcf : cf.Fits) (h : Fills spans (cf.pool.count - 1) rest cf.tail .empty cf.pool) :
    texts (cf.head ++ rest) = spans.filterMap fun span => text? span.1 := by
  have hcount : (UInt16.ofNat cf.pool.count).toNat = cf.pool.count :=
    UInt16.toNat_ofNat_of_lt' (Nat.lt_succ_of_le (hcf.pool.sound sound_empty).count_le)
  have hdrop : (cf.head ++ rest).drop 8 = count16 cf.pool.count ++ rest := by simp [head, be32, be16]
  unfold texts
  rw [hdrop]
  simp only [count16, be16, List.cons_append, List.nil_append, join16_bytes]
  rw [hcount, h.runs_eq, List.filterMap_map]
  rfl

/-- A class file that was read is written back so that it is read again, in no more bytes than before,
and in the same bytes exactly if all texts of its pool had their shortest spelling. -/
theorem encode_of_decode {bytes : List UInt8} {cf : ClassFile} (h : decode bytes = .ok cf) :
    decode cf.encode = .ok cf ∧ cf.encode.length ≤ bytes.length ∧
      (cf.encode = bytes ↔ ∀ payload ∈ texts bytes, Text.IsShortest payload) := by
  obtain ⟨hfits, spans, rest, rfl, hspans⟩ := decode_eq_ok h
  have hle : ∀ span ∈ spans, span.2.encode.length ≤ span.1.length := fun span hspan =>
    (hspans.spelled span hspan).length_encode_le
  have hbody : cf.pool.body = spans.flatMap (·.2.encode) := hspans.body_eq
  refine ⟨decode_encode hfits, ?_, ?_⟩
  · have hsum := List.sum_le_sum hle
    rw [encode_eq_sections, hbody, hspans.bytes_eq]
    simp only [List.length_append, List.length_flatMap]
    omega
  · rw [texts_of_fills hfits hspans, encode_eq_sections, hbody, hspans.bytes_eq, List.append_assoc,
      List.append_cancel_left_eq, List.append_cancel_right_eq, flatMap_eq_iff hle]
    constructor
    · intro heq payload hpayload
      obtain ⟨span, hspan, htext⟩ := List.mem_filterMap.mp hpayload
      exact (hspans.spelled span hspan).encode_eq_iff.mp (heq span hspan) payload htext
    · intro hshortest span hspan
      refine (hspans.spelled span hspan).encode_eq_iff.mpr fun payload htext => ?_
      exact hshortest payload (List.mem_filterMap.mpr ⟨span, hspan, htext⟩)

/-- A class file without members, whose pool has a wide constant and the letter A in two bytes. -/
def overlongLetter : List UInt8 :=
  [0xCA, 0xFE, 0xBA, 0xBE, 0, 0, 0, 51, 0, 4, 5, 0, 0, 0, 0, 0, 0, 0, 7, 1, 0, 2, 0xC1, 0x81,
    0, 1, 0, 0, 0, 0, 0, 0, 0, 0, 0, 0, 0, 0]

theorem encode_of_decode_overlongLetter :
    ∃ cf, decode overlongLetter = .ok cf ∧ decode cf.encode = .ok cf ∧
      cf.encode.length ≤ overlongLetter.length ∧ cf.encode ≠ overlongLetter := by
  obtain ⟨cf, hcf⟩ : ∃ cf, decode overlongLetter = .ok cf := ⟨_, rfl⟩
  obtain ⟨hdecode, hlength, hiff⟩ := encode_of_decode hcf
  refine ⟨cf, hcf, hdecode, hlength, fun heq => ?_⟩
  have hshortest := hiff.mp heq [0xC1, 0x81] (by decide)
  exact absurd hshortest (by decide)

end ClassFile

end BeanClass
