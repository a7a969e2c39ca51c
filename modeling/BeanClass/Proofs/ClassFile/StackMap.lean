import BeanClass.ClassFile.StackMap
import BeanClass.Proofs.Binary.Faithful

/-! # Stack maps are read back

A stack map is read back if its tags and counts can state the lists of its frames. One that was read
is written in frames that are as short as possible: only the two simplest forms of a frame have a
second spelling, which is longer and has room for distances that fit into the tag as well.
-/

namespace BeanClass

open Reader

namespace SlotType

theorem reads (t : SlotType) : Reads read t.encode t := by
  cases t with
  | object index => exact (reads_u8 7).bind (reads_u16 _).map
  | uninitialized offset => exact (reads_u8 8).bind (reads_u16 _).map
  | top => exact (reads_u8 0).bind (reads_pure _)
  | integer => exact (reads_u8 1).bind (reads_pure _)
  | float => exact (reads_u8 2).bind (reads_pure _)
  | double => exact (reads_u8 3).bind (reads_pure _)
  | long => exact (reads_u8 4).bind (reads_pure _)
  | null => exact (reads_u8 5).bind (reads_pure _)
  | uninitializedThis => exact (reads_u8 6).bind (reads_pure _)

theorem faithful_read : Faithful read encode fun _ => True := by
  -- a type that consists of a tag, and one with a number behind it
  have hplain : ∀ {tag : UInt8} {t t' : SlotType} {d c' : Cursor}, t.encode = [tag] →
      (pure t : Reader SlotType) d = .ok (t', c') → tag :: d.rest = t'.encode ++ c'.rest := by
    rintro tag t t' d c' htag h
    obtain ⟨rfl, rfl⟩ := pure_eq_ok.mp h
    rw [htag]
    rfl
  have hnumbered : ∀ {tag : UInt8} {make : UInt16 → SlotType} {t : SlotType} {d c' : Cursor},
      (∀ n, (make n).encode = tag :: be16 n) →
      (u16 >>= fun n => pure (make n)) d = .ok (t, c') → tag :: d.rest = t.encode ++ c'.rest := by
    rintro tag make t d c' hmake h
    obtain ⟨n, e, hn, h⟩ := bind_eq_ok.mp h
    obtain ⟨rfl, rfl⟩ := pure_eq_ok.mp h
    rw [hmake, (faithful_u16 hn).2]
    rfl
  intro c t c' h
  obtain ⟨tag, d, htag, h⟩ := bind_eq_ok.mp h
  refine ⟨trivial, ?_⟩
  rw [(faithful_u8 htag).2]
  split at h
  case h_8 => exact hnumbered (fun _ => rfl) h
  case h_9 => exact hnumbered (fun _ => rfl) h
  case h_10 => cases h
  all_goals exact hplain rfl h

end SlotType

theorem be16_inj {m n : UInt16} (h : be16 m = be16 n) : m = n := by
  simp only [be16, List.cons.injEq, and_true] at h
  rw [← join16_bytes m, h.1, h.2, join16_bytes]

namespace StackFrame

variable {f : StackFrame} {run : List UInt8} {c c' : Cursor}

/-- There is a tag for the number of local variables that come or go, and the lists can be counted. -/
def Fits : StackFrame → Prop
  | same _ | sameLocals _ _ => True
  | chop _ removed => 1 ≤ removed.toNat ∧ removed.toNat ≤ 3
  | append _ locals => 1 ≤ locals.length ∧ locals.length ≤ 3
  | full _ locals stack => locals.length < 0x10000 ∧ stack.length < 0x10000

/-- The runs of bytes that are read as a frame: the one that is written, and a distance of two bytes
where one in the tag would do. -/
inductive Spelled : List UInt8 → StackFrame → Prop
  | written {f : StackFrame} : f.Fits → Spelled f.encode f
  | same {delta : UInt16} : delta ≤ 63 → Spelled (251 :: be16 delta) (same delta)
  | sameLocals {delta : UInt16} {type : SlotType} : delta ≤ 63 →
    Spelled (247 :: (be16 delta ++ type.encode)) (sameLocals delta type)

/-- The run has one of the two tags with a distance behind them, but the distance is small. -/
def IsStretched (run : List UInt8) : Prop :=
  ∃ tag delta rest, (tag = 247 ∨ tag = 251) ∧ delta ≤ 63 ∧ run = tag :: (be16 delta ++ rest)

theorem toNat_small {delta : UInt16} (h : delta ≤ 63) : delta.toUInt8.toNat = delta.toNat := by
  have hle : delta.toNat ≤ 63 := h
  rw [UInt16.toNat_toUInt8]
  exact Nat.mod_eq_of_lt (by omega)

theorem toUInt16_small {delta : UInt16} (h : delta ≤ 63) : delta.toUInt8.toUInt16 = delta := by
  apply UInt16.toNat_inj.mp
  rw [UInt8.toNat_toUInt16, toNat_small h]

theorem toNat_tag {delta : UInt16} (h : delta ≤ 63) :
    (64 + delta.toUInt8).toNat = 64 + delta.toNat := by
  have hle : delta.toNat ≤ 63 := h
  rw [UInt8.toNat_add, toNat_small h]
  exact Nat.mod_eq_of_lt (show 64 + delta.toNat < 256 by omega)

theorem reads_same (delta : UInt16) : Reads read (encode (same delta)) (same delta) := by
  rw [encode]
  split
  · rename_i h
    have hle : delta.toNat ≤ 63 := h
    have htag : delta.toUInt8 < 64 := by
      rw [UInt8.lt_iff_toNat_lt, toNat_small h]
      exact Nat.lt_succ_of_le hle
    refine (reads_u8 _).last ?_
    rw [if_pos htag, toUInt16_small h]
    exact reads_pure _
  · exact (reads_u8 251).bind (reads_u16 delta).map

theorem reads_sameLocals (delta : UInt16) (type : SlotType) :
    Reads read (encode (sameLocals delta type)) (sameLocals delta type) := by
  rw [encode]
  split
  · rename_i h
    have hle : delta.toNat ≤ 63 := h
    have htag := toNat_tag h
    have hlow : ¬64 + delta.toUInt8 < 64 := by
      rw [UInt8.lt_iff_toNat_lt, htag]
      exact Nat.not_lt.mpr (Nat.le_add_right 64 _)
    have hhigh : 64 + delta.toUInt8 < 128 := by
      rw [UInt8.lt_iff_toNat_lt, htag]
      exact (show 64 + delta.toNat < 128 by omega)
    have hdelta : 64 + delta.toUInt8 - 64 = delta.toUInt8 := by
      rw [UInt8.add_comm, UInt8.add_sub_cancel]
    refine (reads_u8 _).bind ?_
    rw [if_neg hlow, if_pos hhigh, hdelta, toUInt16_small h]
    exact type.reads.map
  · exact (reads_u8 247).bind ((reads_u16 delta).bind type.reads.map)

theorem Fits.removed {delta : UInt16} {removed : UInt8} (h : (chop delta removed).Fits) :
    removed = 1 ∨ removed = 2 ∨ removed = 3 := by
  obtain ⟨hleast, hmost⟩ := h
  simp only [← UInt8.toNat_inj]
  exact (show removed.toNat = 1 ∨ removed.toNat = 2 ∨ removed.toNat = 3 by omega)

theorem reads (h : f.Fits) : Reads read f.encode f := by
  cases f with
  | same delta => exact reads_same delta
  | sameLocals delta type => exact reads_sameLocals delta type
  | chop delta removed =>
    rcases h.removed with rfl | rfl | rfl
    · exact (reads_u8 250).bind (reads_u16 delta).map
    · exact (reads_u8 249).bind (reads_u16 delta).map
    · exact (reads_u8 248).bind (reads_u16 delta).map
  | append delta locals =>
    have hlocals := reads_times locals fun t _ => t.reads
    match locals, h with
    | [_], _ => exact (reads_u8 252).bind ((reads_u16 delta).bind hlocals.map)
    | [_, _], _ => exact (reads_u8 253).bind ((reads_u16 delta).bind hlocals.map)
    | [_, _, _], _ => exact (reads_u8 254).bind ((reads_u16 delta).bind hlocals.map)
  | full delta locals stack =>
    have htag : Reads u8 [255] 255 := reads_u8 255
    simp only [encode, List.append_assoc, encodeTypes]
    refine htag.bind ((reads_u16 delta).bind ?_)
    rw [← List.append_assoc]
    exact (reads_counted locals h.1 fun t _ => t.reads).bind
      (reads_counted stack h.2 fun t _ => t.reads).map

theorem Spelled.reads (h : Spelled run f) : Reads read run f := by
  cases h with
  | written h => exact StackFrame.reads h
  | @same delta h => exact (reads_u8 251).bind (reads_u16 delta).map
  | @sameLocals delta type h => exact (reads_u8 247).bind ((reads_u16 delta).bind type.reads.map)

theorem spelled_same_tag {tag : UInt8} (h : tag < 64) : Spelled [tag] (same tag.toUInt16) := by
  have hsmall : tag.toUInt16 ≤ 63 := by
    rw [UInt16.le_iff_toNat_le, UInt8.toNat_toUInt16]
    exact Nat.le_of_lt_succ (UInt8.lt_iff_toNat_lt.mp h)
  have hwritten := Spelled.written (f := same tag.toUInt16) trivial
  rwa [encode, if_pos hsmall, UInt8.toUInt8_toUInt16] at hwritten

theorem spelled_sameLocals_tag {tag : UInt8} (hlow : ¬tag < 64) (hhigh : tag < 128)
    (type : SlotType) : Spelled (tag :: type.encode) (sameLocals (tag - 64).toUInt16 type) := by
  have hsub := UInt8.toNat_sub_of_le tag 64 (UInt8.not_lt.mp hlow)
  have hlt : tag.toNat < 128 := UInt8.lt_iff_toNat_lt.mp hhigh
  have hsmall : (tag - 64).toUInt16 ≤ 63 := by
    rw [UInt16.le_iff_toNat_le, UInt8.toNat_toUInt16, hsub]
    exact (show tag.toNat - 64 ≤ 63 by omega)
  have hwritten := Spelled.written (f := sameLocals (tag - 64).toUInt16 type) trivial
  rwa [encode, if_pos hsmall, UInt8.toUInt8_toUInt16, UInt8.add_comm, UInt8.sub_add_cancel]
    at hwritten

theorem spelled_same (delta : UInt16) : Spelled (251 :: be16 delta) (same delta) := by
  by_cases hsmall : delta ≤ 63
  · exact .same hsmall
  · have hwritten := Spelled.written (f := same delta) trivial
    rwa [encode, if_neg hsmall] at hwritten

theorem spelled_sameLocals (delta : UInt16) (type : SlotType) :
    Spelled (247 :: (be16 delta ++ type.encode)) (sameLocals delta type) := by
  by_cases hsmall : delta ≤ 63
  · exact .sameLocals hsmall
  · have hwritten := Spelled.written (f := sameLocals delta type) trivial
    rwa [encode, if_neg hsmall] at hwritten

theorem spelled_chop {tag : UInt8} (hleast : ¬tag < 247) (hne : tag ≠ 247) (hmost : tag < 251)
    (delta : UInt16) : Spelled (tag :: be16 delta) (chop delta (251 - tag)) := by
  have hhigh : tag.toNat < 251 := UInt8.lt_iff_toNat_lt.mp hmost
  have hlow : 247 < tag.toNat := by
    rw [UInt8.lt_iff_toNat_lt] at hleast
    rw [ne_eq, ← UInt8.toNat_inj] at hne
    exact Nat.lt_of_le_of_ne (Nat.le_of_not_lt hleast) (Ne.symm hne)
  have hsub : (251 - tag).toNat = 251 - tag.toNat :=
    UInt8.toNat_sub_of_le 251 tag (UInt8.le_iff_toNat_le.mpr hhigh.le)
  have hle : 251 - tag ≤ 251 := by
    rw [UInt8.le_iff_toNat_le, hsub]
    exact Nat.sub_le 251 _
  have htag : 251 - (251 - tag) = tag := by
    apply UInt8.toNat_inj.mp
    rw [UInt8.toNat_sub_of_le _ _ hle, hsub]
    exact Nat.sub_sub_self hhigh.le
  have hwritten := Spelled.written (f := chop delta (251 - tag))
    (show 1 ≤ (251 - tag).toNat ∧ (251 - tag).toNat ≤ 3 by omega)
  rwa [encode, htag] at hwritten

theorem spelled_append {tag : UInt8} (hleast : ¬tag < 251) (hne : tag ≠ 251) (hmost : tag < 255)
    (delta : UInt16) {locals : List SlotType} (hlength : locals.length = (tag - 251).toNat) :
    Spelled (tag :: (be16 delta ++ locals.flatMap SlotType.encode)) (append delta locals) := by
  have hhigh : tag.toNat < 255 := UInt8.lt_iff_toNat_lt.mp hmost
  have hlow : 251 < tag.toNat := by
    rw [UInt8.lt_iff_toNat_lt] at hleast
    rw [ne_eq, ← UInt8.toNat_inj] at hne
    exact Nat.lt_of_le_of_ne (Nat.le_of_not_lt hleast) (Ne.symm hne)
  have hsub : (tag - 251).toNat = tag.toNat - 251 :=
    UInt8.toNat_sub_of_le tag 251 (UInt8.le_iff_toNat_le.mpr hlow.le)
  have htag : 251 + UInt8.ofNat locals.length = tag := by
    rw [hlength, UInt8.ofNat_toNat, UInt8.add_comm, UInt8.sub_add_cancel]
  have hwritten := Spelled.written (f := append delta locals)
    (show 1 ≤ locals.length ∧ locals.length ≤ 3 by omega)
  rwa [encode, htag] at hwritten

theorem takes_read : Takes read Spelled := by
  intro c f c' h
  obtain ⟨tag, d, htag, h⟩ := bind_eq_ok.mp h
  rw [(faithful_u8 htag).2]
  split at h
  case isTrue hsmall =>
    obtain ⟨rfl, rfl⟩ := pure_eq_ok.mp h
    exact ⟨[tag], spelled_same_tag hsmall, rfl⟩
  rename_i h64
  split at h
  case isTrue h128 =>
    obtain ⟨type, e, htype, h⟩ := bind_eq_ok.mp h
    obtain ⟨rfl, rfl⟩ := pure_eq_ok.mp h
    rw [(SlotType.faithful_read htype).2]
    exact ⟨_, spelled_sameLocals_tag h64 h128 type, rfl⟩
  split at h
  case isTrue => cases h
  rename_i hreserved
  split at h
  case isTrue h247 =>
    subst h247
    obtain ⟨delta, e, hdelta, h⟩ := bind_eq_ok.mp h
    obtain ⟨type, e', htype, h⟩ := bind_eq_ok.mp h
    obtain ⟨rfl, rfl⟩ := pure_eq_ok.mp h
    rw [(faithful_u16 hdelta).2, (SlotType.faithful_read htype).2, ← List.append_assoc]
    exact ⟨_, spelled_sameLocals delta type, rfl⟩
  rename_i h247
  split at h
  case isTrue h251 =>
    obtain ⟨delta, e, hdelta, h⟩ := bind_eq_ok.mp h
    obtain ⟨rfl, rfl⟩ := pure_eq_ok.mp h
    rw [(faithful_u16 hdelta).2]
    exact ⟨_, spelled_chop hreserved h247 h251 delta, rfl⟩
  rename_i hleast
  split at h
  case isTrue h251 =>
    subst h251
    obtain ⟨delta, e, hdelta, h⟩ := bind_eq_ok.mp h
    obtain ⟨rfl, rfl⟩ := pure_eq_ok.mp h
    rw [(faithful_u16 hdelta).2]
    exact ⟨_, spelled_same delta, rfl⟩
  rename_i h251
  split at h
  case isTrue h255 =>
    obtain ⟨delta, e, hdelta, h⟩ := bind_eq_ok.mp h
    obtain ⟨locals, e', hlocals, h⟩ := bind_eq_ok.mp h
    obtain ⟨rfl, rfl⟩ := pure_eq_ok.mp h
    obtain ⟨⟨hlength, -⟩, hrest⟩ := faithful_times SlotType.faithful_read _ hlocals
    rw [(faithful_u16 hdelta).2, hrest, ← List.append_assoc]
    exact ⟨_, spelled_append hleast h251 h255 delta hlength, rfl⟩
  case isFalse h255 =>
    obtain ⟨delta, e, hdelta, h⟩ := bind_eq_ok.mp h
    obtain ⟨locals, e', hlocals, h⟩ := bind_eq_ok.mp h
    obtain ⟨stack, e'', hstack, h⟩ := bind_eq_ok.mp h
    obtain ⟨rfl, rfl⟩ := pure_eq_ok.mp h
    obtain ⟨hlocalsFit, hlocalsRest⟩ := faithful_counted SlotType.faithful_read hlocals
    obtain ⟨hstackFit, hstackRest⟩ := faithful_counted SlotType.faithful_read hstack
    refine ⟨_, .written (f := full delta locals stack) ⟨hlocalsFit.1, hstackFit.1⟩, ?_⟩
    have htag : tag = 255 := by
      apply UInt8.toNat_inj.mp
      have hlt := tag.toNat_lt
      rw [UInt8.lt_iff_toNat_lt] at h255
      exact Nat.le_antisymm (Nat.le_of_lt_succ hlt) (Nat.le_of_not_lt h255)
    rw [htag, (faithful_u16 hdelta).2, hlocalsRest, hstackRest]
    simp [encode, encodeTypes]

theorem Spelled.fits (h : Spelled run f) : f.Fits := by
  cases h with
  | written h => exact h
  | same | sameLocals => trivial

theorem isStretched_append {tag : UInt8} {delta : UInt16} (htag : tag = 247 ∨ tag = 251)
    (h : delta ≤ 63) (rest : List UInt8) : IsStretched (tag :: (be16 delta ++ rest)) :=
  ⟨tag, delta, rest, htag, h, rfl⟩

theorem not_isStretched_of_tag (tag : UInt8) {rest : List UInt8} (h : tag ≠ 247 ∧ tag ≠ 251) :
    ¬IsStretched (tag :: rest) := by
  rintro ⟨other, delta, rest', htag, -, heq⟩
  rw [List.cons.injEq] at heq
  rcases htag with rfl | rfl
  · exact h.1 heq.1
  · exact h.2 heq.1

theorem not_isStretched_of_lt {tag : UInt8} {rest : List UInt8} (h : tag.toNat < 247) :
    ¬IsStretched (tag :: rest) := by
  apply not_isStretched_of_tag
  constructor
  · rintro rfl
    exact absurd h (by decide)
  · rintro rfl
    exact absurd h (by decide)

theorem not_isStretched_of_delta (tag : UInt8) {delta : UInt16} (h : ¬delta ≤ 63)
    (rest : List UInt8) : ¬IsStretched (tag :: (be16 delta ++ rest)) := by
  rintro ⟨other, small, rest', -, hsmall, heq⟩
  have hbytes := (List.append_inj (List.cons.inj heq).2 rfl).1
  exact h (be16_inj hbytes ▸ hsmall)

/-- What is written is never stretched. -/
theorem Fits.not_isStretched (h : f.Fits) : ¬IsStretched f.encode := by
  cases f with
  | same delta =>
    rw [encode]
    split
    · rename_i hsmall
      have hle : delta.toNat ≤ 63 := hsmall
      apply not_isStretched_of_lt
      rw [toNat_small hsmall]
      exact Nat.lt_of_le_of_lt hle (by decide)
    · have hwide := not_isStretched_of_delta 251 ‹_› []
      rwa [List.append_nil] at hwide
  | sameLocals delta type =>
    rw [encode]
    split
    · rename_i hsmall
      have hle : delta.toNat ≤ 63 := hsmall
      apply not_isStretched_of_lt
      rw [toNat_tag hsmall]
      exact Nat.lt_of_le_of_lt (Nat.add_le_add_left hle 64) (by decide)
    · exact not_isStretched_of_delta 247 ‹_› _
  | chop delta removed =>
    apply not_isStretched_of_tag
    rcases h.removed with rfl | rfl | rfl <;> decide
  | append delta locals =>
    match locals, h with
    | [_], _ => exact not_isStretched_of_tag 252 (by decide)
    | [_, _], _ => exact not_isStretched_of_tag 253 (by decide)
    | [_, _, _], _ => exact not_isStretched_of_tag 254 (by decide)
  | full delta locals stack => exact not_isStretched_of_tag 255 (by decide)

/-- A stretched run is longer than what is written for its frame. -/
theorem length_encode_same_lt {delta : UInt16} (h : delta ≤ 63) :
    (encode (same delta)).length < (251 :: be16 delta).length := by
  rw [encode, if_pos h]
  simp

theorem length_encode_sameLocals_lt {delta : UInt16} (h : delta ≤ 63) (type : SlotType) :
    (encode (sameLocals delta type)).length < (247 :: (be16 delta ++ type.encode)).length := by
  rw [encode, if_pos h]
  simp

theorem Spelled.length_encode_le (h : Spelled run f) : f.encode.length ≤ run.length := by
  cases h with
  | written => exact le_rfl
  | same h => exact (length_encode_same_lt h).le
  | sameLocals h => exact (length_encode_sameLocals_lt h _).le

theorem Spelled.encode_eq_iff (h : Spelled run f) : f.encode = run ↔ ¬IsStretched run := by
  cases h with
  | written h => exact iff_of_true rfl h.not_isStretched
  | @same delta h =>
    refine iff_of_false (fun heq => ?_) (not_not.mpr ?_)
    · exact absurd (congrArg List.length heq) (length_encode_same_lt h).ne
    · have hstretched := isStretched_append (Or.inr rfl) h []
      rwa [List.append_nil] at hstretched
  | @sameLocals delta type h =>
    refine iff_of_false (fun heq => ?_) (not_not.mpr ?_)
    · exact absurd (congrArg List.length heq) (length_encode_sameLocals_lt h type).ne
    · exact isStretched_append (Or.inl rfl) h type.encode

/-- A run that is read as a frame, whatever stands behind it, is one of its spellings. -/
theorem spelled_of_reads (h : Reads read run f) : Spelled run f := by
  obtain ⟨xs, hspelled, hrest⟩ := takes_read (h 0 [])
  simp only [List.append_nil] at hrest
  exact hrest ▸ hspelled

end StackFrame

namespace StackMap

variable {t : StackMap} {bytes : List UInt8} {spans : List (List UInt8 × StackFrame)}

/-- Tags and counts can state the lists of all frames. -/
structure Fits (t : StackMap) : Prop where
  count : t.frames.length < 0x10000
  frames : ∀ f ∈ t.frames, f.Fits

theorem decode_encode (h : t.Fits) : decode t.encode = .ok t := by
  rw [decode, mapError_ok_iff]
  exact (reads_counted t.frames h.count fun f hf => StackFrame.reads (h.frames f hf)).map.runAll

/-- The bytes are a count and runs that are read as the frames. -/
structure IsSpelling (spans : List (List UInt8 × StackFrame)) (bytes : List UInt8) (t : StackMap) :
    Prop where
  reads : ∀ span ∈ spans, Reads StackFrame.read span.1 span.2
  bytes_eq : bytes = count16 spans.length ++ spans.flatMap (·.1)
  frames_eq : t.frames = spans.map (·.2)

theorem spelling_of_decode (h : decode bytes = .ok t) :
    t.Fits ∧ ∃ spans, IsSpelling spans bytes t := by
  obtain ⟨offset, h⟩ := runAll_eq_ok (mapError_ok_iff.mp h)
  rw [map_eq_pure_bind] at h
  obtain ⟨frames, c, hframes, h⟩ := bind_eq_ok.mp h
  obtain ⟨rfl, rfl⟩ := pure_eq_ok.mp h
  obtain ⟨spans, rfl, hlength, hspans, hrest⟩ := spans_of_counted StackFrame.takes_read hframes
  refine ⟨⟨(List.length_map _).trans_lt hlength, ?_⟩, spans, ?_⟩
  · intro f hf
    obtain ⟨span, hspan, rfl⟩ := List.mem_map.mp hf
    exact (hspans span hspan).fits
  · exact {
      reads := fun span hspan => (hspans span hspan).reads
      bytes_eq := hrest.trans (List.append_nil _)
      frames_eq := rfl }

theorem IsSpelling.encode_eq (h : IsSpelling spans bytes t) :
    t.encode = count16 spans.length ++ spans.flatMap (·.2.encode) := by
  rw [encode, h.frames_eq, List.length_map, List.flatMap_map]

theorem IsSpelling.length_encode_le (h : IsSpelling spans bytes t) :
    t.encode.length ≤ bytes.length := by
  rw [h.encode_eq, h.bytes_eq, List.length_append, List.length_append, List.length_flatMap,
    List.length_flatMap]
  refine Nat.add_le_add_left (List.sum_le_sum fun span hspan => ?_) _
  exact (StackFrame.spelled_of_reads (h.reads span hspan)).length_encode_le

theorem IsSpelling.encode_eq_iff (h : IsSpelling spans bytes t) :
    t.encode = bytes ↔ ∀ span ∈ spans, ¬StackFrame.IsStretched span.1 := by
  have hspelled := fun span hspan => StackFrame.spelled_of_reads (h.reads span hspan)
  rw [h.encode_eq, h.bytes_eq, List.append_cancel_left_eq,
    flatMap_eq_iff fun span hspan => (hspelled span hspan).length_encode_le]
  exact forall₂_congr fun span hspan => (hspelled span hspan).encode_eq_iff

/-- Every stack map whose lists can be stated is read back. One that was read is such a stack map, is
written in no more bytes than it was read from, and in the same bytes exactly if none of the runs that
were read as its frames was stretched. -/
theorem encode_shortest :
    (∀ t : StackMap, t.Fits → decode t.encode = .ok t) ∧
      ∀ bytes t, decode bytes = .ok t →
        t.Fits ∧ decode t.encode = .ok t ∧ t.encode.length ≤ bytes.length ∧
          (∃ spans, IsSpelling spans bytes t) ∧ ∀ spans, IsSpelling spans bytes t →
            (t.encode = bytes ↔ ∀ span ∈ spans, ¬StackFrame.IsStretched span.1) := by
  refine ⟨fun t ht => decode_encode ht, fun bytes t h => ?_⟩
  obtain ⟨hfits, spans, hspans⟩ := spelling_of_decode h
  exact ⟨hfits, decode_encode hfits, hspans.length_encode_le, ⟨spans, hspans⟩,
    fun spans hspans => hspans.encode_eq_iff⟩

/-- A frame without changes, and one with a number on the stack. -/
def twoFrames : StackMap :=
  ⟨[.same 5, .sameLocals 0 .integer]⟩

/-- The distance of the first frame takes two bytes. -/
def stretchedFrames : List UInt8 :=
  [0, 2, 251, 0, 5, 64, 1]

theorem encode_shortest_stretched :
    twoFrames.Fits ∧ decode twoFrames.encode = .ok twoFrames ∧
      decode stretchedFrames = .ok twoFrames ∧ twoFrames.encode.length ≤ stretchedFrames.length ∧
      ∃ spans, IsSpelling spans stretchedFrames twoFrames ∧
        ∃ span ∈ spans, StackFrame.IsStretched span.1 := by
  obtain ⟨hwritten, hread⟩ := encode_shortest
  have hdecode : decode stretchedFrames = .ok twoFrames := by decide
  obtain ⟨hfits, -, hlength, ⟨spans, hspans⟩, hiff⟩ := hread stretchedFrames twoFrames hdecode
  have hne : twoFrames.encode ≠ stretchedFrames := by decide
  rw [ne_eq, hiff spans hspans] at hne
  push Not at hne
  exact ⟨hfits, hwritten twoFrames hfits, hdecode, hlength, spans, hspans, hne⟩

end StackMap

end BeanClass
