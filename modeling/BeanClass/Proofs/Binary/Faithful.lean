import BeanClass.Proofs.Binary.Reading
import BeanClass.Proofs.Outcomes

/-! # What a reader took

A reader is faithful to a way of spelling values if, whenever it succeeds, the bytes that it took are
those that spell the value it gives, and this value is short enough to be spelled. Numbers, runs of
bytes and counted lists are read faithfully. Where a value has several spellings, a reader takes one of
them.
-/

namespace BeanClass

theorem be16_join16 (a b : UInt8) : be16 (join16 a b) = [a, b] := by
  have ha := a.toNat_lt
  have hb := b.toNat_lt
  simp only [be16, join16, UInt16.toNat_ofNat', List.cons.injEq, and_true, ← UInt8.toNat_inj,
    UInt8.toNat_ofNat']
  omega

theorem be32_join32 (a b c d : UInt8) : be32 (join32 a b c d) = [a, b, c, d] := by
  have ha := a.toNat_lt
  have hb := b.toNat_lt
  have hc := c.toNat_lt
  have hd := d.toNat_lt
  simp only [be32, join32, UInt32.toNat_ofNat', List.cons.injEq, and_true, ← UInt8.toNat_inj,
    UInt8.toNat_ofNat']
  omega

theorem be64_join64 (high low : UInt32) : be64 (join64 high low) = be32 high ++ be32 low := by
  have hhigh := high.toNat_lt
  have hlow := low.toNat_lt
  have h₁ : UInt32.ofNat ((join64 high low).toNat / 0x100000000) = high := by
    rw [← UInt32.toNat_inj, join64, UInt64.toNat_ofNat', UInt32.toNat_ofNat']
    omega
  have h₂ : UInt32.ofNat (join64 high low).toNat = low := by
    rw [← UInt32.toNat_inj, join64, UInt64.toNat_ofNat', UInt32.toNat_ofNat']
    omega
  rw [be64, h₁, h₂]

namespace Reader

variable {α β : Type} {reader : Reader α} {f : α → Reader β} {a : α} {b : β} {c c' : Cursor}

theorem bind_eq_ok :
    (reader >>= f) c = .ok (b, c') ↔ ∃ a d, reader c = .ok (a, d) ∧ f a d = .ok (b, c') := by
  change (reader c >>= fun p => f p.1 p.2) = _ ↔ _
  rw [bind_ok_iff]
  exact Prod.exists

theorem pure_eq_ok {a' : α} : (pure a : Reader α) c = .ok (a', c') ↔ a = a' ∧ c = c' := by
  change Except.ok (a, c) = .ok (a', c') ↔ _
  simp

/-- What the reader gives fits its spelling, and it stands spelled out in front of what is left. -/
def Faithful (reader : Reader α) (spell : α → List UInt8) (fits : α → Prop) : Prop :=
  ∀ ⦃c a c'⦄, reader c = .ok (a, c') → fits a ∧ c.rest = spell a ++ c'.rest

theorem faithful_u8 : Faithful u8 (fun a => [a]) fun _ => True := by
  rintro ⟨offset, _ | ⟨a, rest⟩⟩ b c' h
  · cases h
  · cases h
    exact ⟨trivial, rfl⟩

theorem faithful_u16 : Faithful u16 be16 fun _ => True := by
  rintro ⟨offset, _ | ⟨a, _ | ⟨b, rest⟩⟩⟩ n c' h
  · cases h
  · cases h
  · cases h
    rw [be16_join16]
    exact ⟨trivial, rfl⟩

theorem faithful_u32 : Faithful u32 be32 fun _ => True := by
  rintro ⟨offset, _ | ⟨a₁, _ | ⟨a₂, _ | ⟨a₃, _ | ⟨a₄, rest⟩⟩⟩⟩⟩ n c' h
  · cases h
  · cases h
  · cases h
  · cases h
  · cases h
    rw [be32_join32]
    exact ⟨trivial, rfl⟩

theorem faithful_u64 : Faithful u64 be64 fun _ => True := by
  intro c n c' h
  obtain ⟨high, d, hhigh, h⟩ := bind_eq_ok.mp h
  obtain ⟨low, d', hlow, h⟩ := bind_eq_ok.mp h
  obtain ⟨rfl, rfl⟩ := pure_eq_ok.mp h
  refine ⟨trivial, ?_⟩
  rw [be64_join64, List.append_assoc, ← (faithful_u32 hlow).2, ← (faithful_u32 hhigh).2]

theorem faithful_bytes (n : Nat) : Faithful (bytes n) id fun taken => taken.length = n := by
  rintro ⟨offset, rest⟩ taken c' h
  unfold bytes at h
  dsimp only at h
  split at h
  · cases h
    exact ⟨‹_›, (List.take_append_drop n rest).symm⟩
  · cases h

/-- The bytes that the reader took are among those that stand for what it gives. -/
def Takes (reader : Reader α) (spelled : List UInt8 → α → Prop) : Prop :=
  ∀ ⦃c a c'⦄, reader c = .ok (a, c') → ∃ xs, spelled xs a ∧ c.rest = xs ++ c'.rest

variable {item : Reader α} {spelled : List UInt8 → α → Prop} {spell : α → List UInt8}
  {fits : α → Prop}

theorem Faithful.takes (h : Faithful reader spell fits) :
    Takes reader fun xs a => fits a ∧ xs = spell a := by
  intro c a c' hread
  obtain ⟨ha, hrest⟩ := h hread
  exact ⟨spell a, ⟨ha, rfl⟩, hrest⟩

/-- The items of a list, each with the bytes that were taken for it. -/
theorem spans_of_repeatOnto (hitem : Takes item spelled) {n : Nat} {found l : List α}
    (h : repeatOnto item n found c = .ok (l, c')) :
    ∃ spans : List (List UInt8 × α), l = found.reverse ++ spans.map (·.2) ∧ spans.length = n ∧
      (∀ span ∈ spans, spelled span.1 span.2) ∧ c.rest = spans.flatMap (·.1) ++ c'.rest := by
  induction n generalizing found c with
  | zero =>
    cases h
    exact ⟨[], by simp, rfl, nofun, rfl⟩
  | succ n ih =>
    rw [repeatOnto] at h
    split at h
    · rename_i a d hread
      obtain ⟨xs, ha, hxs⟩ := hitem hread
      obtain ⟨spans, rfl, rfl, hspans, hrest⟩ := ih h
      refine ⟨(xs, a) :: spans, by simp, rfl, List.forall_mem_cons.mpr ⟨ha, hspans⟩, ?_⟩
      rw [hxs, hrest, List.flatMap_cons, List.append_assoc]
    · cases h

theorem spans_of_counted (hitem : Takes item spelled) {l : List α}
    (h : counted item c = .ok (l, c')) :
    ∃ spans : List (List UInt8 × α), l = spans.map (·.2) ∧ spans.length < 0x10000 ∧
      (∀ span ∈ spans, spelled span.1 span.2) ∧
      c.rest = count16 spans.length ++ spans.flatMap (·.1) ++ c'.rest := by
  obtain ⟨n, d, hn, h⟩ := bind_eq_ok.mp h
  obtain ⟨spans, rfl, hlength, hspans, hrest⟩ := spans_of_repeatOnto hitem h
  refine ⟨spans, rfl, hlength ▸ n.toNat_lt, hspans, ?_⟩
  rw [count16, hlength, UInt16.ofNat_toNat, (faithful_u16 hn).2, hrest, List.append_assoc]

theorem flatMap_of_spans {spans : List (List UInt8 × α)}
    (h : ∀ span ∈ spans, fits span.2 ∧ span.1 = spell span.2) :
    (∀ a ∈ spans.map (·.2), fits a) ∧ spans.flatMap (·.1) = (spans.map (·.2)).flatMap spell := by
  constructor
  · intro a ha
    obtain ⟨span, hspan, rfl⟩ := List.mem_map.mp ha
    exact (h span hspan).1
  · rw [List.flatMap_map]
    exact List.flatMap_congr fun span hspan => (h span hspan).2

theorem faithful_times (hitem : Faithful item spell fits) (n : Nat) :
    Faithful (times n item) (fun l => l.flatMap spell) fun l => l.length = n ∧ ∀ a ∈ l, fits a := by
  intro c l c' h
  obtain ⟨spans, rfl, hlength, hspans, hrest⟩ := spans_of_repeatOnto hitem.takes h
  obtain ⟨hfits, hspell⟩ := flatMap_of_spans hspans
  refine ⟨⟨(List.length_map _).trans hlength, hfits⟩, ?_⟩
  rw [hrest, hspell]
  rfl

theorem faithful_counted (hitem : Faithful item spell fits) :
    Faithful (counted item) (fun l => count16 l.length ++ l.flatMap spell)
      fun l => l.length < 0x10000 ∧ ∀ a ∈ l, fits a := by
  intro c l c' h
  obtain ⟨spans, rfl, hlength, hspans, hrest⟩ := spans_of_counted hitem.takes h
  obtain ⟨hfits, hspell⟩ := flatMap_of_spans hspans
  refine ⟨⟨(List.length_map _).trans_lt hlength, hfits⟩, ?_⟩
  dsimp only
  rw [hrest, hspell, List.length_map]

theorem runAll_eq_ok {input : List UInt8} (h : reader.runAll input = .ok a) :
    ∃ offset, reader ⟨0, input⟩ = .ok (a, ⟨offset, []⟩) := by
  unfold runAll at h
  split at h
  · rename_i offset hread
    cases h
    exact ⟨offset, hread⟩
  · cases h
  · cases h

end Reader

end BeanClass
