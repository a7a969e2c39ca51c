import BeanClass.Proofs.Binary.Faithful

/-! # What a reader depends on

A reader is local if its success depends on the bytes that it took and on nothing behind them, and if
it runs out on every proper start of these bytes. Numbers and runs of bytes are read locally, and
local readers may be put in sequence and repeated. A whole input that a local reader accepts is
therefore neither accepted when it is cut short nor when more bytes follow.
-/

namespace BeanClass.Reader

variable {α β : Type} {reader item : Reader α} {f : α → Reader β} {a : α} {c d : Cursor}
  {xs ys : List UInt8}

theorem bind_of_ok (h : reader c = .ok (a, d)) : (reader >>= f) c = f a d := by
  change (reader c >>= fun p => f p.1 p.2) = _
  rw [h]
  rfl

theorem bind_of_error {e : DecodeError} (h : reader c = .error e) : (reader >>= f) c = .error e := by
  change (reader c >>= fun p => f p.1 p.2) = _
  rw [h]
  rfl

/-- On a proper start of the bytes the reader runs out, at an offset inside its input. -/
def RunsOut (reader : Reader α) (bytes : List UInt8) : Prop :=
  ∀ cut, cut <+: bytes → cut ≠ bytes → ∀ offset,
    ∃ n ≤ offset + cut.length, reader ⟨offset, cut⟩ = .error (.unexpectedEnd n)

/-- Whatever the reader gives, it gives for the bytes that it took in front of any others, and for no
fewer bytes. -/
def Local (reader : Reader α) : Prop :=
  ∀ ⦃c a d⦄, reader c = .ok (a, d) →
    ∃ taken, c.rest = taken ++ d.rest ∧ Reads reader taken a ∧ RunsOut reader taken

theorem runsOut_nil (reader : Reader α) : RunsOut reader [] := by
  intro cut hcut hne
  exact absurd (List.prefix_nil.mp hcut) hne

/-- A cut falls into the bytes of the first reader or into those of the second. -/
theorem RunsOut.bind (hreads : Reads reader xs a) (h : RunsOut reader xs) (hf : RunsOut (f a) ys) :
    RunsOut (reader >>= f) (xs ++ ys) := by
  intro cut hcut hne offset
  by_cases hxs : xs <+: cut
  · obtain ⟨rest, rfl⟩ := hxs
    have hrest : rest <+: ys := (List.prefix_append_right_inj xs).mp hcut
    obtain ⟨n, hn, hout⟩ := hf rest hrest (fun heq => hne (by rw [heq])) (offset + xs.length)
    refine ⟨n, ?_, ?_⟩
    · rw [List.length_append]
      omega
    · rw [bind_of_ok (hreads offset rest), hout]
  · rcases List.prefix_or_prefix_of_prefix hcut (List.prefix_append xs ys) with hcut | hcut
    · have hne : cut ≠ xs := fun heq => hxs (heq ▸ List.prefix_refl cut)
      obtain ⟨n, hn, hout⟩ := h cut hcut hne offset
      exact ⟨n, hn, bind_of_error hout⟩
    · exact absurd hcut hxs

namespace Local

theorem bind (h : Local reader) (hf : ∀ a, Local (f a)) : Local (reader >>= f) := by
  intro c b d' hread
  obtain ⟨a, d, hfirst, hsecond⟩ := bind_eq_ok.mp hread
  obtain ⟨xs, hxs, hreads, hout⟩ := h hfirst
  obtain ⟨ys, hys, hreads', hout'⟩ := hf a hsecond
  refine ⟨xs ++ ys, ?_, hreads.bind hreads', hout.bind hreads hout'⟩
  rw [hxs, hys, List.append_assoc]

theorem pure (a : α) : Local (pure a) := by
  intro c b d h
  obtain ⟨rfl, rfl⟩ := pure_eq_ok.mp h
  exact ⟨[], rfl, reads_pure a, runsOut_nil _⟩

theorem throw (e : DecodeError) : Local (throw e : Reader α) := by
  intro c a d h
  cases h

/-- A guard takes no bytes. -/
theorem guard {p : Prop} [Decidable p] {e : DecodeError} {f : Unit → Reader β} (h : Local (f ())) :
    Local (if p then MonadExcept.throw e >>= f else f ()) := by
  split
  · exact (throw e).bind fun () => h
  · exact h

/-- A reader that takes a fixed number of bytes, whatever they are. -/
theorem of_length (n : Nat)
    (hshort : ∀ offset xs, xs.length < n → reader ⟨offset, xs⟩ = .error (.unexpectedEnd offset))
    (hreads : ∀ xs, xs.length = n → ∃ a, Reads reader xs a) : Local reader := by
  rintro ⟨offset, rest⟩ a d h
  have hle : n ≤ rest.length := by
    by_contra hlt
    rw [hshort offset rest (Nat.lt_of_not_le hlt)] at h
    cases h
  have hlength : (rest.take n).length = n := List.length_take_of_le hle
  obtain ⟨b, hb⟩ := hreads (rest.take n) hlength
  have hread := hb offset (rest.drop n)
  rw [List.take_append_drop, h] at hread
  cases hread
  refine ⟨rest.take n, (List.take_append_drop n rest).symm, hb, fun cut hcut hne offset => ?_⟩
  have hlt : cut.length < n := by
    have hcutLength := hcut.length_le
    have hneLength : cut.length ≠ (rest.take n).length := fun heq => hne (hcut.eq_of_length heq)
    omega
  exact ⟨offset, Nat.le_add_right .., hshort offset cut hlt⟩

theorem u8 : Local u8 := by
  apply of_length 1
  · rintro offset (_ | ⟨a, xs⟩) h
    · rfl
    · simp at h
  · rintro xs h
    obtain ⟨a, rfl⟩ := List.length_eq_one_iff.mp h
    exact ⟨a, reads_u8 a⟩

theorem u16 : Local u16 := by
  apply of_length 2
  · rintro offset (_ | ⟨a, _ | ⟨b, xs⟩⟩) h
    · rfl
    · rfl
    · simp at h
  · rintro xs h
    obtain ⟨a, b, rfl⟩ := List.length_eq_two.mp h
    exact ⟨join16 a b, fun _ _ => rfl⟩

theorem u32 : Local u32 := by
  apply of_length 4
  · rintro offset (_ | ⟨a₁, _ | ⟨a₂, _ | ⟨a₃, _ | ⟨a₄, xs⟩⟩⟩⟩) h
    · rfl
    · rfl
    · rfl
    · rfl
    · simp only [List.length_cons] at h
      omega
  · rintro xs h
    match xs, h with
    | [a₁, a₂, a₃, a₄], _ => exact ⟨join32 a₁ a₂ a₃ a₄, fun _ _ => rfl⟩

theorem u64 : Local u64 :=
  u32.bind fun _ => u32.bind fun _ => pure _

theorem bytes (n : Nat) : Local (bytes n) := by
  apply of_length n
  · intro offset xs h
    simp [Reader.bytes, h.ne, Nat.min_eq_right h.le]
  · rintro xs rfl
    exact ⟨xs, reads_bytes xs⟩

theorem repeatOnto (h : Local item) (n : Nat) (found : List α) : Local (repeatOnto item n found) := by
  induction n generalizing found with
  | zero => exact pure found.reverse
  | succ n ih =>
    have hstep : Reader.repeatOnto item (n + 1) found =
        item >>= fun a => Reader.repeatOnto item n (a :: found) := by
      funext c
      rw [Reader.repeatOnto]
      cases hitem : item c with
      | error e => rw [bind_of_error hitem]
      | ok p => rw [bind_of_ok hitem]
    rw [hstep]
    exact h.bind fun a => ih (a :: found)

theorem counted (h : Local item) : Local (counted item) :=
  u16.bind fun n => h.repeatOnto n.toNat []

/-- No input that is accepted as a whole is a proper start of another. -/
theorem runAll (h : Local reader) (hok : reader.runAll xs = .ok a) :
    (∀ cut, cut <+: xs → cut ≠ xs →
        ∃ offset ≤ cut.length, reader.runAll cut = .error (.unexpectedEnd offset)) ∧
      ∀ extra, extra ≠ [] → reader.runAll (xs ++ extra) = .error (.trailing extra.length) := by
  obtain ⟨offset, hread⟩ := runAll_eq_ok hok
  obtain ⟨taken, htaken, hreads, hout⟩ := h hread
  rw [List.append_nil] at htaken
  obtain rfl : xs = taken := htaken
  constructor
  · intro cut hcut hne
    obtain ⟨n, hn, hout⟩ := hout cut hcut hne 0
    refine ⟨n, by omega, ?_⟩
    rw [Reader.runAll, hout]
  · intro extra hne
    have hread := hreads 0 extra
    obtain ⟨b, rest, rfl⟩ := List.exists_cons_of_ne_nil hne
    rw [Reader.runAll, hread]

end Local

end BeanClass.Reader
