import Mathlib
import BeanClass.Binary.Reader

/-! # Reading back what was written

A reader reads a value off a run of bytes if it takes exactly these bytes from any input that starts
with them. Readers in sequence read concatenations, and counted lists are read item by item.
-/

namespace BeanClass

@[simp] theorem length_be16 (n : UInt16) : (be16 n).length = 2 := rfl

@[simp] theorem length_count16 (n : Nat) : (count16 n).length = 2 := rfl

@[simp] theorem length_count32 (n : Nat) : (count32 n).length = 4 := rfl

theorem join16_bytes (n : UInt16) :
    join16 (UInt8.ofNat (n.toNat / 0x100)) (UInt8.ofNat n.toNat) = n := by
  have h := n.toNat_lt
  apply UInt16.toNat_inj.mp
  simp only [join16, UInt16.toNat_ofNat', UInt8.toNat_ofNat']
  omega

theorem join32_bytes (n : UInt32) :
    join32 (UInt8.ofNat (n.toNat / 0x1000000)) (UInt8.ofNat (n.toNat / 0x10000))
      (UInt8.ofNat (n.toNat / 0x100)) (UInt8.ofNat n.toNat) = n := by
  have h := n.toNat_lt
  apply UInt32.toNat_inj.mp
  simp only [join32, UInt32.toNat_ofNat', UInt8.toNat_ofNat']
  omega

theorem join64_halves (n : UInt64) :
    join64 (UInt32.ofNat (n.toNat / 0x100000000)) (UInt32.ofNat n.toNat) = n := by
  have h := n.toNat_lt
  apply UInt64.toNat_inj.mp
  simp only [join64, UInt64.toNat_ofNat', UInt32.toNat_ofNat']
  omega

namespace Reader

variable {α β : Type}

/-- The reader takes exactly `bytes` off an input that starts with them and gives `a`. -/
def Reads (reader : Reader α) (bytes : List UInt8) (a : α) : Prop :=
  ∀ offset rest, reader ⟨offset, bytes ++ rest⟩ = .ok (a, ⟨offset + bytes.length, rest⟩)

theorem Reads.bind {reader : Reader α} {f : α → Reader β} {xs ys : List UInt8} {a : α} {b : β}
    (h : Reads reader xs a) (hf : Reads (f a) ys b) : Reads (reader >>= f) (xs ++ ys) b := by
  intro offset rest
  have hrun := h offset (ys ++ rest)
  have hrest := hf (offset + xs.length) rest
  simp only [List.append_assoc, List.length_append, ← Nat.add_assoc]
  change (reader ⟨offset, xs ++ (ys ++ rest)⟩ >>= fun p => f p.1 p.2) = _
  rw [hrun]
  exact hrest

theorem reads_pure (a : α) : Reads (pure a) [] a := fun _ _ => rfl

/-- The last reader of a sequence that takes bytes. -/
theorem Reads.last {reader : Reader α} {f : α → Reader β} {xs : List UInt8} {a : α} {b : β}
    (h : Reads reader xs a) (hf : Reads (f a) [] b) : Reads (reader >>= f) xs b := by
  have hbind := h.bind hf
  rwa [List.append_nil] at hbind

theorem Reads.map {reader : Reader α} {f : α → β} {xs : List UInt8} {a : α}
    (h : Reads reader xs a) : Reads (reader >>= fun a => pure (f a)) xs (f a) :=
  h.last (reads_pure (f a))

theorem reads_u8 (a : UInt8) : Reads u8 [a] a := fun _ _ => rfl

theorem reads_u16 (n : UInt16) : Reads u16 (be16 n) n := by
  intro offset rest
  simp only [be16, List.cons_append, List.nil_append, u16, join16_bytes]
  rfl

theorem reads_u32 (n : UInt32) : Reads u32 (be32 n) n := by
  intro offset rest
  simp only [be32, List.cons_append, List.nil_append, u32, join32_bytes]
  rfl

theorem reads_u64 (n : UInt64) : Reads u64 (be64 n) n := by
  have h := (reads_u32 (UInt32.ofNat (n.toNat / 0x100000000))).bind
    (f := fun high => u32 >>= fun low => pure (join64 high low))
    (reads_u32 (UInt32.ofNat n.toNat)).map
  rwa [join64_halves] at h

theorem reads_bytes (xs : List UInt8) : Reads (bytes xs.length) xs xs := by
  intro offset rest
  simp [bytes]

variable {item : Reader α} {spell : α → List UInt8}

theorem reads_repeatOnto (l found : List α) (h : ∀ a ∈ l, Reads item (spell a) a) :
    Reads (repeatOnto item l.length found) (l.flatMap spell) (found.reverse ++ l) := by
  induction l generalizing found with
  | nil => intro offset rest; simp [repeatOnto]
  | cons a l ih =>
    intro offset rest
    have ha := h a List.mem_cons_self offset (l.flatMap spell ++ rest)
    have hl := ih (a :: found) (fun b hb => h b (List.mem_cons_of_mem _ hb))
      (offset + (spell a).length) rest
    simp only [List.flatMap_cons, List.length_cons, List.append_assoc, List.length_append,
      repeatOnto, ha, hl, List.reverse_cons, List.nil_append, List.cons_append, Nat.add_assoc]

theorem reads_times (l : List α) (h : ∀ a ∈ l, Reads item (spell a) a) :
    Reads (times l.length item) (l.flatMap spell) l :=
  reads_repeatOnto l [] h

theorem reads_counted (l : List α) (hlen : l.length < 0x10000)
    (h : ∀ a ∈ l, Reads item (spell a) a) :
    Reads (counted item) (count16 l.length ++ l.flatMap spell) l := by
  refine (reads_u16 _).bind ?_
  rw [UInt16.toNat_ofNat_of_lt' hlen]
  exact reads_times l h

theorem Reads.runAll {reader : Reader α} {xs : List UInt8} {a : α} (h : Reads reader xs a) :
    reader.runAll xs = .ok a := by
  have hrun := h 0 []
  rw [List.append_nil] at hrun
  rw [Reader.runAll, hrun]

end Reader

end BeanClass
