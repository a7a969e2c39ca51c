import BeanClass.Proofs.ClassFile.Reencoding

/-! # Payloads of code

The payload of a `Code` attribute and its parts determine each other: code whose counts and lengths can
be stated is read back from what is written for it, and a payload that is read was written for the code
that it gives.
-/

namespace BeanClass

open Reader

theorem ExceptionEntry.faithful_read :
    Faithful ExceptionEntry.read ExceptionEntry.encode fun _ => True := by
  intro c e c' h
  obtain ⟨start, d₁, hstart, h⟩ := bind_eq_ok.mp h
  obtain ⟨stop, d₂, hstop, h⟩ := bind_eq_ok.mp h
  obtain ⟨handler, d₃, hhandler, h⟩ := bind_eq_ok.mp h
  obtain ⟨catchType, d₄, hcatch, h⟩ := bind_eq_ok.mp h
  obtain ⟨rfl, rfl⟩ := pure_eq_ok.mp h
  refine ⟨trivial, ?_⟩
  rw [ExceptionEntry.encode, (faithful_u16 hstart).2, (faithful_u16 hstop).2,
    (faithful_u16 hhandler).2, (faithful_u16 hcatch).2]
  simp

namespace CodeAttribute

variable {payload : List UInt8} {c : CodeAttribute}

theorem faithful_read : Faithful read encode Fits := by
  intro cursor c cursor' h
  obtain ⟨maxStack, d₁, hstack, h⟩ := bind_eq_ok.mp h
  obtain ⟨maxLocals, d₂, hlocals, h⟩ := bind_eq_ok.mp h
  obtain ⟨length, d₃, hlength, h⟩ := bind_eq_ok.mp h
  obtain ⟨code, d₄, hcode, h⟩ := bind_eq_ok.mp h
  obtain ⟨exceptions, d₅, hexceptions, h⟩ := bind_eq_ok.mp h
  obtain ⟨attributes, d₆, hattributes, h⟩ := bind_eq_ok.mp h
  obtain ⟨rfl, rfl⟩ := pure_eq_ok.mp h
  obtain ⟨hcodeLength, hcodeEq⟩ := faithful_bytes length.toNat hcode
  obtain ⟨⟨hcount, -⟩, hexceptionsEq⟩ := faithful_counted ExceptionEntry.faithful_read hexceptions
  obtain ⟨hattributesFit, hattributesEq⟩ := RawAttribute.faithful_readAll hattributes
  constructor
  · exact ⟨hcodeLength ▸ length.toNat_lt, hcount, hattributesFit⟩
  · rw [encode, count32, hcodeLength, UInt32.ofNat_toNat, (faithful_u16 hstack).2,
      (faithful_u16 hlocals).2, (faithful_u32 hlength).2, hcodeEq, hexceptionsEq, hattributesEq]
    simp

theorem decode_eq_ok (h : decode payload = .ok c) : c.Fits ∧ c.encode = payload := by
  obtain ⟨offset, hread⟩ := runAll_eq_ok (mapError_ok_iff.mp h)
  obtain ⟨hfits, hpayload⟩ := faithful_read hread
  rw [List.append_nil] at hpayload
  exact ⟨hfits, hpayload.symm⟩

/-- A payload is read as the code for which it is written, and as nothing else. The code has to fit: its
counts of exceptions and attributes are below 65536, and its lengths below 2^32. -/
theorem decode_eq_ok_iff_encode (payload : List UInt8) (c : CodeAttribute) :
    decode payload = .ok c ↔ c.Fits ∧ c.encode = payload := by
  constructor
  · exact decode_eq_ok
  · rintro ⟨hfits, rfl⟩
    exact decode_encode hfits

end CodeAttribute

end BeanClass
