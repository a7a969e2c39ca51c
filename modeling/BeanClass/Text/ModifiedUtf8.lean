/-! # Modified UTF-8

A text is spelled in 16-bit code units, and each unit is written in one to three bytes. The unit 0
takes two bytes, and a character beyond U+FFFF is a pair of units.
-/

namespace BeanClass.Text

/-- The 16-bit code units of a character. -/
def units (c : Char) : List Nat :=
  let n := c.toNat
  if n < 0x10000 then [n]
  else [0xD800 + (n - 0x10000) / 0x400, 0xDC00 + (n - 0x10000) % 0x400]

/-- The shortest byte group of a unit, where 0 counts as a unit of two bytes. -/
def unitBytes (u : Nat) : List UInt8 :=
  if 0 < u ∧ u < 0x80 then [UInt8.ofNat u]
  else if u < 0x800 then [UInt8.ofNat (0xC0 + u / 0x40), UInt8.ofNat (0x80 + u % 0x40)]
  else [UInt8.ofNat (0xE0 + u / 0x1000), UInt8.ofNat (0x80 + u / 0x40 % 0x40),
    UInt8.ofNat (0x80 + u % 0x40)]

def encode (s : List Char) : List UInt8 :=
  s.flatMap fun c => (units c).flatMap unitBytes

def isContinuation (b : UInt8) : Bool :=
  0x80 ≤ b.toNat && b.toNat < 0xC0

/-- The units of a byte string, in reverse order behind those found before. Groups that are longer
than their unit needs are read as well. -/
def readUnits : List Nat → List UInt8 → Option (List Nat)
  | found, [] => some found
  | found, b :: rest =>
    if 0 < b.toNat ∧ b.toNat < 0x80 then readUnits (b.toNat :: found) rest
    else if 0xC0 ≤ b.toNat ∧ b.toNat < 0xE0 then
      match rest with
      | b₂ :: rest =>
        if isContinuation b₂ then
          readUnits (((b.toNat - 0xC0) * 0x40 + (b₂.toNat - 0x80)) :: found) rest
        else none
      | [] => none
    else if 0xE0 ≤ b.toNat ∧ b.toNat < 0xF0 then
      match rest with
      | b₂ :: b₃ :: rest =>
        if isContinuation b₂ && isContinuation b₃ then
          readUnits (((b.toNat - 0xE0) * 0x1000 + (b₂.toNat - 0x80) * 0x40 + (b₃.toNat - 0x80))
            :: found) rest
        else none
      | _ => none
    else none

def isHighUnit (u : Nat) : Bool :=
  0xD800 ≤ u && u < 0xDC00

def isLowUnit (u : Nat) : Bool :=
  0xDC00 ≤ u && u < 0xE000

/-- The characters that units in reverse order spell, in front of those found before. A low unit
has to stand right after a high unit, and a high unit right before a low one. -/
def spell : List Char → List Nat → Option (List Char)
  | found, [] => some found
  | found, u :: rest =>
    if isLowUnit u then
      match rest with
      | v :: rest =>
        if isHighUnit v then
          spell (Char.ofNat (0x10000 + (v - 0xD800) * 0x400 + (u - 0xDC00)) :: found) rest
        else none
      | [] => none
    else if isHighUnit u then none
    else spell (Char.ofNat u :: found) rest

def decode? (bytes : List UInt8) : Option (List Char) := do
  let units ← readUnits [] bytes
  spell [] units

end BeanClass.Text
