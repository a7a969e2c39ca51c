/-! # Big-endian numbers -/

namespace BeanClass

def be16 (n : UInt16) : List UInt8 :=
  [UInt8.ofNat (n.toNat / 0x100), UInt8.ofNat n.toNat]

def be32 (n : UInt32) : List UInt8 :=
  [UInt8.ofNat (n.toNat / 0x1000000), UInt8.ofNat (n.toNat / 0x10000),
    UInt8.ofNat (n.toNat / 0x100), UInt8.ofNat n.toNat]

/-- The upper half comes first. -/
def be64 (n : UInt64) : List UInt8 :=
  be32 (UInt32.ofNat (n.toNat / 0x100000000)) ++ be32 (UInt32.ofNat n.toNat)

/-- A count in two bytes, modulo 65536. -/
def count16 (n : Nat) : List UInt8 :=
  be16 (UInt16.ofNat n)

/-- A count in four bytes, modulo 2^32. -/
def count32 (n : Nat) : List UInt8 :=
  be32 (UInt32.ofNat n)

def join16 (a b : UInt8) : UInt16 :=
  UInt16.ofNat (a.toNat * 0x100 + b.toNat)

def join32 (a b c d : UInt8) : UInt32 :=
  UInt32.ofNat (a.toNat * 0x1000000 + b.toNat * 0x10000 + c.toNat * 0x100 + d.toNat)

def join64 (high low : UInt32) : UInt64 :=
  UInt64.ofNat (high.toNat * 0x100000000 + low.toNat)

end BeanClass
