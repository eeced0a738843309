import Mathlib.Algebra.Group.Nat.Defs

namespace Cpipe.Nodes.Float16

/-! Conversions between `float` and `_Float16`, by their bit patterns. -/

/-- `m / 2^k` rounded to the nearest integer, of two to the even one. -/
def shiftEven (m k : Nat) : Nat :=
  let q := m / 2^k
  let r := m % 2^k
  if 2^k < 2*r ∨ (2*r = 2^k ∧ q % 2 = 1) then q + 1 else q

/-- The pattern without its sign, of a pattern without its sign. A carry out of the
fraction goes up into the exponent, and from the largest number to infinity. -/
def halfMagnitude (magnitude : Nat) : Nat :=
  let exponent := magnitude / 2^23
  let fraction := magnitude % 2^23
  if exponent = 255 then
    if fraction = 0 then 0x7c00 else 0x7e00 + fraction / 2^13 % 2^9
  else if 143 ≤ exponent then
    0x7c00
  else if 113 ≤ exponent then
    shiftEven (magnitude - 112*2^23) 13
  else
    shiftEven ((if exponent = 0 then 0 else 2^23) + fraction) (126 - exponent)

def floatToHalf (value : Float32) : UInt16 :=
  let bits := value.toBits.toNat
  UInt16.ofNat (bits / 2^31 * 2^15 + halfMagnitude (bits % 2^31))

/-- The conversion of a bit pattern. -/
def halfOfBits (bits : UInt32) : UInt16 :=
  UInt16.ofNat (bits.toNat / 2^31 * 2^15 + halfMagnitude (bits.toNat % 2^31))

/-- A subnormal half is a normal `float`. -/
def floatMagnitude (magnitude : Nat) : Nat :=
  let exponent := magnitude / 2^10
  let fraction := magnitude % 2^10
  if exponent = 31 then
    if fraction = 0 then 0x7f800000 else 0x7fc00000 + fraction % 2^9 * 2^13
  else if exponent ≠ 0 then
    magnitude*2^13 + 112*2^23
  else if fraction = 0 then
    0
  else
    (Nat.log2 fraction + 103)*2^23 + (fraction - 2^Nat.log2 fraction)*2^(23 - Nat.log2 fraction)

def halfToFloat (bits : UInt16) : Float32 :=
  Float32.ofBits (UInt32.ofNat (bits.toNat / 2^15 * 2^31 + floatMagnitude (bits.toNat % 2^15)))

example : halfToFloat 0x3c00 = 1 ∧ floatToHalf 1 = 0x3c00 ∧ floatToHalf 65520 = 0x7c00 := by
  decide +kernel

end Cpipe.Nodes.Float16
