import Cpipe.Library.Bytes
import Mathlib.Algebra.Order.Field.Rat

namespace Library.Ieee
open Bytes

/-- A binary64 value as its bit pattern. -/
structure Double where
  bits : UInt64
deriving DecidableEq, Repr

/-- A binary32 value as its bit pattern. -/
structure Single where
  bits : UInt32
deriving DecidableEq, Repr

namespace Double

def sign (x : Double) : Bool := 2^63 ≤ x.bits.toNat

def exponent (x : Double) : Nat := x.bits.toNat / 2^52 % 2^11

def fraction (x : Double) : Nat := x.bits.toNat % 2^52

def isFinite (x : Double) : Bool := x.exponent != 2047

/-- The number a finite pattern stands for. -/
def value (x : Double) : Rat :=
  let magnitude : Rat :=
    if x.exponent = 0 then x.fraction * 2^(-1074 : Int)
    else (2^52 + x.fraction) * 2^((x.exponent : Int) - 1075)
  if x.sign then -magnitude else magnitude

/-- `0.0 < x` for a finite `x`. -/
def isPositive (x : Double) : Bool := 0 < x.value

end Double

namespace Single

def sign (x : Single) : Bool := 2^31 ≤ x.bits.toNat

def exponent (x : Single) : Nat := x.bits.toNat / 2^23 % 2^8

def fraction (x : Single) : Nat := x.bits.toNat % 2^23

def isNaN (x : Single) : Bool := x.exponent == 255 && x.fraction != 0

/-- The number a finite pattern stands for. An infinity gets one beyond all of them. -/
def value (x : Single) : Rat :=
  let magnitude : Rat :=
    if x.exponent = 0 then x.fraction * 2^(-149 : Int)
    else (2^23 + x.fraction) * 2^((x.exponent : Int) - 150)
  if x.sign then -magnitude else magnitude

end Single

def Double.bytes (x : Double) : List UInt8 := be64 x.bits

def Single.bytes (x : Single) : List UInt8 := be32 x.bits

/-- The layout of a value in memory. -/
def Double.native (x : Double) : List UInt8 := le64 x.bits

def Single.native (x : Single) : List UInt8 := le32 x.bits

def readDouble : Read Double := Double.mk <$> readU64

def readFloat : Read Single := Single.mk <$> readU32

def loadDouble : Read Double := Double.mk <$> readLE64

def loadFloat : Read Single := Single.mk <$> readLE32

theorem codecDouble : Codec 8 Double.bytes readDouble :=
  codecU64.xmap Double.mk Double.bits (fun _ => rfl) (fun _ => rfl)

theorem codecFloat : Codec 4 Single.bytes readFloat :=
  codecU32.xmap Single.mk Single.bits (fun _ => rfl) (fun _ => rfl)

theorem codecNativeDouble : Codec 8 Double.native loadDouble :=
  codecLE64.xmap Double.mk Double.bits (fun _ => rfl) (fun _ => rfl)

theorem codecNativeFloat : Codec 4 Single.native loadFloat :=
  codecLE32.xmap Single.mk Single.bits (fun _ => rfl) (fun _ => rfl)

end Library.Ieee
