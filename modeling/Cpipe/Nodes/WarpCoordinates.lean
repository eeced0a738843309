import Cpipe.Library.Binary64
import Cpipe.Nodes.DngOpcodeList3Dispatch
import Mathlib.Data.Rat.Floor

/-! The coordinates of `apply_warp` in the doubles of the kernel, up to the conversion to `int`
in `sample_bicubic`. -/

namespace Cpipe.Nodes.WarpCoordinates
open Ingest.OpcodeList3 Library.Ieee
open DngOpcodeList3 (Frame Opcode3DispatchRecord cellsOf kChannels warpCoefficient)

/-- `static_cast<double>` of an `int` that is not negative. -/
def ofInt (n : Nat) : Float := (UInt32.ofNat n).toFloat

def ofDouble (x : Double) : Float := Float.ofBits x.bits

/-- One step of `std::max` over a list. -/
def larger (a b : Float) : Float := if a < b then b else a

def maxCornerDistance (cx cy : Float) (width height : Nat) : Float :=
  let x1 := ofInt (width - 1)
  let y1 := ofInt (height - 1)
  let d00 := (cx*cx) + (cy*cy)
  let d10 := ((x1 - cx)*(x1 - cx)) + (cy*cy)
  let d01 := (cx*cx) + ((y1 - cy)*(y1 - cy))
  let d11 := ((x1 - cx)*(x1 - cx)) + ((y1 - cy)*(y1 - cy))
  Float.sqrt (larger (larger (larger d00 d10) d01) d11)

/-- `std::numeric_limits<double>::epsilon()`, the bits of `2^(-52)`. -/
def epsilon : Float := Float.ofBits 0x3CB0000000000000

def frame (cxHat cyHat : Double) (width height : Nat) : Frame Float :=
  let cx := ofDouble cxHat*ofInt (width - 1)
  let cy := ofDouble cyHat*ofInt (height - 1)
  { cx, cy, m := maxCornerDistance cx cy width height }

/-- A pixel in the frame. -/
def normalised (f : Frame Float) (x y : Nat) : Float × Float :=
  ((ofInt x - f.cx)/f.m,(ofInt y - f.cy)/f.m)

/-- `r2`. -/
def squaredRadius (dx dy : Float) : Float := (dx*dx) + (dy*dy)

/-- `f`. -/
def radial (k : WarpCoefficient) (r2 : Float) : Float :=
  let r4 := r2*r2
  let r6 := r4*r2
  ofDouble k.kr0 + (ofDouble k.kr1*r2) + (ofDouble k.kr2*r4) + (ofDouble k.kr3*r6)

def tangentialX (k : WarpCoefficient) (dx dy : Float) : Float :=
  (2.0*ofDouble k.kt0*dx*dy) + (ofDouble k.kt1*(squaredRadius dx dy + 2.0*dx*dx))

def tangentialY (k : WarpCoefficient) (dx dy : Float) : Float :=
  (ofDouble k.kt0*(squaredRadius dx dy + 2.0*dy*dy)) + (2.0*ofDouble k.kt1*dx*dy)

/-- What the coefficients make of a pixel in the frame, in the frame. -/
def distorted (k : WarpCoefficient) (dx dy : Float) : Float × Float :=
  let f := radial k (squaredRadius dx dy)
  ((f*dx) + tangentialX k dx dy,(f*dy) + tangentialY k dx dy)

/-- Where a channel of a pixel comes from. -/
def warpSource (f : Frame Float) (k : WarpCoefficient) (x y : Nat) : Float × Float :=
  let (dx,dy) := normalised f x y
  let (px,py) := distorted k dx dy
  (f.cx + (f.m*px),f.cy + (f.m*py))

/-- The coordinates that `apply_warp` hands to `sample_bicubic`, each with the extent that it
is clamped to. -/
def sampledCoordinates (record : Opcode3DispatchRecord) (width height : Nat) :
    List (Float × Nat) :=
  if record.coefficientCount = 0 ∨ width ≤ 1 ∨ height ≤ 1 then
    []
  else
    let f := frame record.cxHat record.cyHat width height
    if f.m ≤ epsilon then
      []
    else
      (cellsOf width height kChannels).flatMap (fun p =>
        let source := warpSource f (warpCoefficient record p.2.2) p.1 p.2.1
        [(source.1,width),(source.2,height)])

/-- `std::clamp(v, 0.0, extent - 1)`, which hands a NaN on. -/
def clampCoordinate (v : Float) (extent : Nat) : Float :=
  if v < 0.0 then 0.0 else if ofInt (extent - 1) < v then ofInt (extent - 1) else v

/-- `static_cast<int>(std::floor(v))` where it is defined: for a finite `v` whose floor is one
of `int`. -/
def castFloor (v : Float) : Option Int := do
  let value ← Library.Binary64.value v.toModel.unpack
  if -2^31 ≤ ⌊value⌋ ∧ ⌊value⌋ < 2^31 then some ⌊value⌋ else none

end Cpipe.Nodes.WarpCoordinates
