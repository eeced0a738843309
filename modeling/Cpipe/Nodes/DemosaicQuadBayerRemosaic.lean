import Cpipe.Library.Stencil

namespace Cpipe.Nodes.DemosaicQuadBayerRemosaic
open Library.Stencil

/-- The colours of a quad Bayer cell of four by four pixels, row by row. -/
def kSonyQbc : List Nat := [0,0,1,1,0,0,1,1,1,1,2,2,1,1,2,2]

/-- The colours of a Bayer cell of two by two pixels. -/
def kRggbPattern : List Nat := [0,1,1,2]

/-- A coordinate in its cell. The remainder is never negative. -/
def coord (v : Int) : Int := (v % 4 + 4) % 4

def qbcColor (sx sy : Int) : Nat :=
  let mx := coord sx
  let my := coord sy
  if my < 2 ∧ mx < 2 then 0 else if 2 ≤ my ∧ 2 ≤ mx then 2 else 1

/-- The colour of the output at a pixel. -/
def target (x y : Int) : Nat :=
  if y % 2 = 0 ∧ x % 2 = 0 then 0 else if y % 2 ≠ 0 ∧ x % 2 ≠ 0 then 2 else 1

/-- The steps of the two loops. -/
def window : List (Int × Int) :=
  [-2,-1,0,1,2].flatMap (fun dy => [-2,-1,0,1,2].map (fun dx => (dx,dy)))

section Generate

variable (width height : Nat) (input : Int → Int → UInt16)

def clamped (x y : Int) : UInt16 := repeatEdge width height input x y

/-- Where a step from a pixel leads. -/
def source (x y : Int) (d : Int × Int) : Int × Int :=
  (clamp (x + d.1) 0 (width - 1),clamp (y + d.2) 0 (height - 1))

def sample (x y : Int) (d : Int × Int) : UInt16 :=
  let s := source width height x y d
  clamped width height input s.1 s.2

/-- The absolute difference of two samples. -/
def gradient (a b : UInt16) : Nat := ((a.toNat : Int) - b.toNat).natAbs

def penalty (x y : Int) (d : Int × Int) : Nat :=
  let s := source width height x y d
  let gradX := gradient (clamped width height input (s.1 - 1) s.2)
    (clamped width height input (s.1 + 1) s.2)
  let gradY := gradient (clamped width height input s.1 (s.2 - 1))
    (clamped width height input s.1 (s.2 + 1))
  64 + gradX + gradY + (d.1.natAbs + d.2.natAbs)*16

def candidateWeight (x y : Int) (d : Int × Int) : Nat :=
  max 1 (65536 / penalty width height input x y d)

def weight (x y : Int) (d : Int × Int) : UInt32 :=
  let s := source width height x y d
  UInt32.ofNat
    (if qbcColor s.1 s.2 = target x y then candidateWeight width height input x y d else 0)

def weightedSum (x y : Int) : UInt32 :=
  window.foldl (fun sum d => sum +
    weight width height input x y d * (sample width height input x y d).toUInt32) 0

def weightSum (x y : Int) : UInt32 :=
  window.foldl (fun sum d => sum + weight width height input x y d) 0

def output (x y : Int) : UInt16 :=
  let sum := weightSum width height input x y
  if sum = 0 then 0 else ((weightedSum width height input x y + sum/2)/sum).toUInt16

end Generate

end Cpipe.Nodes.DemosaicQuadBayerRemosaic
