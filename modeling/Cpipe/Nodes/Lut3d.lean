import Cpipe.Color.Cube3dLutLoader
import Cpipe.Library.Stencil
import Mathlib.Data.Rat.Floor

namespace Cpipe.Nodes.Lut3d
open Color (Cube3dLut)
open Library.Stencil (clamp)

def clamp01 (value : ℚ) : ℚ := max (min value 1) 0

def addDelta (base start stop weight : ℚ) : ℚ := base + ((stop - start)*weight)

/-- The place of an entry in the table. -/
def index (size r g b : Int) : Int := (r*size + g)*size + b

/-- A channel of an entry. The second dimension of the table counts its entries. -/
def sample (lut : Cube3dLut) (channel : Nat) (r g b : Int) : Option ℚ :=
  let i := index lut.size r g b
  if i < 0 ∨ (lut.values.length / 3 : Nat) ≤ i then none else lut.values[3*i.toNat + channel]?

/-- The samples at the corners of a cell. -/
structure Corners where
  c000 : ℚ
  c100 : ℚ
  c010 : ℚ
  c001 : ℚ
  c110 : ℚ
  c101 : ℚ
  c011 : ℚ
  c111 : ℚ
deriving DecidableEq, Repr

def corners (lut : Cube3dLut) (channel : Nat) (r0 g0 b0 : Int) : Option Corners := do
  let c000 ← sample lut channel r0 g0 b0
  let c100 ← sample lut channel (r0 + 1) g0 b0
  let c010 ← sample lut channel r0 (g0 + 1) b0
  let c001 ← sample lut channel r0 g0 (b0 + 1)
  let c110 ← sample lut channel (r0 + 1) (g0 + 1) b0
  let c101 ← sample lut channel (r0 + 1) g0 (b0 + 1)
  let c011 ← sample lut channel r0 (g0 + 1) (b0 + 1)
  let c111 ← sample lut channel (r0 + 1) (g0 + 1) (b0 + 1)
  return { c000, c100, c010, c001, c110, c101, c011, c111 }

/-! ### Tetrahedra -/

/-- The orders of the three fractions, the largest first. -/
inductive Order
  | rgb | rbg | brg | grb | gbr | bgr
deriving DecidableEq, Repr

/-- The condition of a branch. -/
def Order.holds (dr dg db : ℚ) : Order → Bool
  | .rgb => dg ≤ dr && db ≤ dg
  | .rbg => db ≤ dr && dg ≤ db
  | .brg => dr ≤ db && dg ≤ dr
  | .grb => dr ≤ dg && db ≤ dr
  | .gbr => db ≤ dg && dr ≤ db
  | .bgr => dg ≤ db && dr ≤ dg

/-- The value of a branch. -/
def Order.value (c : Corners) (dr dg db : ℚ) : Order → ℚ
  | .rgb => addDelta (addDelta (addDelta c.c000 c.c000 c.c100 dr) c.c100 c.c110 dg) c.c110 c.c111 db
  | .rbg => addDelta (addDelta (addDelta c.c000 c.c000 c.c100 dr) c.c100 c.c101 db) c.c101 c.c111 dg
  | .brg => addDelta (addDelta (addDelta c.c000 c.c000 c.c001 db) c.c001 c.c101 dr) c.c101 c.c111 dg
  | .grb => addDelta (addDelta (addDelta c.c000 c.c000 c.c010 dg) c.c010 c.c110 dr) c.c110 c.c111 db
  | .gbr => addDelta (addDelta (addDelta c.c000 c.c000 c.c010 dg) c.c010 c.c011 db) c.c011 c.c111 dr
  | .bgr => addDelta (addDelta (addDelta c.c000 c.c000 c.c001 db) c.c001 c.c011 dg) c.c011 c.c111 dr

/-- The branch of the select. The last one has no condition. -/
def chosen (dr dg db : ℚ) : Order :=
  if Order.holds dr dg db .rgb then .rgb
  else if Order.holds dr dg db .rbg then .rbg
  else if Order.holds dr dg db .brg then .brg
  else if Order.holds dr dg db .grb then .grb
  else if Order.holds dr dg db .gbr then .gbr
  else .bgr

def tetrahedral (c : Corners) (dr dg db : ℚ) : ℚ := (chosen dr dg db).value c dr dg db

def trilinear (c : Corners) (dr dg db : ℚ) : ℚ :=
  let c00 := c.c000 + ((c.c100 - c.c000)*dr)
  let c10 := c.c010 + ((c.c110 - c.c010)*dr)
  let c01 := c.c001 + ((c.c101 - c.c001)*dr)
  let c11 := c.c011 + ((c.c111 - c.c011)*dr)
  let c0 := c00 + ((c10 - c00)*dg)
  let c1 := c01 + ((c11 - c01)*dg)
  c0 + ((c1 - c0)*db)

/-! ### Pixels -/

def scaled (size : Nat) (v : ℚ) : ℚ := clamp01 v * ((size : ℚ) - 1)

/-- The cell of a value in one direction. -/
def base (size : Nat) (v : ℚ) : Int := clamp ⌊scaled size v⌋ 0 (size - 2)

/-- Where in its cell a value lies. -/
def fraction (size : Nat) (v : ℚ) : ℚ := scaled size v - base size v

/-- A channel of the output before its clamp. -/
def value (lut : Cube3dLut) (interpolation : Int) (channel : Nat) (r g b : ℚ) : Option ℚ := do
  let c ← corners lut channel (base lut.size r) (base lut.size g) (base lut.size b)
  let dr := fraction lut.size r
  let dg := fraction lut.size g
  let db := fraction lut.size b
  return if interpolation = 1 then trilinear c dr dg db else tetrahedral c dr dg db

/-- A channel of a pixel of the output; the fourth is the input's. -/
def output (lut : Cube3dLut) (interpolation : Int) (input : Nat → ℚ) (c : Nat) : Option ℚ :=
  if c = 3 then some (input c)
  else clamp01 <$> value lut interpolation (min c 2) (input 0) (input 1) (input 2)

end Cpipe.Nodes.Lut3d
