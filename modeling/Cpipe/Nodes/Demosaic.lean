import Cpipe.Library.Stencil
import Mathlib.Algebra.Order.Field.Basic

namespace Cpipe.Nodes.Demosaic
open Library.Stencil

/-- The patterns of the nodes: the colours of two by two pixels, row by row. -/
def kSupported : List (List Nat) := [[0,1,1,2],[2,1,1,0],[1,0,2,1],[1,2,0,1]]

variable {K : Type} [Field K] [LinearOrder K]

/-- The red, green and blue value of a pixel. -/
structure Rgb (K : Type) where
  r : K
  g : K
  b : K

/-- A channel of the output. -/
def Rgb.channel (rgb : Rgb K) (c : Nat) : K :=
  if c = 0 then rgb.r else if c = 1 then rgb.g else if c = 2 then rgb.b else 1

/-- The least green of a ratio, the float next to one millionth. -/
def kRatioEpsilon : K := 8796093/2^43

/-- What a generator reads: an image of raw samples and the pattern of its colours. -/
structure Input (K : Type) where
  width : Nat
  height : Nat
  samples : Int → Int → K
  cfaPattern : List Nat

namespace Input

variable (input : Input K)

def clamped (x y : Int) : K := repeatEdge input.width input.height input.samples x y

def cfaAt (sx sy : Int) : Nat := input.cfaPattern.getD ((sy % 2)*2 + sx % 2).toNat 0

/-! ### Bilinear -/

def bilinear (x y : Int) : Rgb K :=
  let center := input.clamped x y
  let horizontal := 1/2*(input.clamped (x - 1) y + input.clamped (x + 1) y)
  let vertical := 1/2*(input.clamped x (y - 1) + input.clamped x (y + 1))
  let cross := 1/4*(input.clamped (x - 1) y + input.clamped (x + 1) y + input.clamped x (y - 1) +
    input.clamped x (y + 1))
  let diagonal := 1/4*(input.clamped (x - 1) (y - 1) + input.clamped (x + 1) (y - 1) +
    input.clamped (x - 1) (y + 1) + input.clamped (x + 1) (y + 1))
  let cfa := input.cfaAt x y
  let redSite := cfa = 0
  let blueSite := cfa = 2
  let horizontalRed := input.cfaAt (x - 1) y = 0
  { r := if redSite then center else if blueSite then diagonal
      else if horizontalRed then horizontal else vertical
    g := if redSite ∨ blueSite then cross else center
    b := if blueSite then center else if redSite then diagonal
      else if horizontalRed then vertical else horizontal }

/-! ### Ratio corrected -/

def rcdGreen (x y : Int) : K :=
  let gh := 1/2*(input.clamped (x - 1) y + input.clamped (x + 1) y)
  let gv := 1/2*(input.clamped x (y - 1) + input.clamped x (y + 1))
  let dh := |input.clamped (x - 2) y - input.clamped (x + 2) y|
  let dv := |input.clamped x (y - 2) - input.clamped x (y + 2)|
  if input.cfaAt x y = 1 then input.clamped x y
  else if dh < dv then gh else if dv < dh then gv else 1/2*(gh + gv)

/-- `safe_ratio` of a pixel and its green. -/
def safeRatio (x y : Int) : K := input.clamped x y/max (input.rcdGreen x y) kRatioEpsilon

def rcd (x y : Int) : Rgb K :=
  let center := input.clamped x y
  let site := input.cfaAt x y
  let green := input.rcdGreen x y
  let redHorizontal := green*(1/2)*(input.safeRatio (x - 1) y + input.safeRatio (x + 1) y)
  let redVertical := green*(1/2)*(input.safeRatio x (y - 1) + input.safeRatio x (y + 1))
  let redDiagonal := green*(1/4)*(input.safeRatio (x - 1) (y - 1) +
    input.safeRatio (x + 1) (y - 1) + input.safeRatio (x - 1) (y + 1) +
    input.safeRatio (x + 1) (y + 1))
  let horizontalRed := input.cfaAt (x - 1) y = 0
  let horizontalBlue := input.cfaAt (x - 1) y = 2
  { r := max 0 (if site = 0 then center else if site = 2 then redDiagonal
      else if horizontalRed then redHorizontal else redVertical)
    g := max 0 green
    b := max 0 (if site = 2 then center else if site = 0 then redDiagonal
      else if horizontalBlue then redHorizontal else redVertical) }

/-! ### Chroma residuals -/

def amazeGreen (x y : Int) : K :=
  let center := input.clamped x y
  let centerTwice := 2*center
  let ghNeighbors := input.clamped (x - 1) y + input.clamped (x + 1) y
  let gvNeighbors := input.clamped x (y - 1) + input.clamped x (y + 1)
  let ghSecond := centerTwice - input.clamped (x - 2) y - input.clamped (x + 2) y
  let gvSecond := centerTwice - input.clamped x (y - 2) - input.clamped x (y + 2)
  let gh := (1/2*ghNeighbors) + (1/4*ghSecond)
  let gv := (1/2*gvNeighbors) + (1/4*gvSecond)
  let gradH := |input.clamped (x - 1) y - input.clamped (x + 1) y| +
    |input.clamped (x - 2) y - center| + |input.clamped (x + 2) y - center|
  let gradV := |input.clamped x (y - 1) - input.clamped x (y + 1)| +
    |input.clamped x (y - 2) - center| + |input.clamped x (y + 2) - center|
  let greenBlend := 1/2*(gh + gv)
  if input.cfaAt x y = 1 then center
  else if gradH < gradV then gh else if gradV < gradH then gv else greenBlend

def chroma (x y : Int) : K := input.clamped x y - input.amazeGreen x y

def amaze (x y : Int) : Rgb K :=
  let center := input.clamped x y
  let site := input.cfaAt x y
  let green := input.amazeGreen x y
  let chromaH := 1/2*(input.chroma (x - 1) y + input.chroma (x + 1) y)
  let chromaV := 1/2*(input.chroma x (y - 1) + input.chroma x (y + 1))
  let chromaD := 1/4*(input.chroma (x - 1) (y - 1) + input.chroma (x + 1) (y - 1) +
    input.chroma (x - 1) (y + 1) + input.chroma (x + 1) (y + 1))
  let horizontalRed := input.cfaAt (x - 1) y = 0
  let horizontalBlue := input.cfaAt (x - 1) y = 2
  let redH := green + chromaH
  let redV := green + chromaV
  let redD := green + chromaD
  let redInterp := if site = 2 then redD else if horizontalRed then redH else redV
  let blueInterp := if site = 0 then redD else if horizontalBlue then redH else redV
  { r := max 0 (if site = 0 then center else redInterp)
    g := max 0 green
    b := max 0 (if site = 2 then center else blueInterp) }

end Input

inductive Generator
  | bilinear | rcd | amaze
deriving DecidableEq, Repr

def Generator.generate (input : Input K) (x y : Int) : Generator → Rgb K
  | .bilinear => input.bilinear x y
  | .rcd => input.rcd x y
  | .amaze => input.amaze x y

/-- A channel of a pixel of the output, without the rounding to half. -/
def Generator.output (generator : Generator) (input : Input K) (x y : Int) (c : Nat) : K :=
  (generator.generate input x y).channel c

end Cpipe.Nodes.Demosaic
