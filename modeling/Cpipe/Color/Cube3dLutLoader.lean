import Cpipe.Core.Manifest
import Cpipe.Library.PosixPath
import Cpipe.Library.Scan

namespace Cpipe.Color
open Library Library.Scan Library.Rounding

/-- A value is the number its `float` stands for. -/
structure Cube3dLut where
  size : Nat := 0
  values : List Rat := []
deriving DecidableEq, Repr

structure Rgb where
  r : Rat
  g : Rat
  b : Rat
deriving DecidableEq, Repr

def Rgb.channels (c : Rgb) : List Rat := [c.r,c.g,c.b]

/-- Three values of the table; beyond it there is nothing to read. -/
def rgbAt (values : List Rat) (index : Nat) : Option Rgb := do
  let offset := index * 3
  let r ← values[offset]?
  let g ← values[offset+1]?
  let b ← values[offset+2]?
  pure ⟨r,g,b⟩

/-- `Cube3dLut::at`. -/
def Cube3dLut.atIndex (lut : Cube3dLut) (r g b : Nat) : Option Rgb :=
  rgbAt lut.values (r * lut.size * lut.size + g * lut.size + b)

namespace Cube3dLutLoader

def failed (message : String) : Error := ⟨.failed,message⟩

def float : Extract Rat := real Format.single 128

def double : Extract Rat := real Format.double 1024

def stripComment (line : List Char) : List Char := line.takeWhile (fun c => c != '#')

def valueCountForSize (size : Nat) : Nat := size * size * size * 3

def validSize (size : Nat) : Except Error Unit :=
  if size < 2 then .error (failed "3D LUT size must be at least 2")
  else if 256 < size then .error (failed "3D LUT size above P2 loader limit")
  else .ok ()

/-! ### `.cube` -/

/-- `values_row >> r >> g >> b`. -/
def rgbRow : Extract Rgb := do
  let r ← float
  let g ← float
  let b ← float
  pure ⟨r,g,b⟩

/-- One pass of the loop. A second size replaces the first. -/
def cubeLine (lut : Cube3dLut) (line : List Char) : Except Error Cube3dLut :=
  match word (stripComment line) with
  | none => .ok lut
  | some (head,row) =>
    if head = "TITLE".toList ∨ head = "DOMAIN_MIN".toList ∨ head = "DOMAIN_MAX".toList then
      .ok lut
    else if head = "LUT_3D_SIZE".toList then
      match int row with
      | none => .error (failed "invalid LUT_3D_SIZE")
      | some (parsed,_) =>
        if parsed < 0 then .error (failed "invalid LUT_3D_SIZE")
        else do
          validSize parsed.toNat
          .ok { lut with size := parsed.toNat }
    else
      match rgbRow (stripComment line) with
      | none => .error (failed "invalid .cube RGB row")
      | some (rgb,_) => .ok { lut with values := lut.values ++ rgb.channels }

def loadCube (text : List Char) : Except Error Cube3dLut := do
  let lut ← (getlines text).foldlM cubeLine {}
  if lut.size = 0 then .error (failed "missing LUT_3D_SIZE")
  else if lut.values.length ≠ valueCountForSize lut.size then
    .error (failed "wrong number of .cube RGB rows")
  else .ok lut

/-! ### `.spi3d` -/

structure Sample where
  r : Int
  g : Int
  b : Int
  rgb : Rgb
deriving DecidableEq, Repr

/-- `input >> r >> g >> b >> out_r >> out_g >> out_b`. -/
def sampleRow : Extract Sample := do
  let r ← int
  let g ← int
  let b ← int
  let rgb ← rgbRow
  pure ⟨r,g,b,rgb⟩

/-- The rows up to the first that cannot be read. Each takes text, so that there are no more
than the text is long. -/
def sampleRows : Nat → List Char → List Sample
  | 0, _ => []
  | limit+1, text =>
    match sampleRow text with
    | none => []
    | some (sample,rest) => sample :: sampleRows limit rest

structure Grid where
  values : List Rat
  seen : List Bool
deriving DecidableEq, Repr

def place (size : Nat) (grid : Grid) (s : Sample) : Except Error Grid :=
  if s.r < 0 ∨ s.g < 0 ∨ s.b < 0 ∨ size ≤ s.r ∨ size ≤ s.g ∨ size ≤ s.b then
    .error (failed ".spi3d index out of range")
  else
    let index := s.r.toNat * size * size + s.g.toNat * size + s.b.toNat
    let offset := index * 3
    .ok {
      values := ((grid.values.set offset s.rgb.r).set (offset+1) s.rgb.g).set (offset+2) s.rgb.b
      seen := grid.seen.set index true }

/-- `!(input >> ..) || ..` with the message of its branch. -/
def expect {α : Type} (x : Extract α) (ok : α → Bool) (message : String) (text : List Char) :
    Except Error (α × List Char) :=
  match x text with
  | none => .error (failed message)
  | some (a,rest) => if ok a then .ok (a,rest) else .error (failed message)

def magicRow : Extract (List Char) := do
  let magic ← word
  let _ ← double
  pure magic

def componentRow : Extract (Int × Int) := do
  let inputs ← int
  let outputs ← int
  pure (inputs,outputs)

def sizeRow : Extract (Int × Int × Int) := do
  let r ← int
  let g ← int
  let b ← int
  pure (r,g,b)

def loadSpi3d (text : List Char) : Except Error Cube3dLut := do
  let (_,text) ← expect magicRow (· = "SPILUT".toList) "missing SPILUT header" text
  let (_,text) ← expect componentRow (· = (3,3)) "unsupported .spi3d component count" text
  let (sizes,text) ← expect sizeRow
    (fun sizes => sizes.1 = sizes.2.1 && sizes.2.1 = sizes.2.2 && 0 ≤ sizes.1)
    "unsupported .spi3d grid dimensions" text
  let size := sizes.1.toNat
  validSize size
  let empty : Grid := ⟨List.replicate (valueCountForSize size) 0,
    List.replicate (valueCountForSize size / 3) false⟩
  let grid ← (sampleRows text.length text).foldlM (place size) empty
  if grid.seen.all id then .ok ⟨size,grid.values⟩
  else .error (failed "missing .spi3d sample rows")

/-! ### Files -/

def lowerExtension (path : PosixPath.Path) : List Char :=
  (PosixPath.extension path).map Char.toLower

/-- `load` from the opening of the file on; `file` is its text, when it opens. -/
def loadFile (path : PosixPath.Path) (file : Option (List Char)) : Except Error Cube3dLut :=
  match file with
  | none => .error (failed "failed to open 3D LUT file")
  | some text =>
    if lowerExtension path = ".cube".toList then loadCube text
    else if lowerExtension path = ".spi3d".toList then loadSpi3d text
    else .error ⟨.unsupported,"unsupported 3D LUT extension"⟩

/-- `out` is what the pointer refers to. It is cleared first and written last. -/
def load (path : PosixPath.Path) (file : Option (List Char)) (out : Option Cube3dLut) :
    Except Error Unit × Option Cube3dLut :=
  match out with
  | none => (.error ⟨.badIndex,"output LUT pointer is null"⟩,none)
  | some _ =>
    match loadFile path file with
    | .ok lut => (.ok (),some lut)
    | .error e => (.error e,some {})

end Cube3dLutLoader

end Cpipe.Color
