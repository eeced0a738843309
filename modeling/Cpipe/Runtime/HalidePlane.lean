import Cpipe.Library.Raster
import Cpipe.Runtime.HalideBufferAdapter

/-! Planes of one channel, for kernels that compute the index of a pixel in `int`. -/

namespace Cpipe.Runtime.HalidePlane
open Compute HalideBufferAdapter
open Library.Bytes (Fault)

/-- The dimensions the adapter gives a packed plane of floats. -/
def planeDims (width height : UInt32) : List Dimension :=
  ((view (imageLayout .r32Sfloat width height)).map View.dims).getD []

def dim (dims : List Dimension) (i : Nat) : Dimension := dims.getD i ⟨0,0⟩

/-- How often a loop up to the extent of a dimension runs. -/
def rounds (dims : List Dimension) (i : Nat) : Nat := (dim dims i).extent.toInt.toNat

/-- `(y * dim[1].stride) + (x * dim[0].stride)` of 32-bit integers. -/
def offset (dims : List Dimension) (p : Nat × Nat) : Int32 :=
  (Int32.ofNat p.2*(dim dims 1).stride) + (Int32.ofNat p.1*(dim dims 0).stride)

/-- An index of memory in the source is a signed one. -/
def checkedIndex (size : Nat) (offset : Int32) : Except Fault Nat :=
  if offset < 0 then .error ⟨(2^64 + offset.toInt).toNat,size⟩ else .ok offset.toInt.toNat

/-- Both extents and the index of every pixel are values of `int`. -/
structure Indexable (width height : UInt32) : Prop where
  width_lt : width.toNat < 2^31
  height_lt : height.toNat < 2^31
  count_le : width.toNat*height.toNat ≤ 2^31

end Cpipe.Runtime.HalidePlane
