import Cpipe.Core.BufferMetadata
import Cpipe.Core.Manifest
import Mathlib.Data.List.Sort

namespace Cpipe.Runtime.HostContext
open Compute

/-! ### Metadata blobs

The entry points of the metadata suites with arguments that are not null. -/

variable {ρ : Type}

def getBlob (m : BufferMetadata ρ) (key : String) : Except Status ByteBlob :=
  let blob :=
    if key = "exif_raw" ∧ m.exifBlob.isSome then m.exifBlob
    else if key = "xmp_raw" ∧ m.xmpBlob.isSome then m.xmpBlob
    else if key = "icc_raw" ∧ m.iccBlob.isSome then m.iccBlob
    else m.extBlobs.lookup key
  match blob with
  | none => .error .failed
  | some bytes => .ok bytes

/-- All keys: those of the set fields, then those of the map in their order. -/
def blobKeys (m : BufferMetadata ρ) : List String :=
  (if m.exifBlob.isSome then ["exif_raw"] else []) ++
  (if m.xmpBlob.isSome then ["xmp_raw"] else []) ++
  (if m.iccBlob.isSome then ["icc_raw"] else []) ++
  m.extBlobs.keys.insertionSort (· ≤ ·)

/-- The number of keys and as many of them as the caller has room for. -/
def listBlobKeys (m : BufferMetadata ρ) (max : Nat) : Nat × List String :=
  ((blobKeys m).length,(blobKeys m).take max)

def setBlob (b : MetadataBuilder ρ) (key : String) (bytes : List UInt8) :
    Except MetadataBuilder.LogicError (MetadataBuilder ρ) :=
  if bytes.isEmpty then b.setBlob key none else b.setBlob key (some bytes)

/-- Merging is not implemented: the primary policy does nothing and the others are
refused. -/
def mergeFrom (_inputIndex : Nat) (policy : Int) : Status :=
  if policy = 0 then .ok else .unsupported

/-! ### Runs of a builder -/

/-- What a node or the host does to a builder. -/
inductive BuilderOp (ρ : Type) where
  | setBlob (key : String) (bytes : List UInt8)
  | setSidecar (which : Sidecar) (blob : Option ByteBlob)
  | setField (f : ρ → ρ)
  | mergeFrom (inputIndex : Nat) (policy : Int)

def apply (b : MetadataBuilder ρ) :
    BuilderOp ρ → Except MetadataBuilder.LogicError (MetadataBuilder ρ)
  | .setBlob key bytes => setBlob b key bytes
  | .setSidecar .exif blob => b.setExifBlob blob
  | .setSidecar .xmp blob => b.setXmpBlob blob
  | .setSidecar .icc blob => b.setIccBlob blob
  | .setField f => b.setField f
  | .mergeFrom _ _ => .ok b

/-- The frozen metadata of a builder made from `base`. -/
def build (base : BufferMetadata ρ) (ops : List (BuilderOp ρ)) :
    Except MetadataBuilder.LogicError (BufferMetadata ρ) := do
  let b ← ops.foldlM apply ⟨base,none⟩
  return b.freeze.2

end Cpipe.Runtime.HostContext
