import Mathlib.Data.List.AList

namespace Cpipe.Compute

/-- Bytes behind a shared pointer. -/
abbrev ByteBlob := List UInt8

/-- The blobs with a field of their own. -/
inductive Sidecar where
  | exif | xmp | icc
deriving DecidableEq, Repr

/-- Metadata of a buffer. The fields no blob function touches are `fields`. Nobody stores
a null pointer in `extBlobs`. -/
structure BufferMetadata (ρ : Type) where
  fields : ρ
  exifBlob : Option ByteBlob := none
  xmpBlob : Option ByteBlob := none
  iccBlob : Option ByteBlob := none
  extBlobs : AList (fun _ : String => ByteBlob) := ∅

namespace BufferMetadata

variable {ρ : Type}

def sidecar (m : BufferMetadata ρ) : Sidecar → Option ByteBlob
  | .exif => m.exifBlob
  | .xmp => m.xmpBlob
  | .icc => m.iccBlob

def withSidecar (m : BufferMetadata ρ) (which : Sidecar) (blob : Option ByteBlob) :
    BufferMetadata ρ :=
  match which with
  | .exif => { m with exifBlob := blob }
  | .xmp => { m with xmpBlob := blob }
  | .icc => { m with iccBlob := blob }

end BufferMetadata

structure MetadataBuilder (ρ : Type) where
  metadata : BufferMetadata ρ
  frozen : Option (BufferMetadata ρ) := none

namespace MetadataBuilder

variable {ρ : Type}

/-- `std::logic_error{"MetadataBuilder is frozen"}`. -/
inductive LogicError where
  | frozen
deriving DecidableEq, Repr

def ensureMutable (b : MetadataBuilder ρ) : Except LogicError Unit :=
  if b.frozen.isSome then .error .frozen else .ok ()

/-- Every setter checks that the builder is mutable and writes its own part. -/
def change (b : MetadataBuilder ρ) (f : BufferMetadata ρ → BufferMetadata ρ) :
    Except LogicError (MetadataBuilder ρ) := do
  b.ensureMutable
  return { b with metadata := f b.metadata }

def setExifBlob (b : MetadataBuilder ρ) (blob : Option ByteBlob) :=
  b.change (fun m => m.withSidecar .exif blob)

def setXmpBlob (b : MetadataBuilder ρ) (blob : Option ByteBlob) :=
  b.change (fun m => m.withSidecar .xmp blob)

def setIccBlob (b : MetadataBuilder ρ) (blob : Option ByteBlob) :=
  b.change (fun m => m.withSidecar .icc blob)

def setBlob (b : MetadataBuilder ρ) (key : String) (blob : Option ByteBlob) :=
  b.change (fun m =>
    match blob with
    | none => { m with extBlobs := m.extBlobs.erase key }
    | some bytes => { m with extBlobs := m.extBlobs.insert key bytes })

/-- The setters of the other fields. -/
def setField (b : MetadataBuilder ρ) (f : ρ → ρ) :=
  b.change (fun m => { m with fields := f m.fields })

def freeze (b : MetadataBuilder ρ) : MetadataBuilder ρ × BufferMetadata ρ :=
  match b.frozen with
  | some m => (b,m)
  | none => ({ b with frozen := some b.metadata },b.metadata)

end MetadataBuilder
end Cpipe.Compute
