import Cpipe.Library.Checked
import Cpipe.Runtime.HostContext

namespace Cpipe.Proofs.BlobStore
open Cpipe.Compute Cpipe.Runtime.HostContext Library

variable {ρ : Type}

/-- The key under which a blob with a field of its own is read. -/
def keyOf : Sidecar → String
  | .exif => "exif_raw"
  | .xmp => "xmp_raw"
  | .icc => "icc_raw"

/-! ### The law -/

/-- After `setBlob` a key reads what was set, or nothing where the bytes were empty. -/
def Sets (ops : List (BuilderOp ρ)) (m : BufferMetadata ρ) : Prop :=
  ∀ past key bytes later, ops = past ++ .setBlob key bytes :: later →
    (∀ other, .setBlob key other ∉ later) →
    getBlob m key = if bytes.isEmpty then .error .failed else .ok bytes

/-- `setBlob` leaves the other keys alone. -/
def Frames (base : BufferMetadata ρ) (ops : List (BuilderOp ρ)) : Prop :=
  ∀ past key bytes later, ops = past ++ .setBlob key bytes :: later →
    ∃ m m', build base past = .ok m ∧ build base (past ++ [.setBlob key bytes]) = .ok m' ∧
      ∀ other, other ≠ key → getBlob m' other = getBlob m other

/-- With enough room the keys that can be read are listed once, and no others. -/
def Lists (m : BufferMetadata ρ) : Prop :=
  ∀ max, (listBlobKeys m max).1 ≤ max →
    (listBlobKeys m max).2.Nodup ∧
    ∀ key, key ∈ (listBlobKeys m max).2 ↔ ∃ bytes, getBlob m key = .ok bytes

structure BlobLaw (base : BufferMetadata ρ) (ops : List (BuilderOp ρ)) : Prop where
  built : ∃ m, build base ops = .ok m ∧ Sets ops m ∧ Lists m
  frames : Frames base ops

/-- What the last setter of a field left there. -/
def held (which : Sidecar) (start : Option ByteBlob) (ops : List (BuilderOp ρ)) :
    Option ByteBlob :=
  ops.foldl (fun current op =>
    match op with
    | .setSidecar other blob => if other = which then blob else current
    | _ => current) start

/-- Where a field is set, its key is not used in the map. -/
def Unshadowed (base : BufferMetadata ρ) (ops : List (BuilderOp ρ)) : Prop :=
  ∀ which, (held which (base.sidecar which) ops).isSome →
    keyOf which ∉ base.extBlobs ∧ ∀ bytes, .setBlob (keyOf which) bytes ∉ ops

/-! ### The metadata after a run -/

def after (m : BufferMetadata ρ) : BuilderOp ρ → BufferMetadata ρ
  | .setBlob key bytes =>
    { m with
      extBlobs := if bytes.isEmpty then m.extBlobs.erase key else m.extBlobs.insert key bytes }
  | .setSidecar which blob => m.withSidecar which blob
  | .setField f => { m with fields := f m.fields }
  | .mergeFrom _ _ => m

theorem apply_eq (m : BufferMetadata ρ) (op : BuilderOp ρ) :
    apply ⟨m,none⟩ op = .ok ⟨after m op,none⟩ := by
  cases op with
  | setBlob key bytes =>
    cases bytes with
    | nil => rfl
    | cons b bytes => rfl
  | setSidecar which blob => cases which <;> rfl
  | setField f => rfl
  | mergeFrom i policy => rfl

/-- A builder that is not frozen refuses nothing. -/
theorem build_eq (base : BufferMetadata ρ) (ops : List (BuilderOp ρ)) :
    build base ops = .ok (ops.foldl after base) := by
  have hrun : ops.foldlM apply ⟨base,none⟩ = .ok ⟨ops.foldl after base,none⟩ := by
    induction ops generalizing base with
    | nil => rfl
    | cons op ops ih =>
      rw [List.foldlM_cons, apply_eq]
      exact ih (after base op)
  rw [build, hrun]
  rfl

theorem sidecar_withSidecar (m : BufferMetadata ρ) (which other : Sidecar)
    (blob : Option ByteBlob) :
    (m.withSidecar which blob).sidecar other = if which = other then blob else m.sidecar other := by
  cases which <;> cases other <;> rfl

theorem after_sidecar (m : BufferMetadata ρ) (op : BuilderOp ρ) (which : Sidecar) :
    (after m op).sidecar which = held which (m.sidecar which) [op] := by
  cases op with
  | setBlob key bytes => cases which <;> rfl
  | setSidecar other blob => exact sidecar_withSidecar m other which blob
  | setField f => cases which <;> rfl
  | mergeFrom i policy => rfl

theorem run_sidecar (base : BufferMetadata ρ) (ops : List (BuilderOp ρ)) (which : Sidecar) :
    (ops.foldl after base).sidecar which = held which (base.sidecar which) ops := by
  induction ops generalizing base with
  | nil => rfl
  | cons op ops ih =>
    rw [List.foldl_cons, ih, after_sidecar]
    rfl

/-- An operation that does not set a key keeps what the map has under it. -/
theorem after_untouched (m : BufferMetadata ρ) {op : BuilderOp ρ} {key : String}
    (h : ∀ bytes, op ≠ .setBlob key bytes) :
    (after m op).extBlobs.lookup key = m.extBlobs.lookup key := by
  cases op with
  | setBlob other bytes =>
    have hne : key ≠ other := fun he => h bytes (he ▸ rfl)
    simp only [after]
    split
    · exact AList.lookup_erase_ne hne
    · exact AList.lookup_insert_ne hne
  | setSidecar which blob => cases which <;> rfl
  | setField f => rfl
  | mergeFrom i policy => rfl

theorem run_untouched (base : BufferMetadata ρ) {ops : List (BuilderOp ρ)} {key : String}
    (h : ∀ bytes, .setBlob key bytes ∉ ops) :
    (ops.foldl after base).extBlobs.lookup key = base.extBlobs.lookup key := by
  induction ops generalizing base with
  | nil => rfl
  | cons op ops ih =>
    rw [List.foldl_cons, ih _ (fun bytes hm => h bytes (by simp [hm])), after_untouched]
    exact fun bytes he => h bytes (by simp [he])

theorem after_set (m : BufferMetadata ρ) (key : String) (bytes : List UInt8) :
    (after m (.setBlob key bytes)).extBlobs.lookup key =
      if bytes.isEmpty then none else some bytes := by
  simp only [after]
  split
  · exact AList.lookup_erase key _
  · exact AList.lookup_insert _

/-- The last value that was set is the one the map has. -/
theorem run_set (base : BufferMetadata ρ) {past later : List (BuilderOp ρ)} {key : String}
    {bytes : List UInt8} (h : ∀ other, .setBlob key other ∉ later) :
    ((past ++ .setBlob key bytes :: later).foldl after base).extBlobs.lookup key =
      if bytes.isEmpty then none else some bytes := by
  rw [List.foldl_append, List.foldl_cons, run_untouched _ h, after_set]

/-! ### Reading -/

def orFailed : Option ByteBlob → Except Status ByteBlob
  | none => .error .failed
  | some bytes => .ok bytes

theorem getBlob_sidecar {m : BufferMetadata ρ} {which : Sidecar} {bytes : ByteBlob}
    (h : m.sidecar which = some bytes) : getBlob m (keyOf which) = .ok bytes := by
  cases which with
  | exif =>
    have h : m.exifBlob = some bytes := h
    simp [getBlob, keyOf, h]
  | xmp =>
    have h : m.xmpBlob = some bytes := h
    simp [getBlob, keyOf, h]
  | icc =>
    have h : m.iccBlob = some bytes := h
    simp [getBlob, keyOf, h]

theorem getBlob_ext {m : BufferMetadata ρ} {key : String}
    (h : ∀ which, keyOf which = key → m.sidecar which = none) :
    getBlob m key = orFailed (m.extBlobs.lookup key) := by
  have hno : ∀ which, ¬ (key = keyOf which ∧ (m.sidecar which).isSome) := by
    rintro which ⟨rfl,hset⟩
    rw [h which rfl] at hset
    cases hset
  have hexif : ¬ (key = "exif_raw" ∧ m.exifBlob.isSome) := hno .exif
  have hxmp : ¬ (key = "xmp_raw" ∧ m.xmpBlob.isSome) := hno .xmp
  have hicc : ¬ (key = "icc_raw" ∧ m.iccBlob.isSome) := hno .icc
  rw [getBlob, if_neg hexif, if_neg hxmp, if_neg hicc]
  cases m.extBlobs.lookup key <;> rfl

/-- A key can be read where its field is set or the map has it. -/
theorem readable_iff {m : BufferMetadata ρ} {key : String} :
    (∃ bytes, getBlob m key = .ok bytes) ↔
      (∃ which, keyOf which = key ∧ (m.sidecar which).isSome) ∨ key ∈ m.extBlobs := by
  by_cases hset : ∃ which, keyOf which = key ∧ (m.sidecar which).isSome
  · refine iff_of_true ?_ (.inl hset)
    obtain ⟨which,rfl,hset⟩ := hset
    obtain ⟨bytes,hbytes⟩ := Option.isSome_iff_exists.mp hset
    exact ⟨bytes,getBlob_sidecar hbytes⟩
  · have hnone : ∀ which, keyOf which = key → m.sidecar which = none := by
      intro which hkey
      exact Option.not_isSome_iff_eq_none.mp (fun hs => hset ⟨which,hkey,hs⟩)
    rw [getBlob_ext hnone, or_iff_right hset, ← AList.lookup_isSome]
    cases m.extBlobs.lookup key with
    | none => simp [orFailed]
    | some bytes => simp [orFailed]

/-- The keys of the fields that are set. -/
def fieldKeys (m : BufferMetadata ρ) : List String :=
  (if m.exifBlob.isSome then ["exif_raw"] else []) ++
  (if m.xmpBlob.isSome then ["xmp_raw"] else []) ++
  (if m.iccBlob.isSome then ["icc_raw"] else [])

theorem fieldKeys_nodup (m : BufferMetadata ρ) : (fieldKeys m).Nodup := by
  unfold fieldKeys
  cases m.exifBlob <;> cases m.xmpBlob <;> cases m.iccBlob <;> simp

theorem mem_fieldKeys {m : BufferMetadata ρ} {key : String} :
    key ∈ fieldKeys m ↔ ∃ which, keyOf which = key ∧ (m.sidecar which).isSome := by
  have hone : ∀ (field : Option ByteBlob) (name : String),
      key ∈ (if field.isSome then [name] else []) ↔ name = key ∧ field.isSome := by
    intro field name
    cases field with
    | none => simp
    | some bytes => simp [eq_comm]
  rw [fieldKeys, List.mem_append, List.mem_append, hone, hone, hone]
  constructor
  · rintro ((h | h) | h)
    · exact ⟨.exif,h⟩
    · exact ⟨.xmp,h⟩
    · exact ⟨.icc,h⟩
  · rintro ⟨which,h⟩
    cases which with
    | exif => exact .inl (.inl h)
    | xmp => exact .inl (.inr h)
    | icc => exact .inr h

/-- Every readable key is listed and no other. -/
theorem mem_blobKeys {m : BufferMetadata ρ} {key : String} :
    key ∈ blobKeys m ↔ ∃ bytes, getBlob m key = .ok bytes := by
  have hsplit : blobKeys m = fieldKeys m ++
      m.extBlobs.keys.insertionSort (· ≤ ·) := rfl
  rw [readable_iff, hsplit, List.mem_append, mem_fieldKeys, List.mem_insertionSort, AList.mem_keys]

/-- The keys are listed once unless a set field has its key in the map as well. -/
theorem blobKeys_nodup {m : BufferMetadata ρ} : (blobKeys m).Nodup ↔
    ∀ which, (m.sidecar which).isSome → keyOf which ∉ m.extBlobs := by
  have hsplit : blobKeys m = fieldKeys m ++
      m.extBlobs.keys.insertionSort (· ≤ ·) := rfl
  have hsorted : (m.extBlobs.keys.insertionSort (· ≤ ·)).Nodup :=
    (List.perm_insertionSort _ _).nodup_iff.mpr m.extBlobs.keys_nodup
  rw [hsplit, List.nodup_append]
  constructor
  · rintro ⟨_,_,hapart⟩ which hset hmem
    refine hapart _ (mem_fieldKeys.mpr ⟨which,rfl,hset⟩) (keyOf which) ?_ rfl
    rw [List.mem_insertionSort]
    exact AList.mem_keys.mp hmem
  · intro h
    refine ⟨fieldKeys_nodup m,hsorted,?_⟩
    rintro key hfield _ hext rfl
    obtain ⟨which,rfl,hset⟩ := mem_fieldKeys.mp hfield
    rw [List.mem_insertionSort] at hext
    exact h which hset (AList.mem_keys.mpr hext)

theorem lists_iff {m : BufferMetadata ρ} : Lists m ↔
    ∀ which, (m.sidecar which).isSome → keyOf which ∉ m.extBlobs := by
  rw [← blobKeys_nodup]
  constructor
  · intro h
    have hall := (h (blobKeys m).length (Nat.le_refl _)).1
    rwa [listBlobKeys, List.take_length] at hall
  · intro h max hmax
    have hall : (listBlobKeys m max).2 = blobKeys m := List.take_of_length_le hmax
    rw [hall]
    exact ⟨h,fun key => mem_blobKeys⟩

/-! ### When the law holds -/

theorem frames_always (base : BufferMetadata ρ) (ops : List (BuilderOp ρ)) : Frames base ops := by
  intro past key bytes later _
  refine ⟨_,_,build_eq base past,build_eq base _,fun other hne => ?_⟩
  rw [List.foldl_append, List.foldl_cons, List.foldl_nil]
  generalize past.foldl after base = m
  have hext : (after m (.setBlob key bytes)).extBlobs.lookup other = m.extBlobs.lookup other := by
    refine after_untouched m (fun _ he => hne ?_)
    exact (BuilderOp.setBlob.inj he).1.symm
  have hfield : ∀ which, (after m (.setBlob key bytes)).sidecar which = m.sidecar which := by
    intro which
    cases which <;> rfl
  by_cases hset : ∃ which, keyOf which = other ∧ (m.sidecar which).isSome
  · obtain ⟨which,rfl,hset⟩ := hset
    obtain ⟨bytes,hbytes⟩ := Option.isSome_iff_exists.mp hset
    rw [getBlob_sidecar hbytes, getBlob_sidecar ((hfield which).trans hbytes)]
  · have hnone : ∀ which, keyOf which = other → m.sidecar which = none := by
      intro which hkey
      exact Option.not_isSome_iff_eq_none.mp (fun hs => hset ⟨which,hkey,hs⟩)
    rw [getBlob_ext hnone, getBlob_ext (fun which hkey => (hfield which).trans (hnone which hkey)),
      hext]

/-- The last `setBlob` of a key that occurs. -/
theorem last_set {ops : List (BuilderOp ρ)} {key : String}
    (h : ∃ bytes, .setBlob key bytes ∈ ops) :
    ∃ past bytes later, ops = past ++ .setBlob key bytes :: later ∧
      ∀ other, .setBlob key other ∉ later := by
  induction ops with
  | nil => simp at h
  | cons op ops ih =>
    by_cases hrest : ∃ bytes, .setBlob key bytes ∈ ops
    · obtain ⟨past,bytes,later,rfl,hlast⟩ := ih hrest
      exact ⟨op :: past,bytes,later,rfl,hlast⟩
    · obtain ⟨bytes,hm⟩ := h
      rcases List.mem_cons.mp hm with rfl | hm
      · exact ⟨[],bytes,ops,rfl,fun other ho => hrest ⟨other,ho⟩⟩
      · exact absurd ⟨bytes,hm⟩ hrest

theorem Unshadowed.law {base : BufferMetadata ρ} {ops : List (BuilderOp ρ)}
    (h : Unshadowed base ops) : BlobLaw base ops := by
  refine ⟨⟨_,build_eq base ops,?_,?_⟩,frames_always base ops⟩
  · intro past key bytes later hsplit hlast
    have hnone : ∀ which, keyOf which = key →
        (ops.foldl after base).sidecar which = none := by
      rintro which rfl
      rw [run_sidecar]
      refine Option.not_isSome_iff_eq_none.mp (fun hset => ?_)
      exact (h which hset).2 bytes (by rw [hsplit]; simp)
    rw [getBlob_ext hnone, hsplit, run_set base hlast]
    split <;> rfl
  · refine lists_iff.mpr (fun which hset hmem => ?_)
    rw [run_sidecar] at hset
    obtain ⟨hbase,hops⟩ := h which hset
    rw [← AList.lookup_isSome, run_untouched base hops, AList.lookup_isSome] at hmem
    exact hbase hmem

theorem BlobLaw.unshadowed {base : BufferMetadata ρ} {ops : List (BuilderOp ρ)}
    (h : BlobLaw base ops) : Unshadowed base ops := by
  obtain ⟨m,hbuild,hsets,hlists⟩ := h.built
  rw [build_eq] at hbuild
  obtain rfl := Except.ok.inj hbuild
  intro which hheld
  have hset : ((ops.foldl after base).sidecar which).isSome := by rwa [run_sidecar]
  have hmap := lists_iff.mp hlists which hset
  have hops : ∀ bytes, .setBlob (keyOf which) bytes ∉ ops := by
    intro bytes hm
    obtain ⟨past,last,later,hsplit,hlast⟩ := last_set ⟨bytes,hm⟩
    have hget := hsets past (keyOf which) last later hsplit hlast
    obtain ⟨field,hfield⟩ := Option.isSome_iff_exists.mp hset
    rw [getBlob_sidecar hfield] at hget
    rw [hsplit, ← AList.lookup_isSome, run_set base hlast] at hmap
    cases last with
    | nil => cases hget
    | cons b bytes => exact hmap rfl
  refine ⟨fun hbase => hmap ?_,hops⟩
  rw [← AList.lookup_isSome, run_untouched base hops, AList.lookup_isSome]
  exact hbase

/-- The store obeys its law exactly when no field hides a key of the map. -/
theorem blob_law_iff (base : BufferMetadata ρ) (ops : List (BuilderOp ρ)) :
    BlobLaw base ops ↔ Unshadowed base ops :=
  ⟨BlobLaw.unshadowed,Unshadowed.law⟩

/-- Metadata with an EXIF block, as the reader makes it. -/
def withExif : BufferMetadata Unit := { fields := (), exifBlob := some [1,2] }

/-- A new EXIF block is not read back, the old one cannot be cleared, and its key is
listed twice. -/
theorem exif_hides_blob :
    (∃ m, build withExif [.setBlob "exif_raw" [3]] = .ok m ∧
      getBlob m "exif_raw" = .ok [1,2] ∧ blobKeys m = ["exif_raw","exif_raw"]) ∧
    (∃ m, build withExif [.setBlob "exif_raw" []] = .ok m ∧
      getBlob m "exif_raw" = .ok [1,2]) ∧
    ¬ BlobLaw withExif [.setBlob "exif_raw" [3]] := by
  refine ⟨⟨_,rfl,rfl,by decide⟩,⟨_,rfl,rfl⟩,fun h => ?_⟩
  obtain ⟨m,hbuild,hsets,_⟩ := h.built
  obtain rfl := Except.ok.inj hbuild
  have hget := hsets [] "exif_raw" [3] [] rfl (by simp)
  cases hget

end Cpipe.Proofs.BlobStore
