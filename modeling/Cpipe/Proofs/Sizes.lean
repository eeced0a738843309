import Cpipe.Ingest.DngReader
import Cpipe.Proofs.Load
import Mathlib.Data.List.GetD

namespace Cpipe.Proofs.Sizes
open Cpipe.Runtime Cpipe.Runtime.Pipeline Cpipe.Compute Cpipe.Ingest Library

variable {input : InputJson} {format : PixelFormat} {nodes : List DescPtr}
  {edges : List MemoryGraphEdge} {metadata : ParsedDngMetadata}

/-- The dimensions the document asks for. -/
def width (input : InputJson) : Nat := (input.width.getD 0).toNat

def height (input : InputJson) : Nat := (input.height.getD 0).toNat

/-- Bytes of the input image, in exact arithmetic. -/
def imageBytes (input : InputJson) (format : PixelFormat) : Nat :=
  (bytesPerPixel format).toNat * width input * height input

def inputFormat (input : InputJson) : PixelFormat :=
  (pixelFormatFromString input.format).getD .r8g8b8a8Unorm

/-- Bytes the planner has to count for a node. -/
def nodeBytes (input : InputJson) (desc : DescPtr) : Nat :=
  width input * height input * (MemoryPlanner.outputBytesPerPixel desc).toNat

def planned (input : InputJson) (nodes : List DescPtr) (edges : List MemoryGraphEdge) :
    MemoryPlan :=
  MemoryPlanner.planGraph (layoutFromJson input) nodes edges

/-- Bytes slot `k` has to hold: the largest buffer assigned to it. -/
def slotBytes (input : InputJson) (nodes : List DescPtr) (plan : MemoryPlan) (k : Nat) : Nat :=
  ((plan.assignments.filter (fun a => a.physicalSlot == k)).map
    (fun a => nodeBytes input (nodes.getD a.nodeIndex none))).foldr max 0

/-- The peak of the plan, in exact arithmetic. -/
def peakBytes (input : InputJson) (nodes : List DescPtr) (edges : List MemoryGraphEdge) : Nat :=
  imageBytes input (inputFormat input) +
    ((List.range (planned input nodes edges).physicalSlotCount).map
      (slotBytes input nodes (planned input nodes edges))).sum

/-- Every size the program computes is the mathematical one. -/
structure ExactSizes (input : InputJson) (format : PixelFormat) (nodes : List DescPtr)
    (edges : List MemoryGraphEdge) (metadata : ParsedDngMetadata) : Prop where
  width : ((layoutFromJson input).dims.toList.getD 0 0).toNat = width input
  height : ((layoutFromJson input).dims.toList.getD 1 0).toNat = height input
  size : ({ layoutFromJson input with format := format } : BufferLayout).sizeBytes.toNat =
    imageBytes input format
  buffers : ∀ a ∈ (planned input nodes edges).assignments,
    a.sizeBytes.toNat = nodeBytes input (nodes.getD a.nodeIndex none)
  peak : (planned input nodes edges).peakBytes.toNat = peakBytes input nodes edges
  expected : (DngReader.expectedBytes metadata).toNat =
    metadata.width.toNat * metadata.height.toNat * 2
  raw : (DngReader.rawLayout metadata).sizeBytes.toNat =
    metadata.width.toNat * metadata.height.toNat * 2
  payload : ∀ bytes raw, DngReader.decodeSingleStrip bytes metadata = some raw →
    raw.length = metadata.width.toNat * metadata.height.toNat * 2

/-- The bounds of the machine integers, on the exact values. -/
structure InBounds (input : InputJson) (format : PixelFormat) (nodes : List DescPtr)
    (edges : List MemoryGraphEdge) (metadata : ParsedDngMetadata) : Prop where
  width : width input < 2^32
  height : height input < 2^32
  size : imageBytes input format < 2^64
  buffers : ∀ desc ∈ nodes, nodeBytes input desc < 2^64
  peak : peakBytes input nodes edges < 2^64
  expected : metadata.width.toNat * metadata.height.toNat * 2 < 2^64

theorem layoutFromJson_eq (input : InputJson) :
    layoutFromJson input =
      imageLayout (inputFormat input) (dimension input.width) (dimension input.height) := rfl

theorem dimension_toNat (value : Option UInt64) :
    (dimension value).toNat = (value.getD 0).toNat % 2^32 := by
  simp [dimension]

theorem layout_size (input : InputJson) (format : PixelFormat) :
    ({ layoutFromJson input with format := format } : BufferLayout).sizeBytes.toNat =
      (bytesPerPixel format).toNat * (width input % 2^32) * (height input % 2^32) % 2^64 := by
  rw [layoutFromJson_eq, imageLayout_withFormat, imageLayout_size_toNat, dimension_toNat,
    dimension_toNat]
  rfl

theorem assignment_size {a : MemoryAssignment} (ha : a ∈ (planned input nodes edges).assignments) :
    a.nodeIndex < nodes.length ∧ a.sizeBytes.toNat =
      (width input % 2^32) * (height input % 2^32) *
        (MemoryPlanner.outputBytesPerPixel (nodes.getD a.nodeIndex none)).toNat % 2^64 := by
  obtain ⟨hlt, hsize⟩ := MemoryPlanner.assignment_bytes ha
  refine ⟨hlt, ?_⟩
  simp only [hsize, MemoryPlanner.pixelCount, layoutFromJson_eq, imageLayout]
  simp [UInt64.toNat_mul, dimension_toNat, Nat.mod_mul_mod, width, height]

theorem foldr_max_eq {xs : List Nat} {m : Nat} (hle : ∀ x ∈ xs, x ≤ m) (hm : m ∈ xs) :
    xs.foldr max 0 = m := by
  apply Nat.le_antisymm
  · clear hm
    induction xs with
    | nil => exact Nat.zero_le m
    | cons x xs ih =>
      exact Nat.max_le.mpr ⟨hle x (by simp), ih (fun y hy => hle y (by simp [hy]))⟩
  · clear hle
    induction xs with
    | nil => simp at hm
    | cons x xs ih =>
      rcases List.mem_cons.mp hm with rfl | hm
      · exact Nat.le_max_left _ _
      · exact Nat.le_trans (ih hm) (Nat.le_max_right _ _)

/-- With exact buffer sizes the planner's slots have their exact sizes too. -/
theorem slotBytes_eq (hb : ∀ a ∈ (planned input nodes edges).assignments,
    a.sizeBytes.toNat = nodeBytes input (nodes.getD a.nodeIndex none)) {k : Nat}
    (hk : k < (MemoryPlanner.coloring (layoutFromJson input) nodes edges).2.length) :
    slotBytes input nodes (planned input nodes edges) k =
      ((MemoryPlanner.coloring (layoutFromJson input) nodes edges).2[k]).toNat := by
  have hc := MemoryPlanner.coloring_colored (layoutFromJson input) nodes edges
  obtain ⟨hmax, b, hbm, hbk, hbe⟩ := hc.sized k hk
  apply foldr_max_eq
  · intro x hx
    obtain ⟨a, ha, rfl⟩ := List.mem_map.mp hx
    obtain ⟨ha, hak⟩ := List.mem_filter.mp ha
    rw [← hb a ha]
    obtain ⟨c, hcm, rfl⟩ := MemoryPlanner.mem_assignments.mp ha
    exact hmax c hcm (by simpa using hak)
  · have ha := MemoryPlanner.mem_assignments.mpr ⟨b, hbm, rfl⟩
    refine List.mem_map.mpr ⟨_, List.mem_filter.mpr ⟨ha, by simpa using hbk⟩, ?_⟩
    rw [← hb _ ha, hbe]

theorem slots_sum (hb : ∀ a ∈ (planned input nodes edges).assignments,
    a.sizeBytes.toNat = nodeBytes input (nodes.getD a.nodeIndex none)) :
    ((List.range (planned input nodes edges).physicalSlotCount).map
      (slotBytes input nodes (planned input nodes edges))).sum =
    ((MemoryPlanner.coloring (layoutFromJson input) nodes edges).2.map UInt64.toNat).sum := by
  have hcount : (planned input nodes edges).physicalSlotCount =
      (MemoryPlanner.coloring (layoutFromJson input) nodes edges).2.length := by
    rw [planned, MemoryPlanner.planGraph_eq]
    rfl
  congr 1
  apply List.ext_getElem
  · simp [hcount]
  · intro k hk _
    simp only [List.length_map, List.length_range, hcount] at hk
    simp [slotBytes_eq hb hk]

theorem planned_peak (hb : ∀ a ∈ (planned input nodes edges).assignments,
    a.sizeBytes.toNat = nodeBytes input (nodes.getD a.nodeIndex none)) :
    (planned input nodes edges).peakBytes.toNat = ((layoutFromJson input).sizeBytes.toNat +
      ((List.range (planned input nodes edges).physicalSlotCount).map
        (slotBytes input nodes (planned input nodes edges))).sum) % 2^64 := by
  rw [slots_sum hb, planned, MemoryPlanner.planGraph_eq]
  exact MemoryPlanner.foldl_add_toNat _ _

theorem expectedBytes_toNat (metadata : ParsedDngMetadata) :
    (DngReader.expectedBytes metadata).toNat =
      metadata.width.toNat * metadata.height.toNat * 2 % 2^64 := by
  simp [DngReader.expectedBytes, UInt64.toNat_mul, Nat.mod_mul_mod]

theorem rawLayout_size (metadata : ParsedDngMetadata) :
    (DngReader.rawLayout metadata).sizeBytes.toNat =
      metadata.width.toNat * metadata.height.toNat * 2 % 2^64 := by
  rw [DngReader.rawLayout, imageLayout_size_toNat,
    show (bytesPerPixel .r16Uint).toNat = 2 from rfl]
  congr 1
  ring

/-- The strip decoder returns the number of bytes it allocated. -/
theorem decodeSingleStrip_length {bytes raw : List UInt8}
    (h : DngReader.decodeSingleStrip bytes metadata = some raw) :
    raw.length = (DngReader.expectedBytes metadata).toNat := by
  unfold DngReader.decodeSingleStrip at h
  split at h
  · cases h
  · rename_i hfit
    obtain rfl := Option.some.inj h
    simp only [List.length_append, List.length_take, List.length_drop, List.length_replicate]
    omega

theorem ExactSizes.inBounds (h : ExactSizes input format nodes edges metadata) :
    InBounds input format nodes edges metadata where
  width := h.width ▸ UInt32.toNat_lt _
  height := h.height ▸ UInt32.toNat_lt _
  size := h.size ▸ UInt64.toNat_lt _
  buffers := by
    intro desc hd
    obtain ⟨i, hi, rfl⟩ := List.mem_iff_getElem.mp hd
    have hc := MemoryPlanner.coloring_colored (layoutFromJson input) nodes edges
    have hm : i ∈ MemoryPlanner.topologicalOrder nodes.length edges :=
      MemoryPlanner.mem_topologicalOrder.mpr hi
    rw [← hc.nodes] at hm
    obtain ⟨b, hb, rfl⟩ := List.mem_map.mp hm
    have hsize := h.buffers _ (MemoryPlanner.mem_assignments.mpr ⟨b, hb, rfl⟩)
    rw [List.getD_eq_getElem _ _ hi] at hsize
    rw [← hsize]
    exact UInt64.toNat_lt _
  peak := h.peak ▸ UInt64.toNat_lt _
  expected := h.expected ▸ UInt64.toNat_lt _

theorem InBounds.exactSizes (h : InBounds input format nodes edges metadata) :
    ExactSizes input format nodes edges metadata := by
  have hw := Nat.mod_eq_of_lt h.width
  have hh := Nat.mod_eq_of_lt h.height
  have hbuffers : ∀ a ∈ (planned input nodes edges).assignments,
      a.sizeBytes.toNat = nodeBytes input (nodes.getD a.nodeIndex none) := by
    intro a ha
    obtain ⟨hlt, hsize⟩ := assignment_size ha
    have hbound := h.buffers nodes[a.nodeIndex] (List.getElem_mem hlt)
    rw [hsize, hw, hh, List.getD_eq_getElem _ _ hlt]
    exact Nat.mod_eq_of_lt hbound
  have hexpected : (DngReader.expectedBytes metadata).toNat =
      metadata.width.toNat * metadata.height.toNat * 2 := by
    rw [expectedBytes_toNat]
    exact Nat.mod_eq_of_lt h.expected
  refine ⟨?_, ?_, ?_, hbuffers, ?_, hexpected, ?_,
    fun bytes raw hraw => (decodeSingleStrip_length hraw).trans hexpected⟩
  · exact (dimension_toNat input.width).trans hw
  · exact (dimension_toNat input.height).trans hh
  · rw [layout_size, hw, hh]
    exact Nat.mod_eq_of_lt h.size
  · have hpeak := h.peak
    have hlayout : (layoutFromJson input).sizeBytes.toNat =
        imageBytes input (inputFormat input) := by
      have := layout_size input (inputFormat input)
      rw [hw, hh] at this
      refine this.trans (Nat.mod_eq_of_lt ?_)
      unfold peakBytes imageBytes at hpeak
      omega
    rw [planned_peak hbuffers, hlayout]
    exact Nat.mod_eq_of_lt hpeak
  · rw [rawLayout_size]
    exact Nat.mod_eq_of_lt h.expected

/-- What the load compares with the cap is the plan of its first input. -/
theorem load_peak_le {out pl : Pipeline} {registry : Registry} {document : Document}
    (hload : load out registry document = .ok pl) (hinput : document.inputs.head? = some input) :
    ∃ raw rawEdges sorted plan order,
      Load.Stages registry document raw rawEdges sorted plan order ∧
      (planned input (plan.nodes.map PrecisionGraphNode.descriptor)
        (memoryEdges plan.edges)).peakBytes.toNat ≤ out.deviceMemoryCapBytes.toNat := by
  obtain ⟨raw, rawEdges, sorted, plan, order, hs, hcap, _⟩ := Load.load_ok hload
  refine ⟨raw, rawEdges, sorted, plan, order, hs, ?_⟩
  obtain ⟨rest, hrest⟩ := List.head?_eq_some_iff.mp hinput
  rw [memoryPlan, hrest] at hcap
  exact UInt64.le_iff_toNat_le.mp hcap

/-- The sizes are exact as long as the exact values fit the machine integers, and
then a document the load accepts needs no more memory than the cap. Nothing in
the program checks these bounds. -/
theorem sizes_exact_iff (input : InputJson) (format : PixelFormat) (nodes : List DescPtr)
    (edges : List MemoryGraphEdge) (metadata : ParsedDngMetadata) :
    (ExactSizes input format nodes edges metadata ↔
      InBounds input format nodes edges metadata) ∧
    ∀ (out pl : Pipeline) (registry : Registry) (document : Document),
      load out registry document = .ok pl → document.inputs.head? = some input →
      ∃ raw rawEdges sorted plan order,
        Load.Stages registry document raw rawEdges sorted plan order ∧
        (InBounds input format (plan.nodes.map PrecisionGraphNode.descriptor)
          (memoryEdges plan.edges) metadata →
          peakBytes input (plan.nodes.map PrecisionGraphNode.descriptor)
            (memoryEdges plan.edges) ≤ out.deviceMemoryCapBytes.toNat) := by
  refine ⟨⟨ExactSizes.inBounds, InBounds.exactSizes⟩, ?_⟩
  intro out pl registry document hload hinput
  obtain ⟨raw, rawEdges, sorted, plan, order, hs, hcap⟩ := load_peak_le hload hinput
  refine ⟨raw, rawEdges, sorted, plan, order, hs, fun hb => ?_⟩
  rw [← hb.exactSizes.peak]
  exact hcap

/-- An image of `2^64` bytes. -/
def hugeInput : InputJson where
  port := "raw"
  format := "R8G8B8A8_UNORM"
  width := some 2147483648
  height := some 2147483648

def hugeDocument : Document where
  id := "huge"
  inputs := [hugeInput]
  nodes := [⟨"a", "com.cpipe.builtin.passthrough", []⟩]
  edges := []

/-- Its size wraps to zero, so that it passes under a cap of no bytes at all. -/
theorem huge_image_accepted :
    (∃ pl, load { deviceMemoryCapBytes := 0 } [Nodes.builtinPassthrough] hugeDocument = .ok pl) ∧
    imageBytes hugeInput .r8g8b8a8Unorm = 2^64 ∧
    ¬ ExactSizes hugeInput .r8g8b8a8Unorm [some Nodes.builtinPassthrough] [] ⟨1, 1, 0, 2⟩ := by
  refine ⟨⟨_, rfl⟩, by decide, ?_⟩
  intro h
  exact absurd h.inBounds.size (by decide)

end Cpipe.Proofs.Sizes
