import Cpipe.Library.FirstFit
import Cpipe.Nodes.Manifests
import Cpipe.Runtime.MemoryPlanner
import Mathlib.Order.Bounds.Defs

namespace Cpipe.Proofs.MemoryPlanner
open Cpipe.Runtime Cpipe.Runtime.MemoryPlanner Cpipe.Compute Library

theorem plannedEdges_inRange (n : Nat) (edges : List MemoryGraphEdge) :
    Kahn.InRange n (plannedEdges n edges) := by
  intro e he
  obtain ⟨g, hg, rfl⟩ := List.mem_map.mp he
  have hp := (List.mem_filter.mp hg).2
  simpa using hp

theorem mem_plannedEdges {n : Nat} {edges : List MemoryGraphEdge} {e : MemoryGraphEdge}
    (he : e ∈ edges) (hs : e.src < n) (hd : e.dst < n) :
    Kahn.Edge (plannedEdges n edges) e.src e.dst :=
  List.mem_map.mpr ⟨e, List.mem_filter.mpr ⟨he, by simp [hs,hd]⟩, rfl⟩

theorem topologicalOrder_perm (n : Nat) (edges : List MemoryGraphEdge) :
    (topologicalOrder n edges).Perm (List.range n) := by
  unfold topologicalOrder
  dsimp only
  split
  · rename_i hl
    exact Kahn.sort_perm (plannedEdges_inRange n edges) hl
  · exact List.Perm.refl _

theorem topologicalOrder_nodup (n : Nat) (edges : List MemoryGraphEdge) :
    (topologicalOrder n edges).Nodup :=
  (topologicalOrder_perm n edges).nodup_iff.mpr List.nodup_range

theorem mem_topologicalOrder {n v : Nat} {edges : List MemoryGraphEdge} :
    v ∈ topologicalOrder n edges ↔ v < n := by
  rw [(topologicalOrder_perm n edges).mem_iff, List.mem_range]

/-- On an acyclic graph the order places every producer before its consumers. -/
theorem topologicalOrder_before {n : Nat} {edges : List MemoryGraphEdge}
    (ha : Kahn.Acyclic (plannedEdges n edges)) {e : MemoryGraphEdge}
    (he : e ∈ edges) (hs : e.src < n) (hd : e.dst < n) :
    (topologicalOrder n edges).idxOf e.src < (topologicalOrder n edges).idxOf e.dst := by
  have hr := plannedEdges_inRange n edges
  have hl := (Kahn.sort_length_iff hr).mpr ha
  have ho : topologicalOrder n edges = Kahn.sort n (plannedEdges n edges) := by
    simp [topologicalOrder, hl]
  rw [ho]
  refine Kahn.sort_before hr ?_ (mem_plannedEdges he hs hd)
  exact (Kahn.sort_perm hr hl).mem_iff.mpr (List.mem_range.mpr hd)

/-- Writing an array through the positions of a duplicate-free list. -/
theorem foldl_update_zipIdx {α : Type} (order : List Nat) (g : Nat → Nat → α) (f : Nat → α)
    (k v : Nat) (hn : order.Nodup) (hv : v ∈ order) :
    (order.zipIdx k).foldl (fun f p => Function.update f p.1 (g p.1 p.2)) f v =
      g v (order.idxOf v + k) := by
  -- From the back: the last write to `v` is the only one.
  induction order using List.reverseRecOn with
  | nil => simp at hv
  | append_singleton xs x ih =>
    rw [List.zipIdx_append, List.foldl_append]
    simp only [List.zipIdx_cons, List.zipIdx_nil, List.foldl_cons, List.foldl_nil]
    by_cases hx : v = x
    · subst v
      have hnot : x ∉ xs := by
        intro hm
        exact (List.nodup_append.mp hn).2.2 x hm x (by simp) rfl
      rw [Function.update_self, List.idxOf_append_of_notMem hnot]
      simp [Nat.add_comm]
    · have hm : v ∈ xs := by simpa [hx] using hv
      rw [Function.update_of_ne hx, ih (List.nodup_append.mp hn).1 hm,
        List.idxOf_append_of_mem hm]

theorem topologicalPositions_eq {order : List Nat} (hn : order.Nodup) (hv : v ∈ order) :
    topologicalPositions order v = order.idxOf v :=
  foldl_update_zipIdx order (fun _ p => p) _ 0 v hn hv

theorem makeLiveBuffers_eq {order : List Nat} (hn : order.Nodup) (hv : v ∈ order)
    (nodes : List DescPtr) (pixels : UInt64) :
    makeLiveBuffers nodes order pixels v =
      { nodeIndex := v, start := order.idxOf v, stop := order.idxOf v + 1,
        sizeBytes := pixels * outputBytesPerPixel (nodes.getD v none) } :=
  foldl_update_zipIdx order
    (fun node position =>
      ({ nodeIndex := node, start := position, stop := position + 1,
         sizeBytes := pixels * outputBytesPerPixel (nodes.getD node none) } : LiveBuffer))
    _ 0 v hn hv

/-- Extending moves no start and no size; it only pushes stops to later readers. -/
theorem extendLiveRanges_spec (n : Nat) (position : Nat → Nat) (edges : List MemoryGraphEdge)
    (buffers : Nat → LiveBuffer) (v : Nat) :
    ∃ stop, extendLiveRanges n buffers position edges v = { buffers v with stop := stop } ∧
      (buffers v).stop ≤ stop ∧
      ∀ e ∈ edges, e.src = v → e.src < n → e.dst < n → position e.dst ≤ stop := by
  induction edges generalizing buffers with
  | nil => exact ⟨(buffers v).stop, rfl, Nat.le_refl _, by simp⟩
  | cons e edges ih =>
    simp only [extendLiveRanges, List.foldl_cons]
    by_cases hr : n ≤ e.src ∨ n ≤ e.dst
    · rw [if_pos hr]
      obtain ⟨stop, he, hle, hread⟩ := ih buffers
      refine ⟨stop, he, hle, ?_⟩
      intro e' hm hs hsn hdn
      rcases List.mem_cons.mp hm with rfl | hm
      · omega
      · exact hread e' hm hs hsn hdn
    · rw [if_neg hr]
      by_cases hv : e.src = v
      · subst v
        obtain ⟨stop, he, hle, hread⟩ := ih (Function.update buffers e.src
          { buffers e.src with stop := max (buffers e.src).stop (position e.dst) })
        rw [Function.update_self] at he hle
        refine ⟨stop, he, by dsimp only at hle; omega, ?_⟩
        intro e' hm hs hsn hdn
        rcases List.mem_cons.mp hm with rfl | hm
        · dsimp only at hle; omega
        · exact hread e' hm hs hsn hdn
      · obtain ⟨stop, he, hle, hread⟩ := ih (Function.update buffers e.src
          { buffers e.src with stop := max (buffers e.src).stop (position e.dst) })
        rw [Function.update_of_ne (Ne.symm hv)] at he hle
        refine ⟨stop, he, hle, ?_⟩
        intro e' hm hs hsn hdn
        rcases List.mem_cons.mp hm with rfl | hm
        · exact absurd hs hv
        · exact hread e' hm hs hsn hdn

/-- The live interval of a node: it opens at the node's position and stays open
at least one step and up to the last reader. -/
structure Live (layout : BufferLayout) (nodes : List DescPtr) (edges : List MemoryGraphEdge)
    (v : Nat) (b : LiveBuffer) : Prop where
  node : b.nodeIndex = v
  start : b.start = (topologicalOrder nodes.length edges).idxOf v
  size : b.sizeBytes = pixelCount layout * outputBytesPerPixel (nodes.getD v none)
  open_ : b.start < b.stop
  readers : ∀ e ∈ edges, e.src = v → e.dst < nodes.length →
    (topologicalOrder nodes.length edges).idxOf e.dst ≤ b.stop

theorem liveBuffers_live (layout : BufferLayout) (nodes : List DescPtr)
    (edges : List MemoryGraphEdge) {v : Nat} (hv : v < nodes.length) :
    Live layout nodes edges v (liveBuffers layout nodes edges v) := by
  have hn := topologicalOrder_nodup nodes.length edges
  obtain ⟨stop, he, hle, hread⟩ := extendLiveRanges_spec nodes.length
    (topologicalPositions (topologicalOrder nodes.length edges)) edges
    (makeLiveBuffers nodes (topologicalOrder nodes.length edges) (pixelCount layout)) v
  rw [makeLiveBuffers_eq hn (mem_topologicalOrder.mpr hv)] at he hle
  have hb : liveBuffers layout nodes edges v = _ := he
  rw [hb]
  refine ⟨rfl, rfl, rfl, by dsimp only at hle ⊢; omega, ?_⟩
  intro e hm hs hd
  have := hread e hm hs (by omega) hd
  rwa [topologicalPositions_eq hn (mem_topologicalOrder.mpr hd)] at this

/-- The loop state seen as a first-fit table over node indices. -/
def table (s : List LiveBuffer × List UInt64) : FirstFit.Table Nat :=
  ⟨s.1.map (fun b => (b.nodeIndex,b.physicalSlot)), s.2.length⟩

theorem slotAvailable_eq (s : List LiveBuffer × List UInt64) (interference : InterferenceGraph)
    (b : LiveBuffer) (slot : Nat) :
    slotAvailable s.1 interference b slot =
      FirstFit.free interference (table s).placed b.nodeIndex slot := by
  simp [slotAvailable, FirstFit.free, table, List.all_map, Function.comp_def]

theorem colorBuffer_spec (buffers : Nat → LiveBuffer) (interference : InterferenceGraph)
    (s : List LiveBuffer × List UInt64) (node : Nat) (hb : (buffers node).nodeIndex = node)
    (hp : FirstFit.Proper interference (table s)) :
    ∃ slot ≤ s.2.length, colorBuffer buffers interference s node =
        (s.1 ++ [{ buffers node with physicalSlot := slot }],
          if slot = s.2.length then s.2 ++ [(buffers node).sizeBytes]
          else s.2.modify slot (fun size => max size (buffers node).sizeBytes)) ∧
      table (colorBuffer buffers interference s node) =
        FirstFit.place interference (table s) node := by
  obtain ⟨slot, hle, hc, he, _⟩ := FirstFit.place_spec hp node
  have hfind : (List.range (s.2.length + 1)).find?
      (slotAvailable s.1 interference (buffers node)) = some slot := by
    rw [← hc]
    simp only [FirstFit.choose, table]
    congr 1
    funext k
    rw [slotAvailable_eq, hb]
    rfl
  have hcolor : colorBuffer buffers interference s node =
      (s.1 ++ [{ buffers node with physicalSlot := slot }],
        if slot = s.2.length then s.2 ++ [(buffers node).sizeBytes]
        else s.2.modify slot (fun size => max size (buffers node).sizeBytes)) := by
    simp only [colorBuffer, hfind]
  refine ⟨slot, hle, hcolor, ?_⟩
  rw [hcolor, he]
  simp only [table, List.map_append, List.map_cons, List.map_nil, hb, FirstFit.Table.mk.injEq,
    true_and]
  by_cases hs : slot = s.2.length <;> simp [hs]

theorem max_toNat (a b : UInt64) : (max a b).toNat = max a.toNat b.toNat := by
  change (if a ≤ b then b else a).toNat = _
  split
  · rename_i h
    rw [UInt64.le_iff_toNat_le] at h
    omega
  · rename_i h
    rw [UInt64.le_iff_toNat_le] at h
    omega

/-- Each slot is as large as its largest buffer. -/
def Sized (s : List LiveBuffer × List UInt64) : Prop :=
  ∀ k, (hk : k < s.2.length) →
    (∀ b ∈ s.1, b.physicalSlot = k → b.sizeBytes.toNat ≤ s.2[k].toNat) ∧
    ∃ b ∈ s.1, b.physicalSlot = k ∧ b.sizeBytes = s.2[k]

/-- A buffer leaves the other slots as they are. -/
theorem Sized.other {s : List LiveBuffer × List UInt64} (hs : Sized s) {k : Nat}
    (hk : k < s.2.length) {b : LiveBuffer} (hne : b.physicalSlot ≠ k) :
    (∀ d ∈ s.1 ++ [b], d.physicalSlot = k → d.sizeBytes.toNat ≤ s.2[k].toNat) ∧
    ∃ d ∈ s.1 ++ [b], d.physicalSlot = k ∧ d.sizeBytes = s.2[k] := by
  obtain ⟨hmax, c, hc, hck, hce⟩ := hs k hk
  refine ⟨?_, c, List.mem_append_left _ hc, hck, hce⟩
  intro d hd hdk
  rcases List.mem_append.mp hd with hd | hd
  · exact hmax d hd hdk
  · obtain rfl : d = b := by simpa using hd
    exact absurd hdk hne

/-- A buffer that opens a new slot sets its size. -/
theorem Sized.push {s : List LiveBuffer × List UInt64} (hs : Sized s)
    (hb : ∀ b ∈ s.1, b.physicalSlot < s.2.length) (b : LiveBuffer)
    (hk : b.physicalSlot = s.2.length) : Sized (s.1 ++ [b], s.2 ++ [b.sizeBytes]) := by
  intro k hlt
  dsimp only at hlt ⊢
  by_cases hold : k < s.2.length
  · rw [List.getElem_append_left hold]
    exact hs.other hold (by omega)
  · have hlast : k = s.2.length := by
      rw [List.length_append, List.length_singleton] at hlt
      omega
    subst k
    simp only [List.getElem_concat_length]
    refine ⟨?_, b, by simp, hk, rfl⟩
    intro d hd hdk
    rcases List.mem_append.mp hd with hd | hd
    · have := hb d hd
      omega
    · obtain rfl : d = b := by simpa using hd
      exact Nat.le_refl _

/-- A buffer that joins a slot can only enlarge it. -/
theorem Sized.join {s : List LiveBuffer × List UInt64} (hs : Sized s) (b : LiveBuffer)
    (hk : b.physicalSlot < s.2.length) :
    Sized (s.1 ++ [b], s.2.modify b.physicalSlot (fun size => max size b.sizeBytes)) := by
  intro k hlt
  dsimp only at hlt ⊢
  have hold : k < s.2.length := by simpa using hlt
  obtain ⟨hmax, c, hc, hck, hce⟩ := hs k hold
  rw [List.getElem_modify]
  split
  · rename_i hkb
    have hnat := max_toNat s.2[k] b.sizeBytes
    refine ⟨?_, ?_⟩
    · intro d hd hdk
      rcases List.mem_append.mp hd with hd | hd
      · have := hmax d hd hdk
        omega
      · obtain rfl : d = b := by simpa using hd
        omega
    · by_cases hle : s.2[k] ≤ b.sizeBytes
      · exact ⟨b, by simp, hkb, by change _ = if _ then _ else _; rw [if_pos hle]⟩
      · refine ⟨c, List.mem_append_left _ hc, hck, ?_⟩
        change _ = if _ then _ else _
        rw [if_neg hle, hce]
  · rename_i hkb
    exact hs.other hold hkb

theorem colorBuffer_sized (buffers : Nat → LiveBuffer) (interference : InterferenceGraph)
    (s : List LiveBuffer × List UInt64) (node : Nat) (hb : (buffers node).nodeIndex = node)
    (hp : FirstFit.Proper interference (table s)) (hs : Sized s) :
    Sized (colorBuffer buffers interference s node) := by
  obtain ⟨slot, hle, he, _⟩ := colorBuffer_spec buffers interference s node hb hp
  have hbound : ∀ b ∈ s.1, b.physicalSlot < s.2.length := by
    intro b hm
    exact hp.bound (b.nodeIndex,b.physicalSlot) (List.mem_map.mpr ⟨b, hm, rfl⟩)
  rw [he]
  split
  · rename_i hnew
    exact hs.push hbound { buffers node with physicalSlot := slot } hnew
  · rename_i hold
    exact hs.join { buffers node with physicalSlot := slot } (by dsimp only; omega)

/-- What the colouring loop leaves behind after any stretch of the order: the
table a first-fit search fills with it, and the buffers themselves. -/
structure Colored (buffers : Nat → LiveBuffer) (interference : InterferenceGraph)
    (done : List Nat) (s : List LiveBuffer × List UInt64) : Prop where
  fills : table s = FirstFit.fill interference done
  sized : Sized s
  source : ∀ b ∈ s.1, b = { buffers b.nodeIndex with physicalSlot := b.physicalSlot }

theorem Colored.proper (h : Colored buffers interference done s) :
    FirstFit.Proper interference (table s) := by
  rw [h.fills]
  exact FirstFit.fill_proper interference done

theorem Colored.nodes (h : Colored buffers interference done s) :
    s.1.map LiveBuffer.nodeIndex = done := by
  have hitems := FirstFit.fill_items interference done
  rw [← h.fills] at hitems
  simpa [table, Function.comp_def] using hitems

theorem Colored.step (h : Colored buffers interference done s)
    (hb : (buffers node).nodeIndex = node) :
    Colored buffers interference (done ++ [node]) (colorBuffer buffers interference s node) := by
  obtain ⟨slot, hle, he, ht⟩ := colorBuffer_spec buffers interference s node hb h.proper
  refine ⟨?_, colorBuffer_sized buffers interference s node hb h.proper h.sized, ?_⟩
  · rw [ht, h.fills, FirstFit.fill_snoc]
  · intro b hm
    rw [he] at hm
    rcases List.mem_append.mp hm with hm | hm
    · exact h.source b hm
    · obtain rfl : b = _ := List.mem_singleton.mp hm
      simp only [hb]

theorem colorBuffers_colored (buffers : Nat → LiveBuffer) (interference : InterferenceGraph)
    (order : List Nat) (hb : ∀ v ∈ order, (buffers v).nodeIndex = v) :
    Colored buffers interference order (colorBuffers buffers order interference) := by
  have hrun : ∀ done s, Colored buffers interference done s → ∀ rest : List Nat,
      (∀ v ∈ rest, (buffers v).nodeIndex = v) →
      Colored buffers interference (done ++ rest)
        (rest.foldl (colorBuffer buffers interference) s) := by
    intro done s h rest
    induction rest generalizing done s with
    | nil => intro _; simpa using h
    | cons v rest ih =>
      intro hv
      have := ih (done ++ [v]) _ (h.step (hv v (by simp))) (fun w hw => hv w (by simp [hw]))
      simpa using this
  have hstart : Colored buffers interference [] ([],[]) :=
    ⟨rfl, by intro k hk; simp at hk, by simp⟩
  simpa [colorBuffers] using hrun [] ([],[]) hstart order hb

theorem coloring_colored (layout : BufferLayout) (nodes : List DescPtr)
    (edges : List MemoryGraphEdge) :
    Colored (liveBuffers layout nodes edges)
      (buildInterferenceGraph (liveBuffers layout nodes edges))
      (topologicalOrder nodes.length edges) (coloring layout nodes edges) := by
  apply colorBuffers_colored
  intro v hv
  exact (liveBuffers_live layout nodes edges (mem_topologicalOrder.mp hv)).node

/-- The matrix is symmetric and off the diagonal it is interval overlap. -/
theorem interference_iff (buffers : Nat → LiveBuffer) (hne : u ≠ v) :
    buildInterferenceGraph buffers v u = true ↔
      (buffers u).start < (buffers v).stop ∧ (buffers v).start < (buffers u).stop := by
  unfold buildInterferenceGraph overlaps
  split
  · simp [and_comm]
  · split
    · simp
    · omega

theorem pairwise_of_apart {l : List (Nat × Nat)} {R : Nat → Nat → Bool}
    (h : l.Pairwise (fun p q => p.2 = q.2 → R q.1 p.1 = false)) (hn : (l.map Prod.fst).Nodup)
    (hp : p ∈ l) (hq : q ∈ l) (hs : p.2 = q.2)
    (hlt : (l.map Prod.fst).idxOf p.1 < (l.map Prod.fst).idxOf q.1) : R q.1 p.1 = false := by
  induction l with
  | nil => simp at hp
  | cons x l ih =>
    obtain ⟨hx, hl⟩ := List.pairwise_cons.mp h
    obtain ⟨hnx, hnl⟩ := List.nodup_cons.mp hn
    rcases List.mem_cons.mp hp with rfl | hp
    · rcases List.mem_cons.mp hq with rfl | hq
      · omega
      · exact hx q hq hs
    · rcases List.mem_cons.mp hq with rfl | hq
      · simp at hlt
      · have hpx : x.1 ≠ p.1 := by
          intro he
          exact hnx (he ▸ List.mem_map.mpr ⟨p, hp, rfl⟩)
        have hqx : x.1 ≠ q.1 := by
          intro he
          exact hnx (he ▸ List.mem_map.mpr ⟨q, hq, rfl⟩)
        rw [List.map_cons, List.idxOf_cons_ne _ hpx, List.idxOf_cons_ne _ hqx] at hlt
        exact ih hl hnl hp hq (by omega)

/-- Two buffers of one slot: the earlier one is dead before the later one opens. -/
theorem slot_shared_disjoint (h : Colored buffers (buildInterferenceGraph buffers) order s)
    (hn : order.Nodup) (ha : a ∈ s.1) (hb : b ∈ s.1) (hs : a.physicalSlot = b.physicalSlot)
    (hlt : order.idxOf a.nodeIndex < order.idxOf b.nodeIndex) :
    ¬ ((buffers a.nodeIndex).start < (buffers b.nodeIndex).stop ∧
      (buffers b.nodeIndex).start < (buffers a.nodeIndex).stop) := by
  have hfst : (table s).placed.map Prod.fst = order := by
    simpa [table, Function.comp_def] using h.nodes
  have hapart := pairwise_of_apart h.proper.apart (hfst ▸ hn)
    (List.mem_map.mpr ⟨a, ha, rfl⟩) (List.mem_map.mpr ⟨b, hb, rfl⟩) hs (hfst ▸ hlt)
  have hne : a.nodeIndex ≠ b.nodeIndex := by
    intro he
    rw [he] at hlt
    omega
  intro ho
  have := (interference_iff buffers hne).mpr ho
  simp [this] at hapart

theorem foldl_add_toNat (sizes : List UInt64) (start : UInt64) :
    (sizes.foldl (· + ·) start).toNat =
      (start.toNat + (sizes.map UInt64.toNat).sum) % 2^64 := by
  induction sizes generalizing start with
  | nil => simp
  | cons x sizes ih =>
    rw [List.foldl_cons, ih, UInt64.toNat_add, List.map_cons, List.sum_cons]
    omega

/-- With no node to colour the shortcut and the general path agree. -/
theorem planGraph_eq (layout : BufferLayout) (nodes : List DescPtr)
    (edges : List MemoryGraphEdge) :
    planGraph layout nodes edges = makePlan layout.sizeBytes (coloring layout nodes edges).2
      (coloring layout nodes edges).1 := by
  unfold planGraph
  split
  · rename_i he
    obtain rfl := List.isEmpty_iff.mp he
    have ho : topologicalOrder 0 edges = [] :=
      List.perm_nil.mp (by simpa using topologicalOrder_perm 0 edges)
    simp [coloring, ho, colorBuffers, makePlan]
  · rfl

theorem mem_assignments {m : MemoryAssignment} :
    m ∈ (planGraph layout nodes edges).assignments ↔
      ∃ b ∈ (coloring layout nodes edges).1,
        ⟨b.nodeIndex, b.nodeIndex, b.physicalSlot, b.sizeBytes⟩ = m := by
  rw [planGraph_eq, makePlan, List.mem_map]

/-- Nobody past `b` still reads the buffer whose slot `b` takes over. -/
theorem readers_done (ha : a ∈ (coloring layout nodes edges).1)
    (hb : b ∈ (coloring layout nodes edges).1) (hs : a.physicalSlot = b.physicalSlot)
    (hlt : (topologicalOrder nodes.length edges).idxOf a.nodeIndex <
      (topologicalOrder nodes.length edges).idxOf b.nodeIndex)
    {e : MemoryGraphEdge} (he : e ∈ edges) (hsrc : e.src = a.nodeIndex)
    (hd : e.dst < nodes.length) :
    (topologicalOrder nodes.length edges).idxOf e.dst ≤
      (topologicalOrder nodes.length edges).idxOf b.nodeIndex := by
  have hc := coloring_colored layout nodes edges
  have hmem : ∀ c ∈ (coloring layout nodes edges).1, c.nodeIndex < nodes.length := by
    intro c hm
    have : c.nodeIndex ∈ (coloring layout nodes edges).1.map LiveBuffer.nodeIndex :=
      List.mem_map.mpr ⟨c, hm, rfl⟩
    rw [hc.nodes] at this
    exact mem_topologicalOrder.mp this
  have hdis := slot_shared_disjoint hc (topologicalOrder_nodup _ _) ha hb hs hlt
  have hla := liveBuffers_live layout nodes edges (hmem a ha)
  have hlb := liveBuffers_live layout nodes edges (hmem b hb)
  have hread := hla.readers e he hsrc hd
  have hopen := hlb.open_
  rw [hla.start, hlb.start] at hdis
  rw [hlb.start] at hopen
  omega

/-- A node is assigned what its output needs. -/
theorem assignment_bytes {layout : BufferLayout} {nodes : List DescPtr}
    {edges : List MemoryGraphEdge} {m : MemoryAssignment}
    (hm : m ∈ (planGraph layout nodes edges).assignments) : m.nodeIndex < nodes.length ∧
      m.sizeBytes = pixelCount layout * outputBytesPerPixel (nodes.getD m.nodeIndex none) := by
  obtain ⟨b, hb, rfl⟩ := mem_assignments.mp hm
  have hc := coloring_colored layout nodes edges
  have hlt : b.nodeIndex < nodes.length := by
    have hmem : b.nodeIndex ∈ topologicalOrder nodes.length edges := by
      rw [← hc.nodes]
      exact List.mem_map.mpr ⟨b, hb, rfl⟩
    exact mem_topologicalOrder.mp hmem
  have hsource := congrArg LiveBuffer.sizeBytes (hc.source b hb)
  exact ⟨hlt, hsource.trans (liveBuffers_live layout nodes edges hlt).size⟩

/-- A slot is handed on only when its old contents have been read for the last
time, and the plan's sizes are those of the nodes' outputs. -/
theorem planGraph_slot_safe (layout : BufferLayout) (nodes : List DescPtr)
    (edges : List MemoryGraphEdge) :
    let plan := planGraph layout nodes edges
    let position := (topologicalOrder nodes.length edges).idxOf
    (plan.assignments.map MemoryAssignment.nodeIndex).Perm (List.range nodes.length) ∧
    (Kahn.Acyclic (plannedEdges nodes.length edges) → ∀ e ∈ edges,
      e.src < nodes.length → e.dst < nodes.length → position e.src < position e.dst) ∧
    (∀ u ∈ plan.assignments, ∀ v ∈ plan.assignments, u.nodeIndex ≠ v.nodeIndex →
      u.physicalSlot = v.physicalSlot → position u.nodeIndex < position v.nodeIndex →
      ∀ e ∈ edges, e.src = u.nodeIndex → e.dst < nodes.length →
        position e.dst ≤ position v.nodeIndex) ∧
    (∀ m ∈ plan.assignments,
      m.sizeBytes = pixelCount layout * outputBytesPerPixel (nodes.getD m.nodeIndex none)) ∧
    ∃ slotSizes : List UInt64, slotSizes.length = plan.physicalSlotCount ∧
      (∀ k, (hk : k < slotSizes.length) →
        IsGreatest {n | ∃ m ∈ plan.assignments, m.physicalSlot = k ∧ m.sizeBytes.toNat = n}
          slotSizes[k].toNat) ∧
      plan.peakBytes.toNat =
        (layout.sizeBytes.toNat + (slotSizes.map UInt64.toNat).sum) % 2^64 ∧
      (layout.sizeBytes.toNat + (slotSizes.map UInt64.toNat).sum < 2^64 →
        plan.peakBytes.toNat = layout.sizeBytes.toNat + (slotSizes.map UInt64.toNat).sum) := by
  have hc := coloring_colored layout nodes edges
  refine ⟨?_, ?_, ?_, fun m hm => (assignment_bytes hm).2, (coloring layout nodes edges).2, ?_, ?_,
    ?_, ?_⟩
  · have hnodes : (planGraph layout nodes edges).assignments.map MemoryAssignment.nodeIndex =
        topologicalOrder nodes.length edges := by
      rw [planGraph_eq, ← hc.nodes]
      simp [makePlan, Function.comp_def]
    rw [hnodes]
    exact topologicalOrder_perm _ _
  · intro hacyclic e he hs hd
    exact topologicalOrder_before hacyclic he hs hd
  · intro u hu v hv _ hs hlt e he hsrc hd
    obtain ⟨a, ha, rfl⟩ := mem_assignments.mp hu
    obtain ⟨b, hb, rfl⟩ := mem_assignments.mp hv
    exact readers_done ha hb hs hlt he hsrc hd
  · rw [planGraph_eq]
    rfl
  · intro k hk
    obtain ⟨hmax, b, hb, hbk, hbe⟩ := hc.sized k hk
    refine ⟨⟨_, mem_assignments.mpr ⟨b, hb, rfl⟩, hbk, by rw [hbe]⟩, ?_⟩
    intro n hx
    obtain ⟨m, hm, hmk, rfl⟩ := hx
    obtain ⟨c, hcm, rfl⟩ := mem_assignments.mp hm
    exact hmax c hcm hmk
  · rw [planGraph_eq]
    exact foldl_add_toNat _ _
  · intro hfit
    rw [planGraph_eq]
    exact (foldl_add_toNat _ _).trans (Nat.mod_eq_of_lt hfit)

/-- A source whose output two nodes read, and a sink behind their reader. -/
def diamond : List MemoryGraphEdge := [⟨0,1⟩,⟨0,2⟩,⟨1,3⟩,⟨2,3⟩,⟨3,4⟩]

def diamondNodes : List DescPtr := List.replicate 5 (some Nodes.builtinPassthrough)

theorem diamond_acyclic : Kahn.Acyclic (plannedEdges 5 diamond) :=
  (Kahn.sort_length_iff (plannedEdges_inRange 5 diamond)).mp (by decide)

/-- The sink takes the slot of the source, which its two readers have left by then. -/
theorem diamond_slot_safe :
    let plan := planGraph (imageLayout .r8g8b8a8Unorm 4 3) diamondNodes diamond
    let position := (topologicalOrder 5 diamond).idxOf
    (∀ e ∈ diamond, position e.src < position e.dst) ∧
    ∃ u ∈ plan.assignments, ∃ v ∈ plan.assignments, u.nodeIndex = 0 ∧ v.nodeIndex = 4 ∧
      u.physicalSlot = v.physicalSlot ∧ v.sizeBytes = 48 ∧
      position 1 ≤ position 4 ∧ position 2 ≤ position 4 := by
  intro plan position
  obtain ⟨-,hbefore,hreaders,hbytes,-⟩ :=
    planGraph_slot_safe (imageLayout .r8g8b8a8Unorm 4 3) diamondNodes diamond
  have hedges := hbefore diamond_acyclic
  have hu : (⟨0,0,0,48⟩ : MemoryAssignment) ∈ plan.assignments := by decide
  have hv : (⟨4,4,0,48⟩ : MemoryAssignment) ∈ plan.assignments := by decide
  have hread := hreaders _ hu _ hv (by decide) rfl (by decide)
  refine ⟨fun e he => hedges e he (by decide +revert) (by decide +revert),_,hu,_,hv,rfl,rfl,rfl,
    hbytes _ hv,?_,?_⟩
  · exact hread ⟨0,1⟩ (by decide) rfl (by decide)
  · exact hread ⟨0,2⟩ (by decide) rfl (by decide)

end Cpipe.Proofs.MemoryPlanner
