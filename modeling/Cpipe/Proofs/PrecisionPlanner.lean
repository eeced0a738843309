import Cpipe.Library.Checked
import Cpipe.Library.Subdivision
import Cpipe.Nodes.Manifests
import Cpipe.Runtime.PrecisionPlanner

namespace Cpipe.Proofs.PrecisionPlanner
open Cpipe.Runtime Cpipe.Runtime.PrecisionPlanner Library

/-- The node positions an edge list connects. -/
def graphEdges (edges : List PrecisionGraphEdge) : Kahn.Edges :=
  edges.map (fun e => (e.src,e.dst))

/-- Undo a splice: an edge into an added node is joined with the edge leaving it. -/
def contractEdge (n : Nat) (all : List PrecisionGraphEdge) (e : PrecisionGraphEdge) :
    Option PrecisionGraphEdge :=
  if n ≤ e.src then none
  else if n ≤ e.dst then
    (all.find? (fun f => f.src == e.dst)).map (fun f => ⟨e.src, f.dst, e.srcPort, f.dstPort⟩)
  else some e

def contract (n : Nat) (edges : List PrecisionGraphEdge) : List PrecisionGraphEdge :=
  edges.filterMap (contractEdge n edges)

def fits (nodes : List PrecisionGraphNode) (e : PrecisionGraphEdge) : Bool :=
  intersects (producedCaps nodes e).precisions (requiredCaps nodes e).precisions

/-- All plans the loop can have built after a stretch of the edge list. -/
inductive Rewritten (nodes : List PrecisionGraphNode) (conv : PluginDesc) :
    List PrecisionGraphEdge → PrecisionPlan → Prop
  | start : Rewritten nodes conv [] ⟨nodes, [], []⟩
  | keep (h : Rewritten nodes conv done plan) (hs : e.src < nodes.length)
      (hd : e.dst < nodes.length) (hf : fits nodes e = true) :
      Rewritten nodes conv (done ++ [e]) { plan with edges := plan.edges ++ [e] }
  | convert (h : Rewritten nodes conv done plan) (hs : e.src < nodes.length)
      (hd : e.dst < nodes.length) (hf : fits nodes e = false)
      (hfrom : formatFromCaps (producedCaps nodes e) = some src)
      (hto : formatFromCaps (requiredCaps nodes e) = some dst)
      (hc : directConversionSupported src dst = true) :
      Rewritten nodes conv (done ++ [e]) (splice conv plan e dst)

theorem insertEdge_rewritten (h : Rewritten nodes conv done plan)
    (hi : insertEdge nodes (some conv) plan e = .ok plan') :
    Rewritten nodes conv (done ++ [e]) plan' := by
  unfold insertEdge at hi
  split at hi
  · cases hi
  · rename_i hr
    have hs : e.src < nodes.length := by omega
    have hd : e.dst < nodes.length := by omega
    dsimp only at hi
    split at hi
    · rename_i hf
      obtain rfl := Except.ok.inj hi
      exact .keep h hs hd hf
    · rename_i hf
      split at hi
      · rename_i src dst hfrom hto
        split at hi
        · rename_i hc
          obtain rfl := Except.ok.inj hi
          exact .convert h hs hd (by simpa [fits] using hf) hfrom hto hc
        · cases hi
      · cases hi

theorem autoInsert_rewritten (h : autoInsert nodes edges (some conv) = .ok plan) :
    Rewritten nodes conv edges plan :=
  Checked.foldlM_invariant (Rewritten nodes conv)
    (fun _ _ _ _ hs hx => insertEdge_rewritten hs hx) edges [] ⟨nodes, [], []⟩ plan .start h

/-- When every edge already fits, planning changes nothing. -/
theorem autoInsert_of_fits (conv : DescPtr)
    (hf : ∀ e ∈ edges, e.src < nodes.length ∧ e.dst < nodes.length ∧ fits nodes e = true) :
    autoInsert nodes edges conv = .ok ⟨nodes, edges, []⟩ := by
  have hrun : ∀ done, edges.foldlM (insertEdge nodes conv) ⟨nodes, done, []⟩ =
      .ok ⟨nodes, done ++ edges, []⟩ := by
    induction edges with
    | nil => intro done; simp [pure, Except.pure]
    | cons e edges ih =>
      intro done
      obtain ⟨hs, hd, he⟩ := hf e (by simp)
      have hstep : insertEdge nodes conv ⟨nodes, done, []⟩ e = .ok ⟨nodes, done ++ [e], []⟩ := by
        unfold insertEdge
        rw [if_neg (by omega)]
        exact if_pos he
      rw [List.foldlM_cons, hstep]
      have := ih (fun f hm => hf f (by simp [hm])) (done ++ [e])
      simpa [bind, Except.bind] using this
  simpa [autoInsert] using hrun []

/-- Bookkeeping of a plan: the original nodes stay in front, what follows are
converters, and their positions are the recorded ones. -/
structure Shape (nodes : List PrecisionGraphNode) (conv : PluginDesc) (plan : PrecisionPlan) :
    Prop where
  kept : ∃ added, plan.nodes = nodes ++ added ∧
    ∀ node ∈ added, node.descriptor = some conv ∧ node.implicit = true
  inserted : plan.insertedNodeIndices =
    List.range' nodes.length (plan.nodes.length - nodes.length)
  bound : ∀ e ∈ plan.edges, e.src < plan.nodes.length ∧ e.dst < plan.nodes.length

theorem Shape.length_le (h : Shape nodes conv plan) : nodes.length ≤ plan.nodes.length := by
  obtain ⟨added, he, _⟩ := h.kept
  simp [he]

theorem Rewritten.shape (h : Rewritten nodes conv done plan) : Shape nodes conv plan := by
  induction h with
  | start => exact ⟨⟨[], by simp⟩, by simp, by simp⟩
  | @keep done plan e h hs hd hf ih =>
    refine ⟨ih.kept, ih.inserted, ?_⟩
    intro f hm
    have hle := ih.length_le
    rcases List.mem_append.mp hm with hm | hm
    · exact ih.bound f hm
    · obtain rfl : f = e := by simpa using hm
      exact ⟨by dsimp only; omega, by dsimp only; omega⟩
  | @convert done plan e src dst h hs hd hf hfrom hto hc ih =>
    have hle := ih.length_le
    obtain ⟨added, hn, hall⟩ := ih.kept
    refine ⟨⟨added ++ [convertNode conv e plan.insertedNodeIndices.length dst], ?_, ?_⟩, ?_, ?_⟩
    · simp [splice, hn]
    · intro node hm
      rcases List.mem_append.mp hm with hm | hm
      · exact hall node hm
      · obtain rfl := List.mem_singleton.mp hm
        exact ⟨rfl, rfl⟩
    · simp only [splice, List.length_append, List.length_singleton]
      rw [ih.inserted, Nat.succ_sub hle, List.range'_concat]
      simp only [List.append_cancel_left_eq, List.cons.injEq, and_true]
      omega
    · intro f hm
      simp only [splice, List.mem_append, List.mem_cons, List.not_mem_nil, or_false,
        List.length_append, List.length_singleton] at hm ⊢
      rcases hm with hm | rfl | rfl
      · have := ih.bound f hm
        omega
      · dsimp only; omega
      · dsimp only; omega

theorem descriptorAt_append (hi : i < nodes.length) :
    descriptorAt (nodes ++ added) i = descriptorAt nodes i := by
  simp [descriptorAt, List.getElem?_append_left hi]

theorem descriptorAt_splice (conv : PluginDesc) (plan : PrecisionPlan) (e : PrecisionGraphEdge)
    (target : String) :
    descriptorAt (splice conv plan e target).nodes plan.nodes.length = some conv := by
  simp only [descriptorAt, splice, List.getElem?_concat_length, Option.bind_some]
  rfl

/-- Original positions keep their descriptors in the plan. -/
theorem Shape.descriptorAt_eq (h : Shape nodes conv plan) (hi : i < nodes.length) :
    descriptorAt plan.nodes i = descriptorAt nodes i := by
  obtain ⟨added, he, _⟩ := h.kept
  rw [he, descriptorAt_append hi]

/-- How an original edge appears in the plan. -/
inductive Path (nodes : List PrecisionGraphNode) (conv : PluginDesc) (plan : PrecisionPlan)
    (e : PrecisionGraphEdge) : List PrecisionGraphEdge → Prop
  | direct : Path nodes conv plan e [e]
  | through (k : Nat) (node : PrecisionGraphNode) (target : String)
      (fresh : nodes.length ≤ k) (found : plan.nodes[k]? = some node)
      (desc : node.descriptor = some conv)
      (params : node.params = [("target_format", .string target)])
      (format : formatFromCaps (requiredCaps nodes e) = some target) :
      Path nodes conv plan e [⟨e.src, k, e.srcPort, "in"⟩, ⟨k, e.dst, "out", e.dstPort⟩]

theorem Path.grow (h : Path nodes conv plan e path) (hn : plan'.nodes = plan.nodes ++ more) :
    Path nodes conv plan' e path := by
  cases h with
  | direct => exact .direct
  | through k node target fresh found desc params format =>
    refine .through k node target fresh ?_ desc params format
    have hk := (List.getElem?_eq_some_iff.mp found).1
    rw [hn, List.getElem?_append_left hk, found]

theorem Rewritten.paths (h : Rewritten nodes conv edges plan) :
    ∃ paths, plan.edges = paths.flatten ∧ List.Forall₂ (Path nodes conv plan) edges paths := by
  induction h with
  | start => exact ⟨[], rfl, .nil⟩
  | @keep done plan e h hs hd hf ih =>
    obtain ⟨paths, he, hp⟩ := ih
    refine ⟨paths ++ [[e]], by simp [he], ?_⟩
    have hold : List.Forall₂ (Path nodes conv { plan with edges := plan.edges ++ [e] })
        done paths := hp.imp (fun _ _ hq => hq.grow (List.append_nil _).symm)
    exact List.rel_append hold (.cons .direct .nil)
  | @convert done plan e src dst h hs hd hf hfrom hto hc ih =>
    obtain ⟨paths, he, hp⟩ := ih
    refine ⟨paths ++ [[⟨e.src, plan.nodes.length, e.srcPort, "in"⟩,
      ⟨plan.nodes.length, e.dst, "out", e.dstPort⟩]], by simp [he, splice], ?_⟩
    have hold : List.Forall₂ (Path nodes conv (splice conv plan e dst)) done paths :=
      hp.imp (fun _ _ hq => hq.grow rfl)
    refine List.rel_append hold (.cons ?_ .nil)
    exact .through plan.nodes.length (convertNode conv e plan.insertedNodeIndices.length dst) dst
      h.shape.length_le (by simp [splice]) rfl rfl hto

/-- An added node has exactly one edge in and one edge out. -/
theorem Rewritten.once (h : Rewritten nodes conv edges plan) :
    ∀ k, nodes.length ≤ k → k < plan.nodes.length →
      plan.edges.countP (fun e => e.dst == k) = 1 ∧
      plan.edges.countP (fun e => e.src == k) = 1 := by
  induction h with
  | start => intro k h1 h2; dsimp only at h2; omega
  | @keep done plan e h hs hd hf ih =>
    intro k h1 h2
    have hsk : (e.src == k) = false := by simp; omega
    have hdk : (e.dst == k) = false := by simp; omega
    obtain ⟨hi, ho⟩ := ih k h1 h2
    simp [List.countP_append, hi, ho, hsk, hdk]
  | @convert done plan e src dst h hs hd hf hfrom hto hc ih =>
    intro k h1 h2
    have hle := h.shape.length_le
    have hsk : (e.src == k) = false := by simp; omega
    have hdk : (e.dst == k) = false := by simp; omega
    simp only [splice, List.length_append, List.length_singleton] at h2
    simp only [splice, List.countP_append, List.countP_cons, List.countP_nil, hsk, hdk]
    by_cases hk : k = plan.nodes.length
    · subst k
      have hnone : ∀ f ∈ plan.edges, f.src ≠ plan.nodes.length ∧ f.dst ≠ plan.nodes.length := by
        intro f hm
        have := h.shape.bound f hm
        omega
      have hi : plan.edges.countP (fun f => f.dst == plan.nodes.length) = 0 :=
        List.countP_eq_zero.mpr (fun f hm => by simpa using (hnone f hm).2)
      have ho : plan.edges.countP (fun f => f.src == plan.nodes.length) = 0 :=
        List.countP_eq_zero.mpr (fun f hm => by simpa using (hnone f hm).1)
      simp [hi, ho]
    · have hk' : (plan.nodes.length == k) = false := by simpa using Ne.symm hk
      obtain ⟨hi, ho⟩ := ih k h1 (by omega)
      simp [hi, ho, hk']

/-- Later edges do not change how an earlier edge contracts. -/
theorem contractEdge_append {es all more : List PrecisionGraphEdge}
    (hf : ∀ e ∈ es, n ≤ e.dst → ∃ f ∈ all, f.src = e.dst) :
    es.filterMap (contractEdge n (all ++ more)) = es.filterMap (contractEdge n all) := by
  apply List.filterMap_congr
  intro e he
  unfold contractEdge
  split
  · rfl
  · split
    · rename_i hd
      obtain ⟨f, hm, hs⟩ := hf e he hd
      have hsome : (all.find? (fun f => f.src == e.dst)).isSome = true :=
        List.find?_isSome.mpr ⟨f, hm, by simp [hs]⟩
      rw [List.find?_append, Option.or_of_isSome hsome]
    · rfl

theorem Rewritten.contract_eq (h : Rewritten nodes conv edges plan) :
    contract nodes.length plan.edges = edges := by
  have hout : ∀ {done plan}, Rewritten nodes conv done plan → ∀ e ∈ plan.edges,
      nodes.length ≤ e.dst → ∃ f ∈ plan.edges, f.src = e.dst := by
    intro done plan h e he hd
    have hpos : 0 < plan.edges.countP (fun f => f.src == e.dst) := by
      rw [(h.once e.dst hd (h.shape.bound e he).2).2]
      exact Nat.one_pos
    obtain ⟨f, hm, hs⟩ := List.countP_pos_iff.mp hpos
    exact ⟨f, hm, by simpa using hs⟩
  induction h with
  | start => rfl
  | @keep done plan e h hs hd hf ih =>
    simp only [contract, List.filterMap_append]
    rw [contractEdge_append (hout h)]
    have hlast : contractEdge nodes.length (plan.edges ++ [e]) e = some e := by
      rw [contractEdge, if_neg (by omega), if_neg (by omega)]
    simp only [List.filterMap_cons, List.filterMap_nil, hlast]
    exact congrArg (· ++ [e]) ih
  | @convert done plan e src dst h hs hd hf hfrom hto hc ih =>
    have hle := h.shape.length_le
    simp only [contract, splice, List.filterMap_append]
    rw [contractEdge_append (hout h)]
    have hnone : plan.edges.find? (fun f => f.src == plan.nodes.length) = none := by
      apply List.find?_eq_none.mpr
      intro f hm
      have := (h.shape.bound f hm).1
      simp; omega
    have hsk : (e.src == plan.nodes.length) = false := by simp; omega
    simp only [List.filterMap_cons, List.filterMap_nil, contractEdge, if_neg (Nat.not_le.mpr hs),
      if_pos hle, List.find?_append, hnone, List.find?_cons, hsk, Option.none_or, beq_self_eq_true,
      Option.map_some]
    exact congrArg (· ++ [e]) ih

theorem graphEdges_append (xs ys : List PrecisionGraphEdge) :
    graphEdges (xs ++ ys) = graphEdges xs ++ graphEdges ys := List.map_append

theorem mem_graphEdges {edges : List PrecisionGraphEdge} :
    Kahn.Edge (graphEdges edges) a b ↔ ∃ e ∈ edges, e.src = a ∧ e.dst = b := by
  simp [Kahn.Edge, graphEdges]

theorem Rewritten.subdivided (h : Rewritten nodes conv edges plan) :
    Subdivision.Subdivided nodes.length (graphEdges edges) (graphEdges plan.edges) := by
  induction h with
  | start => exact Subdivision.subdivided_empty _
  | @keep done plan e h hs hd hf ih =>
    rw [graphEdges_append, graphEdges_append]
    exact ih.add hs hd
  | @convert done plan e src dst h hs hd hf hfrom hto hc ih =>
    have hfresh : ∀ a b, Kahn.Edge (graphEdges plan.edges) a b →
        a ≠ plan.nodes.length ∧ b ≠ plan.nodes.length := by
      intro a b hab
      obtain ⟨f, hm, rfl, rfl⟩ := mem_graphEdges.mp hab
      have := h.shape.bound f hm
      omega
    rw [splice, graphEdges_append, graphEdges_append]
    exact ih.splice hs hd h.shape.length_le hfresh

/-- The five single-format caps and the names of their formats. -/
theorem formatFromCaps_some (h : formatFromCaps caps = some format) :
    (caps = ⟨["r"], ["u16"]⟩ ∧ format = "R16_UINT") ∨
    (caps = ⟨["r"], ["f32"]⟩ ∧ format = "R32_SFLOAT") ∨
    (caps = ⟨["rgba"], ["f16"]⟩ ∧ format = "R16G16B16A16_SFLOAT") ∨
    (caps = ⟨["rgba"], ["u8"]⟩ ∧ format = "R8G8B8A8_UNORM") ∨
    (caps = ⟨["rgba"], ["u16"]⟩ ∧ format = "R16G16B16A16_UNORM") := by
  obtain ⟨channels, precisions⟩ := caps
  unfold formatFromCaps at h
  repeat' split at h
  all_goals simp_all

theorem converter_in : portCaps (some Nodes.precisionConvert) .input "in" =
    ⟨["r","rgba"], ["u16","f32","f16"]⟩ := by decide

theorem converter_out : portCaps (some Nodes.precisionConvert) .output "out" =
    ⟨["r","rgba"], ["f32","f16","u8","u16"]⟩ := by decide

/-- The repository's converter reads every format it is put behind. -/
theorem converter_reads (hfrom : formatFromCaps produced = some src)
    (hc : directConversionSupported src dst = true) :
    intersects produced.precisions
      (portCaps (some Nodes.precisionConvert) .input "in").precisions = true := by
  rw [converter_in]
  rcases formatFromCaps_some hfrom with h | h | h | h | h
  all_goals obtain ⟨rfl, rfl⟩ := h
  · decide
  · decide
  · decide
  · simp [directConversionSupported] at hc
  · decide

/-- The repository's converter writes every format it is put before. -/
theorem converter_writes (hto : formatFromCaps required = some dst) :
    intersects (portCaps (some Nodes.precisionConvert) .output "out").precisions
      required.precisions = true := by
  rw [converter_out]
  rcases formatFromCaps_some hto with h | h | h | h | h
  all_goals
    obtain ⟨rfl, rfl⟩ := h
    decide

theorem Rewritten.all_fit (h : Rewritten nodes Nodes.precisionConvert edges plan) :
    ∀ e ∈ plan.edges, fits plan.nodes e = true := by
  induction h with
  | start => simp
  | @keep done plan e h hs hd hf ih =>
    intro f hm
    rcases List.mem_append.mp hm with hm | hm
    · exact ih f hm
    · obtain rfl := List.mem_singleton.mp hm
      simp only [fits, producedCaps, requiredCaps, h.shape.descriptorAt_eq hs,
        h.shape.descriptorAt_eq hd]
      exact hf
  | @convert done plan e src dst h hs hd hf hfrom hto hc ih =>
    have hle := h.shape.length_le
    have hconv := descriptorAt_splice Nodes.precisionConvert plan e dst
    have hkeep : ∀ i < plan.nodes.length,
        descriptorAt (splice Nodes.precisionConvert plan e dst).nodes i =
          descriptorAt plan.nodes i := fun i hi => descriptorAt_append hi
    intro f hm
    simp only [splice, List.mem_append, List.mem_cons, List.not_mem_nil, or_false] at hm
    rcases hm with hm | rfl | rfl
    · obtain ⟨h1, h2⟩ := h.shape.bound f hm
      have := ih f hm
      simpa only [fits, producedCaps, requiredCaps, hkeep _ h1, hkeep _ h2] using this
    · simp only [fits, producedCaps, requiredCaps, hconv, hkeep _ (Nat.lt_of_lt_of_le hs hle),
        h.shape.descriptorAt_eq hs]
      exact converter_reads hfrom hc
    · simp only [fits, producedCaps, requiredCaps, hconv, hkeep _ (Nat.lt_of_lt_of_le hd hle),
        h.shape.descriptorAt_eq hd]
      exact converter_writes hto

/-- Without a converter only fitting edges get through. -/
theorem autoInsert_none (h : autoInsert nodes edges none = .ok plan) :
    plan = ⟨nodes, edges, []⟩ := by
  unfold autoInsert at h
  refine Checked.foldlM_invariant (fun done (plan : PrecisionPlan) => plan = ⟨nodes, done, []⟩)
    ?_ edges [] ⟨nodes, [], []⟩ plan rfl h
  rintro done _ e plan' rfl hi
  unfold insertEdge at hi
  dsimp only at hi
  repeat' split at hi
  all_goals cases hi
  rfl

theorem autoInsert_kept {conv : DescPtr} (h : autoInsert nodes edges conv = .ok plan) :
    ∃ added, plan.nodes = nodes ++ added ∧
      ∀ node ∈ added, node.descriptor = conv ∧ node.implicit = true := by
  cases conv with
  | none =>
    obtain rfl := autoInsert_none h
    exact ⟨[], by simp⟩
  | some conv => exact (autoInsert_rewritten h).shape.kept

/-- A converter made for some port: it writes the format the port's caps name. -/
def IsConverter (conv : PluginDesc) (target : String) (node : PrecisionGraphNode) : Prop :=
  node.descriptor = some conv ∧ node.params = [("target_format", .string target)]

theorem Rewritten.node_cases (h : Rewritten nodes conv edges plan) :
    ∀ node ∈ plan.nodes, node ∈ nodes ∨
      ∃ caps target, formatFromCaps caps = some target ∧ IsConverter conv target node := by
  induction h with
  | start => exact fun node hn => .inl hn
  | keep h hs hd hf ih => exact ih
  | convert h hs hd hf hfrom hto hc ih =>
    intro node hn
    rcases List.mem_append.mp hn with hn | hn
    · exact ih node hn
    · obtain rfl := List.mem_singleton.mp hn
      exact .inr ⟨_, _, hto, rfl, rfl⟩

/-- The ways an edge gets into a plan. -/
inductive Planned (nodes : List PrecisionGraphNode) (conv : PluginDesc)
    (edges : List PrecisionGraphEdge) (plan : PrecisionPlan) (e : PrecisionGraphEdge) : Prop
  | kept (he : e ∈ edges) (hs : e.src < nodes.length) (hd : e.dst < nodes.length)
      (hf : fits nodes e = true)
  | intoConverter (o : PrecisionGraphEdge) (k : Nat) (node : PrecisionGraphNode)
      (src dst : String) (he : o ∈ edges) (hs : o.src < nodes.length)
      (hn : plan.nodes[k]? = some node) (hnode : IsConverter conv dst node)
      (hfrom : formatFromCaps (producedCaps nodes o) = some src)
      (hc : directConversionSupported src dst = true)
      (hedge : e = ⟨o.src, k, o.srcPort, "in"⟩)
  | outOfConverter (o : PrecisionGraphEdge) (k : Nat) (node : PrecisionGraphNode)
      (dst : String) (he : o ∈ edges) (hd : o.dst < nodes.length)
      (hn : plan.nodes[k]? = some node) (hnode : IsConverter conv dst node)
      (hto : formatFromCaps (requiredCaps nodes o) = some dst)
      (hedge : e = ⟨k, o.dst, "out", o.dstPort⟩)

theorem Planned.grow (h : Planned nodes conv edges plan e) (hn : plan'.nodes = plan.nodes ++ more)
    (he : edges ⊆ edges') : Planned nodes conv edges' plan' e := by
  have hget : ∀ (k : Nat) node, plan.nodes[k]? = some node → plan'.nodes[k]? = some node := by
    intro k node hk
    rw [hn, List.getElem?_append_left (List.getElem?_eq_some_iff.mp hk).1, hk]
  cases h with
  | kept hm hs hd hf => exact .kept (he hm) hs hd hf
  | intoConverter o k node src dst hm hs hk hnode hfrom hc hedge =>
    exact .intoConverter o k node src dst (he hm) hs (hget k node hk) hnode hfrom hc hedge
  | outOfConverter o k node dst hm hd hk hnode hto hedge =>
    exact .outOfConverter o k node dst (he hm) hd (hget k node hk) hnode hto hedge

theorem Rewritten.edge_cases (h : Rewritten nodes conv edges plan) :
    ∀ e ∈ plan.edges, Planned nodes conv edges plan e := by
  induction h with
  | start => simp
  | @keep done plan e h hs hd hf ih =>
    intro f hm
    rcases List.mem_append.mp hm with hm | hm
    · exact (ih f hm).grow (List.append_nil _).symm (List.subset_append_left _ _)
    · obtain rfl := List.mem_singleton.mp hm
      exact .kept (by simp) hs hd hf
  | @convert done plan e src dst h hs hd hf hfrom hto hc ih =>
    intro f hm
    have hget : (splice conv plan e dst).nodes[plan.nodes.length]? =
        some (convertNode conv e plan.insertedNodeIndices.length dst) := by simp [splice]
    simp only [splice, List.mem_append, List.mem_cons, List.not_mem_nil, or_false] at hm
    rcases hm with hm | rfl | rfl
    · exact (ih f hm).grow rfl (List.subset_append_left _ _)
    · exact .intoConverter e _ _ src dst (by simp) hs hget ⟨rfl, rfl⟩ hfrom hc rfl
    · exact .outOfConverter e _ _ dst (by simp) hd hget ⟨rfl, rfl⟩ hto rfl

/-- A planned edge as the validator reads it. -/
def precisionEdge (nodes : List PrecisionGraphNode) (e : PrecisionGraphEdge) : PrecisionEdge :=
  ⟨descriptorAt nodes e.src, e.srcPort, descriptorAt nodes e.dst, e.dstPort⟩

theorem portPrecisions_eq (desc : DescPtr) (kind : PortKind) (name : String) :
    portPrecisions desc kind name = (portCaps desc kind name).precisions := by
  unfold portPrecisions portCaps
  split <;> rfl

theorem validate_of_fits {edges : List PrecisionGraphEdge} (hf : ∀ e ∈ edges, fits nodes e = true) :
    validate (edges.map (precisionEdge nodes)) = .ok () := by
  refine Checked.forM_ok_iff.mpr ?_
  intro q hq
  obtain ⟨e, he, rfl⟩ := List.mem_map.mp hq
  simp only [validateEdge, precisionEdge, portPrecisions_eq]
  exact if_pos (hf e he)

/-- Planning only subdivides edges: the graph it started from can be read back,
and a plan made with the repository's converter needs no second round. -/
theorem autoInsert_preserves_graph (nodes : List PrecisionGraphNode)
    (edges : List PrecisionGraphEdge) (conv : PluginDesc) (plan : PrecisionPlan)
    (h : autoInsert nodes edges (some conv) = .ok plan) :
    nodes <+: plan.nodes ∧
    (∃ paths, plan.edges = paths.flatten ∧ List.Forall₂ (Path nodes conv plan) edges paths) ∧
    (∀ k, nodes.length ≤ k → k < plan.nodes.length →
      plan.edges.countP (fun e => e.dst == k) = 1 ∧
      plan.edges.countP (fun e => e.src == k) = 1) ∧
    contract nodes.length plan.edges = edges ∧
    (Kahn.Acyclic (graphEdges plan.edges) ↔ Kahn.Acyclic (graphEdges edges)) ∧
    (conv = Nodes.precisionConvert →
      validate (plan.edges.map (precisionEdge plan.nodes)) = .ok () ∧
      autoInsert plan.nodes plan.edges (some conv) = .ok ⟨plan.nodes, plan.edges, []⟩) := by
  have hr := autoInsert_rewritten h
  obtain ⟨added, hn, _⟩ := hr.shape.kept
  refine ⟨⟨added, hn.symm⟩, hr.paths, hr.once, hr.contract_eq, hr.subdivided.acyclic_iff, ?_⟩
  rintro rfl
  have hfit := hr.all_fit
  refine ⟨validate_of_fits hfit, autoInsert_of_fits _ ?_⟩
  intro e he
  obtain ⟨hs, hd⟩ := hr.shape.bound e he
  exact ⟨hs, hd, hfit e he⟩

/-- A half-float image shown by an 8-bit node: one converter is put in. -/
theorem autoInsert_preserves_graph_demosaic :
    autoInsert [⟨"demosaic", some Nodes.demosaicRcd, [], false⟩,
      ⟨"view", some Nodes.builtinPassthrough, [], false⟩] [⟨0, 1, "rgba", "in"⟩]
      (some Nodes.precisionConvert) = .ok (splice Nodes.precisionConvert
        ⟨[⟨"demosaic", some Nodes.demosaicRcd, [], false⟩,
          ⟨"view", some Nodes.builtinPassthrough, [], false⟩], [], []⟩
        ⟨0, 1, "rgba", "in"⟩ "R8G8B8A8_UNORM") ∧
    contract 2 [⟨0, 2, "rgba", "in"⟩, ⟨2, 1, "out", "in"⟩] = [⟨0, 1, "rgba", "in"⟩] :=
  ⟨rfl, (autoInsert_preserves_graph [⟨"demosaic", some Nodes.demosaicRcd, [], false⟩,
    ⟨"view", some Nodes.builtinPassthrough, [], false⟩] [⟨0, 1, "rgba", "in"⟩]
    Nodes.precisionConvert _ rfl).2.2.2.1⟩

end Cpipe.Proofs.PrecisionPlanner
