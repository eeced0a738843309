import Cpipe.Proofs.PrecisionPlanner
import Mathlib.Data.Finset.Card
import Mathlib.Data.List.Dedup
import Mathlib.Order.Bounds.Basic
import Mathlib.Order.Interval.Finset.Nat

namespace Cpipe.Proofs.Conversions
open Cpipe.Runtime Cpipe.Runtime.PrecisionPlanner Cpipe.Proofs.PrecisionPlanner Library
open Library.Checked (forall₂_left forall₂_right)

/-! ### Graphs with converters -/

/-- The caps that have this format. -/
def capsOfFormat : String → PortCaps
  | "R16_UINT" => ⟨["r"],["u16"]⟩
  | "R32_SFLOAT" => ⟨["r"],["f32"]⟩
  | "R16G16B16A16_SFLOAT" => ⟨["rgba"],["f16"]⟩
  | "R8G8B8A8_UNORM" => ⟨["rgba"],["u8"]⟩
  | "R16G16B16A16_UNORM" => ⟨["rgba"],["u16"]⟩
  | _ => {}

/-- The format a converter was made for. -/
def targetAt (plan : PrecisionPlan) (k : Nat) : String :=
  match plan.nodes[k]? with
  | none => ""
  | some node => Params.text node.params "target_format" ""

/-- What an edge of the plan carries: the caps of a given port, or the target format
of a converter. -/
def deliveredCaps (nodes : List PrecisionGraphNode) (plan : PrecisionPlan)
    (e : PrecisionGraphEdge) : PortCaps :=
  if e.src < nodes.length then producedCaps nodes e else capsOfFormat (targetAt plan e.src)

/-- Converter `k` gets the pixels of this port, directly or through other converters. -/
inductive Root (n : Nat) (edges : List PrecisionGraphEdge) (src : Nat) (port : String) :
    Nat → Prop
  | first (he : e ∈ edges) (hs : e.src = src) (hp : e.srcPort = port) (hd : e.dst = k)
      (hk : n ≤ k) : Root n edges src port k
  | next (h : Root n edges src port j) (he : e ∈ edges) (hs : e.src = j) (hd : e.dst = k)
      (hk : n ≤ k) : Root n edges src port k

/-- Edge `f` of the plan brings the pixels of edge `e` to their reader. -/
def Brings (n : Nat) (plan : PrecisionPlan) (e f : PrecisionGraphEdge) : Prop :=
  f = e ∨ (n ≤ f.src ∧ f.dst = e.dst ∧ f.dstPort = e.dstPort ∧
    Root n plan.edges e.src e.srcPort f.src)

/-- A graph that comes from the given one by putting in converters. One converter may
serve several readers and read another converter, each input is accepted, and every
connection of the given graph is there and no other. -/
structure Converted (nodes : List PrecisionGraphNode) (edges : List PrecisionGraphEdge)
    (conv : DescPtr) (plan : PrecisionPlan) : Prop where
  kept : ∃ added, plan.nodes = nodes ++ added ∧ ∀ node ∈ added, node.descriptor = conv
  bound : ∀ f ∈ plan.edges, f.src < plan.nodes.length ∧ f.dst < plan.nodes.length
  fed : ∀ f ∈ plan.edges, ∀ g ∈ plan.edges, nodes.length ≤ f.dst → f.dst = g.dst →
    f.src = g.src ∧ f.srcPort = g.srcPort
  converts : ∀ f ∈ plan.edges, nodes.length ≤ f.dst → ∃ format,
    formatFromCaps (deliveredCaps nodes plan f) = some format ∧
    directConversionSupported format (targetAt plan f.dst) = true
  accepted : ∀ f ∈ plan.edges, f.dst < nodes.length →
    intersects (deliveredCaps nodes plan f).precisions (requiredCaps nodes f).precisions = true
  carried : ∀ e ∈ edges, ∃ f ∈ plan.edges, Brings nodes.length plan e f
  only : ∀ f ∈ plan.edges, f.dst < nodes.length → ∃ e ∈ edges, Brings nodes.length plan e f

/-- The edges that need a converter. -/
def mismatched (nodes : List PrecisionGraphNode) (edges : List PrecisionGraphEdge) :
    List PrecisionGraphEdge :=
  edges.filter (fun e => !fits nodes e)

/-- The format an edge has to be converted to. -/
def targetOf (nodes : List PrecisionGraphNode) (e : PrecisionGraphEdge) : String :=
  (formatFromCaps (requiredCaps nodes e)).getD ""

/-- No two edges that need a converter leave one port for one format. -/
def Unshared (nodes : List PrecisionGraphNode) (edges : List PrecisionGraphEdge) : Prop :=
  (mismatched nodes edges).Pairwise (fun e f =>
    ¬ (e.src = f.src ∧ e.srcPort = f.srcPort ∧ targetOf nodes e = targetOf nodes f))

/-- What a converter is needed for: a port and a format. -/
@[ext]
structure Need where
  src : Nat
  srcPort : String
  target : String
  deriving DecidableEq

def need (nodes : List PrecisionGraphNode) (e : PrecisionGraphEdge) : Need :=
  ⟨e.src,e.srcPort,targetOf nodes e⟩

def needs (nodes : List PrecisionGraphNode) (edges : List PrecisionGraphEdge) : List Need :=
  (mismatched nodes edges).map (need nodes)

theorem unshared_iff {nodes : List PrecisionGraphNode} {edges : List PrecisionGraphEdge} :
    Unshared nodes edges ↔ (needs nodes edges).Nodup := by
  simp only [Unshared, needs, List.Nodup, List.pairwise_map, need, ne_eq, Need.mk.injEq]

variable {nodes : List PrecisionGraphNode} {edges : List PrecisionGraphEdge} {conv : DescPtr}
  {plan : PrecisionPlan}

theorem mem_mismatched {e : PrecisionGraphEdge} :
    e ∈ mismatched nodes edges ↔ e ∈ edges ∧ fits nodes e = false := by
  simp [mismatched]

theorem capsOfFormat_eq {caps : PortCaps} {format : String}
    (h : formatFromCaps caps = some format) : capsOfFormat format = caps := by
  rcases formatFromCaps_some h with h | h | h | h | h
  all_goals
    obtain ⟨rfl,rfl⟩ := h
    rfl

/-- From one format there is at most one conversion to each precision. -/
theorem target_unique {src a b : String} (ha : directConversionSupported src a = true)
    (hb : directConversionSupported src b = true)
    (h : (capsOfFormat a).precisions = (capsOfFormat b).precisions) : a = b := by
  simp only [directConversionSupported, Bool.or_eq_true, Bool.and_eq_true, beq_iff_eq] at ha hb
  rcases ha with ((⟨rfl,rfl⟩ | ⟨rfl,rfl⟩) | ⟨rfl,rfl⟩) | ⟨rfl,rfl⟩
  all_goals
    rcases hb with ((⟨hs,rfl⟩ | ⟨hs,rfl⟩) | ⟨hs,rfl⟩) | ⟨hs,rfl⟩
    all_goals first | rfl | exact absurd hs (by decide) | exact absurd h (by decide)

/-- A supported target is a known format. -/
theorem target_known {src target : String} (h : directConversionSupported src target = true) :
    ∃ precision, (capsOfFormat target).precisions = [precision] := by
  simp only [directConversionSupported, Bool.or_eq_true, Bool.and_eq_true, beq_iff_eq] at h
  rcases h with ((⟨_,rfl⟩ | ⟨_,rfl⟩) | ⟨_,rfl⟩) | ⟨_,rfl⟩
  all_goals exact ⟨_,rfl⟩

theorem intersects_single {a b : String} (h : intersects [a] [b] = true) : a = b := by
  simpa [intersects] using h

/-! ### What a plan of the source is -/

/-- The edges the planner accepts. -/
structure Convertible (nodes : List PrecisionGraphNode) (e : PrecisionGraphEdge) : Prop where
  src_lt : e.src < nodes.length
  dst_lt : e.dst < nodes.length
  formats : fits nodes e = false → ∃ src, formatFromCaps (producedCaps nodes e) = some src ∧
    formatFromCaps (requiredCaps nodes e) = some (targetOf nodes e) ∧
    directConversionSupported src (targetOf nodes e) = true

theorem rewritten_convertible {desc : PluginDesc} (h : Rewritten nodes desc edges plan) :
    ∀ e ∈ edges, Convertible nodes e := by
  induction h with
  | start => simp
  | @keep done plan e h hs hd hf ih =>
    intro f hm
    rcases List.mem_append.mp hm with hm | hm
    · exact ih f hm
    · obtain rfl := List.mem_singleton.mp hm
      exact ⟨hs,hd,fun hno => absurd hf (by simp [hno])⟩
  | @convert done plan e src dst h hs hd hf hfrom hto hc ih =>
    intro f hm
    rcases List.mem_append.mp hm with hm | hm
    · exact ih f hm
    · obtain rfl := List.mem_singleton.mp hm
      have htarget : targetOf nodes f = dst := by simp [targetOf, hto]
      exact ⟨hs,hd,fun _ => ⟨src,hfrom,htarget ▸ hto,htarget ▸ hc⟩⟩

/-- The source puts one converter into every edge that needs one. -/
theorem rewritten_length {desc : PluginDesc} (h : Rewritten nodes desc edges plan) :
    plan.nodes.length = nodes.length + (mismatched nodes edges).length := by
  induction h with
  | start => rfl
  | keep h hs hd hf ih => simpa [mismatched, hf] using ih
  | convert h hs hd hf hfrom hto hc ih =>
    simp only [splice, List.length_append, List.length_singleton, mismatched, List.filter_append,
      List.filter_cons, hf, List.filter_nil] at ih ⊢
    simp only [Bool.not_false, if_true, List.length_singleton]
    omega

theorem isConverter_target {desc : PluginDesc} {node : PrecisionGraphNode} {k : Nat}
    {target : String} (hn : plan.nodes[k]? = some node) (h : IsConverter desc target node) :
    targetAt plan k = target := by
  simp [targetAt, hn, h.2, Params.text, Params.lookup]

theorem eq_of_countP {p : PrecisionGraphEdge → Bool} {es : List PrecisionGraphEdge}
    (h : es.countP p = 1) {f g : PrecisionGraphEdge} (hf : f ∈ es) (hg : g ∈ es) (hpf : p f = true)
    (hpg : p g = true) : f = g := by
  rw [List.countP_eq_length_filter] at h
  obtain ⟨x,hx⟩ := List.length_eq_one_iff.mp h
  have hfx := List.mem_filter.mpr ⟨hf,hpf⟩
  have hgx := List.mem_filter.mpr ⟨hg,hpg⟩
  rw [hx, List.mem_singleton] at hfx hgx
  rw [hfx, hgx]

/-- Every edge of a plan belongs to the path of a given edge and brings its pixels
when it ends at a given node. -/
theorem path_brings {desc : PluginDesc} {e : PrecisionGraphEdge} {path : List PrecisionGraphEdge}
    (h : Path nodes desc plan e path) (hin : ∀ f ∈ path, f ∈ plan.edges)
    (hd : e.dst < nodes.length) :
    (∃ f ∈ path, Brings nodes.length plan e f) ∧
    ∀ f ∈ path, f.dst < nodes.length → Brings nodes.length plan e f := by
  cases h with
  | direct =>
    refine ⟨⟨e,by simp,.inl rfl⟩,fun f hf _ => ?_⟩
    obtain rfl := List.mem_singleton.mp hf
    exact .inl rfl
  | through k node target fresh found hdesc params format =>
    have hroot : Root nodes.length plan.edges e.src e.srcPort k :=
      .first (hin ⟨e.src,k,e.srcPort,"in"⟩ (by simp)) rfl rfl rfl fresh
    have hlast : Brings nodes.length plan e ⟨k,e.dst,"out",e.dstPort⟩ :=
      .inr ⟨fresh,rfl,rfl,hroot⟩
    refine ⟨⟨_,by simp,hlast⟩,fun f hf hfd => ?_⟩
    simp only [List.mem_cons, List.not_mem_nil, or_false] at hf
    rcases hf with rfl | rfl
    · dsimp only at hfd
      omega
    · exact hlast

/-- Edges into a given node come from a port that fits, or from a converter for the
format the node asks for. -/
theorem rewritten_into {desc : PluginDesc} (h : Rewritten nodes desc edges plan) :
    ∀ f ∈ plan.edges, f.dst < nodes.length →
      (f.src < nodes.length ∧ fits nodes f = true) ∨
      (nodes.length ≤ f.src ∧
        formatFromCaps (requiredCaps nodes f) = some (targetAt plan f.src)) := by
  induction h with
  | start => simp
  | @keep done plan e h hs hd hf ih =>
    intro f hm hlt
    rcases List.mem_append.mp hm with hm | hm
    · exact ih f hm hlt
    · obtain rfl := List.mem_singleton.mp hm
      exact .inl ⟨hs,hf⟩
  | @convert done plan e src dst h hs hd hf hfrom hto hc ih =>
    intro f hm hlt
    have hle := h.shape.length_le
    simp only [splice, List.mem_append, List.mem_cons, List.not_mem_nil, or_false] at hm
    rcases hm with hm | rfl | rfl
    · rcases ih f hm hlt with hfits | ⟨hn,hformat⟩
      · exact .inl hfits
      refine .inr ⟨hn,?_⟩
      rw [hformat, targetAt, targetAt, splice,
        List.getElem?_append_left (h.shape.bound f hm).1]
    · dsimp only at hlt
      omega
    · refine .inr ⟨hle,?_⟩
      have hnew : targetAt (splice desc plan e dst) plan.nodes.length = dst :=
        isConverter_target (List.getElem?_concat_length ..) ⟨rfl,rfl⟩
      rw [hnew]
      exact hto

theorem intersects_self {format : String} {caps : PortCaps}
    (h : formatFromCaps caps = some format) :
    intersects caps.precisions caps.precisions = true := by
  rcases formatFromCaps_some h with h | h | h | h | h
  all_goals
    obtain ⟨rfl,rfl⟩ := h
    decide

theorem rewritten_converted {desc : PluginDesc} (h : Rewritten nodes desc edges plan) :
    Converted nodes edges (some desc) plan := by
  obtain ⟨added,hadded,hall⟩ := h.shape.kept
  obtain ⟨paths,hpaths,hpath⟩ := h.paths
  have hconv := rewritten_convertible h
  have hin : ∀ path ∈ paths, ∀ f ∈ path, f ∈ plan.edges := by
    intro path hp f hf
    rw [hpaths]
    exact List.mem_flatten.mpr ⟨path,hp,hf⟩
  refine
    { kept := ⟨added,hadded,fun node hm => (hall node hm).1⟩
      bound := h.shape.bound
      fed := ?_
      converts := ?_
      accepted := ?_
      carried := ?_
      only := ?_ }
  · intro f hf g hg hn he
    have hcount := (h.once f.dst hn (h.shape.bound f hf).2).1
    have hfg : f = g := eq_of_countP hcount hf hg (by simp) (by simp [he])
    exact ⟨by rw [hfg],by rw [hfg]⟩
  · intro f hf hn
    cases h.edge_cases f hf with
    | kept _ _ hd _ => omega
    | intoConverter o k node src dst _ hs hk hnode hfrom hc hedge =>
      subst hedge
      refine ⟨src,?_,?_⟩
      · rw [deliveredCaps, if_pos hs]
        exact hfrom
      · rw [isConverter_target hk hnode]
        exact hc
    | outOfConverter o k node dst _ hd hk hnode hto hedge =>
      subst hedge
      dsimp only at hn
      omega
  · intro f hf hd
    rcases rewritten_into h f hf hd with ⟨hs,hfit⟩ | ⟨hn,hformat⟩
    · rw [deliveredCaps, if_pos hs]
      exact hfit
    · rw [deliveredCaps, if_neg (by omega), capsOfFormat_eq hformat]
      exact intersects_self hformat
  · intro e he
    obtain ⟨path,hp,hrel⟩ := forall₂_left hpath he
    obtain ⟨f,hf,hbrings⟩ := (path_brings hrel (hin path hp) (hconv e he).dst_lt).1
    exact ⟨f,hin path hp f hf,hbrings⟩
  · intro f hf hd
    rw [hpaths] at hf
    obtain ⟨path,hp,hfp⟩ := List.mem_flatten.mp hf
    obtain ⟨e,he,hrel⟩ := forall₂_right hpath hp
    exact ⟨e,he,(path_brings hrel (hin path hp) (hconv e he).dst_lt).2 f hfp hd⟩

/-! ### Fewer converters than needs is impossible -/

theorem Root.fresh {n src k : Nat} {port : String} {es : List PrecisionGraphEdge}
    (h : Root n es src port k) : n ≤ k := by
  cases h with
  | first _ _ _ _ hk => exact hk
  | next _ _ _ _ hk => exact hk

theorem Root.entered {n src k : Nat} {port : String} {es : List PrecisionGraphEdge}
    (h : Root n es src port k) : ∃ f ∈ es, f.dst = k := by
  cases h with
  | first he _ _ hd _ => exact ⟨_,he,hd⟩
  | next _ he _ hd _ => exact ⟨_,he,hd⟩

/-- A converter has one source, so it hands on the pixels of one port only. -/
theorem Root.unique {n src src' k : Nat} {port port' : String} {es : List PrecisionGraphEdge}
    (hfed : ∀ f ∈ es, ∀ g ∈ es, n ≤ f.dst → f.dst = g.dst →
      f.src = g.src ∧ f.srcPort = g.srcPort)
    (hs : src < n) (hs' : src' < n) (h : Root n es src port k) (h' : Root n es src' port' k) :
    src = src' ∧ port = port' := by
  induction h with
  | first he hes hep hd hk =>
    cases h' with
    | first he' hes' hep' hd' _ =>
      obtain ⟨hsrc,hport⟩ := hfed _ he _ he' (by omega) (hd.trans hd'.symm)
      exact ⟨by omega,by rw [← hep, ← hep', hport]⟩
    | next hroot he' hes' hd' _ =>
      obtain ⟨hsrc,_⟩ := hfed _ he _ he' (by omega) (hd.trans hd'.symm)
      have := hroot.fresh
      omega
  | next hroot he hes hd hk ih =>
    cases h' with
    | first he' hes' hep' hd' _ =>
      obtain ⟨hsrc,_⟩ := hfed _ he _ he' (by omega) (hd.trans hd'.symm)
      have := hroot.fresh
      omega
    | next hroot' he' hes' hd' _ =>
      obtain ⟨hsrc,_⟩ := hfed _ he _ he' (by omega) (hd.trans hd'.symm)
      rw [hes, hes'] at hsrc
      exact ih (hsrc ▸ hroot')

/-- An edge that does not fit reaches its reader through a converter that writes the
precision the reader asks for. -/
theorem Converted.converter (h : Converted nodes edges conv plan) {e : PrecisionGraphEdge}
    (he : e ∈ edges) (hc : Convertible nodes e) (hno : fits nodes e = false) :
    ∃ k, nodes.length ≤ k ∧ k < plan.nodes.length ∧
      Root nodes.length plan.edges e.src e.srcPort k ∧
      (capsOfFormat (targetAt plan k)).precisions =
        (capsOfFormat (targetOf nodes e)).precisions := by
  obtain ⟨f,hf,rfl | ⟨hn,hd,hport,hroot⟩⟩ := h.carried e he
  · have hfit := h.accepted f hf hc.dst_lt
    rw [deliveredCaps, if_pos hc.src_lt] at hfit
    exact absurd hfit (by simpa [fits] using hno)
  · refine ⟨f.src,hn,(h.bound f hf).1,hroot,?_⟩
    have haccept := h.accepted f hf (by rw [hd]; exact hc.dst_lt)
    obtain ⟨g,hg,hgd⟩ := hroot.entered
    obtain ⟨src,_,hsup⟩ := h.converts g hg (by omega)
    obtain ⟨p,hp⟩ := target_known (hgd ▸ hsup)
    obtain ⟨_,_,hto,hsup'⟩ := hc.formats hno
    obtain ⟨q,hq⟩ := target_known hsup'
    have hreq : requiredCaps nodes f = capsOfFormat (targetOf nodes e) := by
      rw [capsOfFormat_eq hto, requiredCaps, requiredCaps, hd, hport]
    rw [deliveredCaps, if_neg (by omega), hreq, hp, hq] at haccept
    rw [hp, hq, intersects_single haccept]

theorem Converted.needs_le (h : Converted nodes edges conv plan)
    (hconv : ∀ e ∈ edges, Convertible nodes e) :
    (needs nodes edges).toFinset.card ≤ plan.nodes.length - nodes.length := by
  have hserved : ∀ d ∈ (needs nodes edges).toFinset, ∃ k,
      (nodes.length ≤ k ∧ k < plan.nodes.length) ∧
      Root nodes.length plan.edges d.src d.srcPort k ∧ d.src < nodes.length ∧
      (capsOfFormat (targetAt plan k)).precisions = (capsOfFormat d.target).precisions ∧
      ∃ src, formatFromCaps (portCaps (descriptorAt nodes d.src) .output d.srcPort) = some src ∧
        directConversionSupported src d.target = true := by
    intro d hd
    obtain ⟨e,he,rfl⟩ := List.mem_map.mp (List.mem_toFinset.mp hd)
    obtain ⟨hmem,hno⟩ := mem_mismatched.mp he
    obtain ⟨k,hn,hlt,hroot,hprec⟩ := h.converter hmem (hconv e hmem) hno
    obtain ⟨src,hfrom,_,hsup⟩ := (hconv e hmem).formats hno
    exact ⟨k,⟨hn,hlt⟩,hroot,(hconv e hmem).src_lt,hprec,src,hfrom,hsup⟩
  choose! k hk hroot hlt hprec hsup using hserved
  rw [← Nat.card_Ico]
  refine Finset.card_le_card_of_injOn k ?_ ?_
  · intro d hd
    exact Finset.mem_coe.mpr (Finset.mem_Ico.mpr (hk d hd))
  · intro a ha b hb he
    have hra := hroot a ha
    rw [he] at hra
    obtain ⟨hsrc,hport⟩ := Root.unique h.fed (hlt a ha) (hlt b hb) hra (hroot b hb)
    obtain ⟨sa,hfa,hsa⟩ := hsup a ha
    obtain ⟨sb,hfb,hsb⟩ := hsup b hb
    -- both are conversions of one port, so equal precisions are equal formats
    rw [hsrc, hport, hfb] at hfa
    obtain rfl := Option.some.inj hfa
    have htarget := target_unique hsa hsb (by rw [← hprec a ha, he, hprec b hb])
    exact Need.ext hsrc hport htarget

/-! ### One converter for each need is enough -/

/-- The graph in which edges with the same need share a converter. -/
def shared (nodes : List PrecisionGraphNode) (edges : List PrecisionGraphEdge) (conv : DescPtr) :
    PrecisionPlan :=
  let distinct := (needs nodes edges).dedup
  { nodes := nodes ++ distinct.map (fun d =>
      ⟨"__precision_convert",conv,[("target_format",.string d.target)],true⟩)
    edges := edges.filter (fits nodes) ++
      (distinct.zipIdx.map (fun p => ⟨p.1.src,nodes.length+p.2,p.1.srcPort,"in"⟩) ++
        (mismatched nodes edges).map (fun e =>
          ⟨nodes.length + distinct.idxOf (need nodes e),e.dst,"out",e.dstPort⟩))
    insertedNodeIndices := List.range' nodes.length distinct.length }

theorem shared_length : (shared nodes edges conv).nodes.length =
    nodes.length + (needs nodes edges).dedup.length := by
  simp [shared]

theorem mem_shared {f : PrecisionGraphEdge} : f ∈ (shared nodes edges conv).edges ↔
    (f ∈ edges ∧ fits nodes f = true) ∨
    (∃ d i, (needs nodes edges).dedup[i]? = some d ∧
      f = ⟨d.src,nodes.length+i,d.srcPort,"in"⟩) ∨
    (∃ e ∈ mismatched nodes edges,
      f = ⟨nodes.length + (needs nodes edges).dedup.idxOf (need nodes e),e.dst,"out",
        e.dstPort⟩) := by
  simp only [shared, List.mem_append, List.mem_filter, List.mem_map, Prod.exists]
  refine or_congr Iff.rfl (or_congr ?_ ?_)
  · refine exists_congr (fun d => exists_congr (fun i => and_congr ?_ eq_comm))
    exact List.mem_zipIdx_iff_getElem?
  · exact exists_congr (fun e => and_congr Iff.rfl eq_comm)

theorem shared_target {d : Need} {i : Nat} (h : (needs nodes edges).dedup[i]? = some d) :
    targetAt (shared nodes edges conv) (nodes.length + i) = d.target := by
  have hnode : (shared nodes edges conv).nodes[nodes.length+i]? =
      some ⟨"__precision_convert",conv,[("target_format",.string d.target)],true⟩ := by
    rw [shared, List.getElem?_append_right (Nat.le_add_right _ _), Nat.add_sub_cancel_left,
      List.getElem?_map, h, Option.map_some]
  simp [targetAt, hnode, Params.text, Params.lookup]

theorem dedup_idxOf {e : PrecisionGraphEdge} (h : e ∈ mismatched nodes edges) :
    (needs nodes edges).dedup[(needs nodes edges).dedup.idxOf (need nodes e)]? =
      some (need nodes e) := by
  have hmem : need nodes e ∈ (needs nodes edges).dedup :=
    List.mem_dedup.mpr (List.mem_map.mpr ⟨e,h,rfl⟩)
  rw [List.getElem?_eq_getElem (List.idxOf_lt_length_iff.mpr hmem), List.getElem_idxOf]

theorem need_of_getElem {d : Need} {i : Nat} (h : (needs nodes edges).dedup[i]? = some d) :
    ∃ e ∈ mismatched nodes edges, need nodes e = d :=
  List.mem_map.mp (List.mem_dedup.mp (List.mem_of_getElem? h))

theorem shared_brings {e : PrecisionGraphEdge} (h : e ∈ mismatched nodes edges) :
    Brings nodes.length (shared nodes edges conv) e
      ⟨nodes.length + (needs nodes edges).dedup.idxOf (need nodes e),e.dst,"out",e.dstPort⟩ := by
  refine .inr ⟨Nat.le_add_right _ _,rfl,rfl,?_⟩
  exact .first (mem_shared.mpr (.inr (.inl ⟨_,_,dedup_idxOf h,rfl⟩))) rfl rfl rfl
    (Nat.le_add_right _ _)

theorem shared_bound (hconv : ∀ e ∈ edges, Convertible nodes e) {f : PrecisionGraphEdge}
    (hf : f ∈ (shared nodes edges conv).edges) :
    f.src < (shared nodes edges conv).nodes.length ∧
      f.dst < (shared nodes edges conv).nodes.length := by
  rw [shared_length]
  rcases mem_shared.mp hf with ⟨he,_⟩ | ⟨d,i,hd,rfl⟩ | ⟨e,he,rfl⟩
  · have hs := (hconv f he).src_lt
    have hd := (hconv f he).dst_lt
    omega
  · obtain ⟨e,he,rfl⟩ := need_of_getElem hd
    have hs := (hconv e (mem_mismatched.mp he).1).src_lt
    have hi := (List.getElem?_eq_some_iff.mp hd).1
    simp only [need]
    omega
  · have hd := (hconv e (mem_mismatched.mp he).1).dst_lt
    have hi := (List.getElem?_eq_some_iff.mp (dedup_idxOf he)).1
    dsimp only
    omega

/-- A converter has the edge of its need. -/
theorem shared_into_converter (hconv : ∀ e ∈ edges, Convertible nodes e)
    {f : PrecisionGraphEdge} (hf : f ∈ (shared nodes edges conv).edges)
    (hn : nodes.length ≤ f.dst) :
    ∃ d i, (needs nodes edges).dedup[i]? = some d ∧
      f = ⟨d.src,nodes.length+i,d.srcPort,"in"⟩ := by
  rcases mem_shared.mp hf with ⟨hm,_⟩ | hneed | ⟨e,hm,rfl⟩
  · have := (hconv f hm).dst_lt
    omega
  · exact hneed
  · have := (hconv e (mem_mismatched.mp hm).1).dst_lt
    dsimp only at hn
    omega

/-- A given node has its own edges, those that need a converter from the converter. -/
theorem shared_into_given {f : PrecisionGraphEdge} (hf : f ∈ (shared nodes edges conv).edges)
    (hd : f.dst < nodes.length) :
    (f ∈ edges ∧ fits nodes f = true) ∨ ∃ e ∈ mismatched nodes edges,
      f = ⟨nodes.length + (needs nodes edges).dedup.idxOf (need nodes e),e.dst,"out",
        e.dstPort⟩ := by
  rcases mem_shared.mp hf with hown | ⟨d,i,_,rfl⟩ | hlast
  · exact .inl hown
  · dsimp only at hd
    omega
  · exact .inr hlast

theorem shared_converted (hconv : ∀ e ∈ edges, Convertible nodes e) :
    Converted nodes edges conv (shared nodes edges conv) := by
  refine
    { kept := ⟨_,rfl,?_⟩
      bound := fun _ => shared_bound hconv
      fed := ?_
      converts := ?_
      accepted := ?_
      carried := ?_
      only := ?_ }
  · intro node hm
    obtain ⟨d,_,rfl⟩ := List.mem_map.mp hm
    rfl
  · intro f hf g hg hn he
    obtain ⟨d,i,hd,rfl⟩ := shared_into_converter hconv hf hn
    obtain ⟨d',i',hd',rfl⟩ := shared_into_converter hconv hg (he ▸ hn)
    dsimp only at he
    obtain rfl : i = i' := by omega
    rw [hd] at hd'
    obtain rfl := Option.some.inj hd'
    exact ⟨rfl,rfl⟩
  · intro f hf hn
    obtain ⟨d,i,hd,rfl⟩ := shared_into_converter hconv hf hn
    rw [shared_target hd]
    obtain ⟨e,he,rfl⟩ := need_of_getElem hd
    obtain ⟨hmem,hno⟩ := mem_mismatched.mp he
    obtain ⟨src,hfrom,_,hsup⟩ := (hconv e hmem).formats hno
    have hlt : (need nodes e).src < nodes.length := (hconv e hmem).src_lt
    refine ⟨src,?_,hsup⟩
    rw [deliveredCaps, if_pos hlt]
    exact hfrom
  · intro f hf hd
    rcases shared_into_given hf hd with ⟨hm,hfit⟩ | ⟨e,he,rfl⟩
    · rw [deliveredCaps, if_pos (hconv f hm).src_lt]
      exact hfit
    · obtain ⟨hmem,hno⟩ := mem_mismatched.mp he
      obtain ⟨src,_,hto,_⟩ := (hconv e hmem).formats hno
      rw [deliveredCaps, if_neg (by dsimp only; omega), shared_target (dedup_idxOf he)]
      have hreq : capsOfFormat (need nodes e).target = requiredCaps nodes e := capsOfFormat_eq hto
      rw [hreq]
      exact intersects_self hto
  · intro e he
    cases hfit : fits nodes e with
    | true => exact ⟨e,mem_shared.mpr (.inl ⟨he,hfit⟩),.inl rfl⟩
    | false =>
      have hm := mem_mismatched.mpr ⟨he,hfit⟩
      exact ⟨_,mem_shared.mpr (.inr (.inr ⟨e,hm,rfl⟩)),shared_brings hm⟩
  · intro f hf hd
    rcases shared_into_given hf hd with ⟨hm,_⟩ | ⟨e,he,rfl⟩
    · exact ⟨f,hm,.inl rfl⟩
    · exact ⟨e,(mem_mismatched.mp he).1,shared_brings he⟩

/-! ### When the source puts in the fewest -/

/-- The numbers of converters with which the graph can be converted. -/
def converterCounts (nodes : List PrecisionGraphNode) (edges : List PrecisionGraphEdge)
    (conv : DescPtr) : Set Nat :=
  {k | ∃ other, Converted nodes edges conv other ∧ other.nodes.length = nodes.length + k}

theorem insertEdge_offered {desc : PluginDesc} {e : PrecisionGraphEdge} {plan' : PrecisionPlan}
    (h : insertEdge nodes none plan e = .ok plan') :
    insertEdge nodes (some desc) plan e = .ok plan' := by
  unfold insertEdge at h ⊢
  by_cases hr : nodes.length ≤ e.src ∨ nodes.length ≤ e.dst
  · rw [if_pos hr] at h
    cases h
  · rw [if_neg hr] at h ⊢
    dsimp only at h ⊢
    by_cases hf : intersects (producedCaps nodes e).precisions (requiredCaps nodes e).precisions
    · rw [if_pos hf] at h ⊢
      exact h
    · rw [if_neg hf] at h
      repeat' split at h
      all_goals cases h

/-- A planner without a converter node builds the plan it builds with any. -/
theorem autoInsert_none_rewritten (desc : PluginDesc)
    (h : autoInsert nodes edges none = .ok plan) : Rewritten nodes desc edges plan :=
  Checked.foldlM_invariant (Rewritten nodes desc)
    (fun _ _ _ _ hs hx => insertEdge_rewritten hs (insertEdge_offered hx)) edges []
    ⟨nodes,[],[]⟩ plan .start h

/-- Every plan the source returns is one of the graphs it is compared with. -/
theorem autoInsert_converted (h : autoInsert nodes edges conv = .ok plan) :
    Converted nodes edges conv plan ∧ (∀ e ∈ edges, Convertible nodes e) ∧
    plan.nodes.length = nodes.length + (mismatched nodes edges).length ∧
    plan.insertedNodeIndices.length = (mismatched nodes edges).length := by
  have hrewritten : ∃ desc, Rewritten nodes desc edges plan ∧
      (conv = some desc ∨ plan.nodes = nodes) := by
    cases conv with
    | some desc => exact ⟨desc,autoInsert_rewritten h,.inl rfl⟩
    | none =>
      refine ⟨Nodes.precisionConvert,autoInsert_none_rewritten _ h,.inr ?_⟩
      rw [autoInsert_none h]
  obtain ⟨desc,hr,hconv⟩ := hrewritten
  have hlength := rewritten_length hr
  refine ⟨?_,rewritten_convertible hr,hlength,?_⟩
  · rcases hconv with rfl | hnodes
    · exact rewritten_converted hr
    · exact { rewritten_converted hr with kept := ⟨[],by simp [hnodes]⟩ }
  · rw [hr.shape.inserted, List.length_range', hlength, Nat.add_sub_cancel_left]

theorem fewest_needs (hconv : ∀ e ∈ edges, Convertible nodes e) :
    IsLeast (converterCounts nodes edges conv) (needs nodes edges).dedup.length := by
  constructor
  · exact ⟨shared nodes edges conv,shared_converted hconv,shared_length⟩
  · rintro k ⟨other,hother,hlength⟩
    have hle := hother.needs_le hconv
    rw [List.card_toFinset, hlength, Nat.add_sub_cancel_left] at hle
    exact hle

/-- The planner puts in the fewest converters exactly when no two edges could have
shared one. -/
theorem autoInsert_fewest_iff (nodes : List PrecisionGraphNode)
    (edges : List PrecisionGraphEdge) (conv : DescPtr) (plan : PrecisionPlan)
    (h : autoInsert nodes edges conv = .ok plan) :
    IsLeast (converterCounts nodes edges conv) plan.insertedNodeIndices.length ↔
      Unshared nodes edges := by
  obtain ⟨_,hconv,_,hinserted⟩ := autoInsert_converted h
  have hleast : IsLeast (converterCounts nodes edges conv) (needs nodes edges).dedup.length :=
    fewest_needs hconv
  have hneeds : (needs nodes edges).length = plan.insertedNodeIndices.length := by
    rw [hinserted, needs, List.length_map]
  rw [unshared_iff, ← hneeds]
  constructor
  · intro hmin
    have hsame := (List.dedup_sublist (needs nodes edges)).length_eq.mp (hleast.unique hmin)
    exact List.dedup_eq_self.mp hsame
  · intro hnodup
    rwa [List.dedup_eq_self.mpr hnodup] at hleast

/-- A half-float image shown by an 8-bit node. -/
def oneView : List PrecisionGraphNode :=
  [⟨"demosaic",some Nodes.demosaicRcd,[],false⟩,⟨"view",some Nodes.builtinPassthrough,[],false⟩]

theorem autoInsert_fewest_demosaic :
    ∃ plan, autoInsert oneView [⟨0,1,"rgba","in"⟩] (some Nodes.precisionConvert) = .ok plan ∧
      plan.insertedNodeIndices = [2] ∧
      IsLeast (converterCounts oneView [⟨0,1,"rgba","in"⟩] (some Nodes.precisionConvert))
        plan.insertedNodeIndices.length := by
  have hplan : ∃ plan, autoInsert oneView [⟨0,1,"rgba","in"⟩] (some Nodes.precisionConvert) =
      .ok plan ∧ plan.insertedNodeIndices = [2] := ⟨_,rfl,rfl⟩
  obtain ⟨plan,hok,hinserted⟩ := hplan
  refine ⟨plan,hok,hinserted,(autoInsert_fewest_iff _ _ _ _ hok).mpr ?_⟩
  exact (List.pairwise_singleton _ _).filter _

/-- The same image shown by two 8-bit nodes. -/
def twoViews : List PrecisionGraphNode :=
  [⟨"demosaic",some Nodes.demosaicRcd,[],false⟩,⟨"left",some Nodes.builtinPassthrough,[],false⟩,
   ⟨"right",some Nodes.builtinPassthrough,[],false⟩]

def twoViewEdges : List PrecisionGraphEdge := [⟨0,1,"rgba","in"⟩,⟨0,2,"rgba","in"⟩]

/-- Two converters are put in where one does. -/
theorem autoInsert_not_fewest :
    ∃ plan, autoInsert twoViews twoViewEdges (some Nodes.precisionConvert) = .ok plan ∧
      plan.insertedNodeIndices = [3,4] ∧
      1 ∈ converterCounts twoViews twoViewEdges (some Nodes.precisionConvert) ∧
      ¬ IsLeast (converterCounts twoViews twoViewEdges (some Nodes.precisionConvert))
        plan.insertedNodeIndices.length := by
  have hplan : ∃ plan, autoInsert twoViews twoViewEdges (some Nodes.precisionConvert) = .ok plan ∧
      plan.insertedNodeIndices = [3,4] := ⟨_,rfl,rfl⟩
  obtain ⟨plan,hok,hinserted⟩ := hplan
  have hone : 1 ∈ converterCounts twoViews twoViewEdges (some Nodes.precisionConvert) :=
    (fewest_needs (autoInsert_converted hok).2.1).1
  refine ⟨plan,hok,hinserted,hone,fun hleast => ?_⟩
  have := hleast.2 hone
  simp [hinserted] at this

end Cpipe.Proofs.Conversions
