import Cpipe.Proofs.EditorServer
import Mathlib.Data.Finset.Erase
import Mathlib.Data.Finset.Filter
import Mathlib.Data.Finset.Insert

namespace Cpipe.Proofs.Thumbnails
open Cpipe.Server Cpipe.Server.EditorServer Cpipe.Proofs.EditorServer

/-! ### What the clients have asked for -/

/-- The connected clients, and for each client the pairs it subscribed to and has not
unsubscribed from. -/
structure Wishes where
  connected : Finset Client := ∅
  pairs : Client → Finset (String × String) := fun _ => ∅

def wish (w : Wishes) : Event → Wishes
  | .opened client => { w with connected := insert client w.connected }
  | .closed client => ⟨w.connected.erase client,Function.update w.pairs client ∅⟩
  | .control client payload =>
    match readControl payload with
    | .subscribe sub =>
      { w with
        pairs := Function.update w.pairs client
          (insert (sub.nodeId,sub.port) (w.pairs client)) }
    | .unsubscribe named =>
      { w with
        pairs := Function.update w.pairs client
          ((w.pairs client).filter (fun pair => named ≠ some pair)) }
    | .other => w
  | _ => w

def wishes (events : List Event) : Wishes := events.foldl wish {}

def server (encode : UInt32 → List UInt8) (events : List Event) : EditorServer :=
  events.foldl (step encode) {}

/-- The targets of the next push are the wishes of the connected clients, and a group
has targets of one pair only. -/
structure Served (s : EditorServer) (w : Wishes) : Prop where
  targets : ∀ client nodeId port,
    (∃ t ∈ s.targets, t.client = client ∧ t.subscription.nodeId = nodeId ∧
      t.subscription.port = port) ↔
    client ∈ w.connected ∧ (nodeId,port) ∈ w.pairs client
  groups : ∀ key group, s.groups.lookup key = some group → ∀ t ∈ group, ∀ u ∈ group,
    t.subscription.nodeId = u.subscription.nodeId ∧ t.subscription.port = u.subscription.port

/-- A client subscribes to one pair at a time, ends the pair it holds, and no two held
pairs have one key. -/
def Calm (w : Wishes) : Event → Prop
  | .control client payload =>
    match readControl payload with
    | .subscribe sub =>
      (∀ pair ∈ w.pairs client, pair = (sub.nodeId,sub.port)) ∧
      ∀ other, ∀ pair ∈ w.pairs other,
        thumbnailKey pair.1 pair.2 = thumbnailKey sub.nodeId sub.port →
          pair = (sub.nodeId,sub.port)
    | .unsubscribe named => ∀ pair ∈ w.pairs client, named = some pair
    | .other => True
  | _ => True

def CalmRun (events : List Event) : Prop :=
  ∀ past e rest, events = past ++ e :: rest → Calm (wishes past) e

/-! ### Groups -/

theorem addTarget_lookup (groups : AList (fun _ : String => List Target)) (t : Target)
    (key : String) : ((addTarget groups t).lookup key).getD [] =
      (groups.lookup key).getD [] ++ [t].filter (fun t => decide (groupKey t = key)) := by
  unfold addTarget
  by_cases h : groupKey t = key
  · subst h
    rw [AList.lookup_insert]
    simp
  · rw [AList.lookup_insert_ne (Ne.symm h)]
    simp [h]

theorem foldl_addTarget (ts : List Target) (groups : AList (fun _ : String => List Target))
    (key : String) : ((ts.foldl addTarget groups).lookup key).getD [] =
      (groups.lookup key).getD [] ++ ts.filter (fun t => decide (groupKey t = key)) := by
  induction ts generalizing groups with
  | nil => simp
  | cons t ts ih =>
    rw [List.foldl_cons, ih, addTarget_lookup, List.append_assoc, ← List.filter_append,
      List.singleton_append]

/-- A group has the targets of its key. -/
theorem mem_group {s : EditorServer} {key : String} {group : List Target} {t : Target}
    (h : s.groups.lookup key = some group) : t ∈ group ↔ t ∈ s.targets ∧ groupKey t = key := by
  have hgroup := foldl_addTarget s.targets ∅ key
  change (s.groups.lookup key).getD [] = _ at hgroup
  rw [h] at hgroup
  simp only [Option.getD_some, AList.lookup_empty, Option.getD_none, List.nil_append] at hgroup
  rw [hgroup]
  simp

theorem mem_targets {s : EditorServer} {t : Target} :
    t ∈ s.targets ↔
      s.thumbnailSubscriptions.lookup t.client = some t.subscription ∧ t.client ∈ s.wsClients := by
  simp only [targets, List.mem_filter, List.mem_map, decide_eq_true_eq]
  refine and_congr_left (fun _ => ?_)
  constructor
  · rintro ⟨e,he,rfl⟩
    exact AList.mem_lookup_iff.mpr he
  · intro h
    exact ⟨⟨t.client,t.subscription⟩,AList.mem_lookup_iff.mp h,rfl⟩

/-! ### Calm runs -/

/-- The server holds the one pair a client wants, and keys tell the wanted pairs apart. -/
structure Kept (s : EditorServer) (w : Wishes) : Prop where
  online : ∀ client, client ∈ s.wsClients ↔ client ∈ w.connected
  held : ∀ client pair, pair ∈ w.pairs client ↔
    ∃ sub, s.thumbnailSubscriptions.lookup client = some sub ∧ pair = (sub.nodeId,sub.port)
  apart : ∀ c d, ∀ p ∈ w.pairs c, ∀ q ∈ w.pairs d,
    thumbnailKey p.1 p.2 = thumbnailKey q.1 q.2 → p = q

theorem Kept.served {s : EditorServer} {w : Wishes} (h : Kept s w) : Served s w := by
  constructor
  · intro client nodeId port
    rw [← h.online, h.held]
    constructor
    · rintro ⟨t,ht,rfl,rfl,rfl⟩
      obtain ⟨hlook,hon⟩ := mem_targets.mp ht
      exact ⟨hon,t.subscription,hlook,rfl⟩
    · rintro ⟨hon,sub,hlook,hpair⟩
      obtain ⟨rfl,rfl⟩ := Prod.mk.inj hpair
      exact ⟨⟨client,sub⟩,mem_targets.mpr ⟨hlook,hon⟩,rfl,rfl,rfl⟩
  · intro key group hg t ht u hu
    obtain ⟨ht,htk⟩ := (mem_group hg).mp ht
    obtain ⟨hu,huk⟩ := (mem_group hg).mp hu
    have htp := (h.held t.client _).mpr ⟨t.subscription,(mem_targets.mp ht).1,rfl⟩
    have hup := (h.held u.client _).mpr ⟨u.subscription,(mem_targets.mp hu).1,rfl⟩
    exact Prod.mk.inj (h.apart t.client u.client _ htp _ hup (htk.trans huk.symm))

theorem kept_start : Kept {} {} where
  online := by simp
  held := by simp
  apart := by simp

/-- Taking wishes away keeps the rest apart. -/
theorem Kept.erase {s t : EditorServer} {w v : Wishes} {client : Client} (h : Kept s w)
    (hs : t.thumbnailSubscriptions = s.thumbnailSubscriptions.erase client)
    (hv : v.pairs = Function.update w.pairs client ∅)
    (hon : ∀ c, c ∈ t.wsClients ↔ c ∈ v.connected) : Kept t v := by
  have hle : ∀ c, v.pairs c ⊆ w.pairs c := by
    intro c
    rw [hv]
    by_cases hc : c = client
    · subst hc
      rw [Function.update_self]
      exact Finset.empty_subset _
    · rw [Function.update_of_ne hc]
  refine ⟨hon,?_,fun c d p hp q hq => h.apart c d p (hle c hp) q (hle d hq)⟩
  intro c pair
  rw [hs, hv]
  by_cases hc : c = client
  · subst hc
    rw [Function.update_self, AList.lookup_erase]
    simp
  · rw [Function.update_of_ne hc, AList.lookup_erase_ne hc]
    exact h.held c pair

theorem Kept.subscribe {s : EditorServer} {w : Wishes} {client : Client}
    {sub : ThumbnailSubscription} (h : Kept s w)
    (hone : ∀ pair ∈ w.pairs client, pair = (sub.nodeId,sub.port))
    (hkey : ∀ other, ∀ pair ∈ w.pairs other,
      thumbnailKey pair.1 pair.2 = thumbnailKey sub.nodeId sub.port →
        pair = (sub.nodeId,sub.port)) :
    Kept { s with thumbnailSubscriptions := s.thumbnailSubscriptions.insert client sub }
      { w with
        pairs := Function.update w.pairs client
          (insert (sub.nodeId,sub.port) (w.pairs client)) } := by
  have hpairs : ∀ c, ∀ pair ∈ Function.update w.pairs client
      (insert (sub.nodeId,sub.port) (w.pairs client)) c,
      pair = (sub.nodeId,sub.port) ∨ pair ∈ w.pairs c := by
    intro c pair hp
    by_cases hc : c = client
    · subst hc
      rw [Function.update_self, Finset.mem_insert] at hp
      exact hp
    · rw [Function.update_of_ne hc] at hp
      exact .inr hp
  refine ⟨h.online,?_,?_⟩
  · intro c pair
    dsimp only
    by_cases hc : c = client
    · subst hc
      rw [Function.update_self, AList.lookup_insert, Finset.mem_insert]
      constructor
      · rintro (hp | hp)
        · exact ⟨sub,rfl,hp⟩
        · exact ⟨sub,rfl,hone pair hp⟩
      · rintro ⟨sub',hsub,hp⟩
        obtain rfl := Option.some.inj hsub
        exact .inl hp
    · rw [Function.update_of_ne hc, AList.lookup_insert_ne hc]
      exact h.held c pair
  · intro c d p hp q hq hk
    rcases hpairs c p hp with rfl | hp
    · rcases hpairs d q hq with rfl | hq
      · rfl
      · exact (hkey d q hq hk.symm).symm
    · rcases hpairs d q hq with rfl | hq
      · exact hkey c p hp hk
      · exact h.apart c d p hp q hq hk

theorem Kept.unsubscribe {s : EditorServer} {w : Wishes} {client : Client}
    {named : Option (String × String)} (h : Kept s w)
    (hnamed : ∀ pair ∈ w.pairs client, named = some pair) :
    Kept { s with thumbnailSubscriptions := s.thumbnailSubscriptions.erase client }
      { w with
        pairs := Function.update w.pairs client
          ((w.pairs client).filter (fun pair => named ≠ some pair)) } := by
  have hempty : (w.pairs client).filter (fun pair => named ≠ some pair) = ∅ :=
    Finset.filter_eq_empty_iff.mpr (fun pair hp => not_not.mpr (hnamed pair hp))
  rw [hempty]
  exact h.erase rfl rfl h.online

theorem Kept.same {s t : EditorServer} {w : Wishes} (h : Kept s w)
    (hs : t.thumbnailSubscriptions = s.thumbnailSubscriptions) (hc : t.wsClients = s.wsClients) :
    Kept t w := by
  refine ⟨?_,?_,h.apart⟩
  · rw [hc]
    exact h.online
  · rw [hs]
    exact h.held

theorem kept_control {s : EditorServer} {w : Wishes} {client : Client} {payload : Json}
    (h : Kept s w) (hc : Calm w (.control client payload)) :
    Kept (afterControl s client (readControl payload)) (wish w (.control client payload)) := by
  simp only [Calm, wish] at hc ⊢
  cases hr : readControl payload with
  | subscribe sub =>
    rw [hr] at hc
    exact h.subscribe hc.1 hc.2
  | unsubscribe named =>
    rw [hr] at hc
    exact h.unsubscribe hc
  | other => exact h

theorem kept_step (encode : UInt32 → List UInt8) {s : EditorServer} {w : Wishes} {e : Event}
    (h : Kept s w) (hc : Calm w e) : Kept (step encode s e) (wish w e) := by
  cases e with
  | run now => exact h.same rfl rfl
  | replace pipeline =>
    cases hr : s.replaceActivePipeline pipeline with
    | error e =>
      simp only [step, hr, orSame, wish]
      exact h
    | ok t =>
      simp only [step, hr, orSame, wish, replace_ok hr]
      exact h.same rfl rfl
  | get runId => exact h
  | opened client =>
    refine ⟨fun c => ?_,h.held,h.apart⟩
    simp only [step, openClient, wish, List.mem_insert_iff, Finset.mem_insert, h.online c]
  | closed client =>
    refine h.erase rfl rfl (fun c => ?_)
    simp only [step, closeClient, wish, List.mem_filter, Finset.mem_erase, h.online c,
      decide_eq_true_eq]
    exact and_comm
  | control client payload =>
    have hkept := kept_control h hc
    rcases control_cases s client payload with ⟨pipeline,heq,hother⟩ | heq
    · rw [step, heq]
      rw [hother] at hkept
      exact hkept.same rfl rfl
    · rw [step, heq]
      exact hkept

theorem CalmRun.init {events : List Event} {e : Event} (h : CalmRun (events ++ [e])) :
    CalmRun events ∧ Calm (wishes events) e := by
  constructor
  · intro past e' rest hsplit
    exact h past e' (rest ++ [e]) (by rw [hsplit, List.append_assoc, List.cons_append])
  · exact h events e [] rfl

theorem calmRun_kept (encode : UInt32 → List UInt8) {events : List Event} (h : CalmRun events) :
    Kept (server encode events) (wishes events) := by
  induction events using List.reverseRecOn with
  | nil => exact kept_start
  | append_singleton events e ih =>
    obtain ⟨hrun,hcalm⟩ := h.init
    rw [server, wishes, List.foldl_append, List.foldl_append]
    exact kept_step encode (ih hrun) hcalm

/-- In a calm run every push serves the wishes of the clients. -/
theorem calm_run_served (encode : UInt32 → List UInt8) (events : List Event)
    (h : CalmRun events) (past rest : List Event) (hsplit : events = past ++ rest) :
    Served (server encode past) (wishes past) := by
  have hpast : CalmRun past := by
    intro first e more hfirst
    exact h first e (more ++ rest) (by rw [hsplit, hfirst, List.append_assoc, List.cons_append])
  exact (calmRun_kept encode hpast).served

def subscribeFrame (nodeId port : String) : Json :=
  .object [("type",.string "node.subscribe_thumbnail"),("node_id",.string nodeId),
    ("port",.string port)]

def unsubscribeFrame (nodeId port : String) : Json :=
  .object [("type",.string "node.unsubscribe_thumbnail"),("node_id",.string nodeId),
    ("port",.string port)]

theorem calmRun_concat {past : List Event} {e : Event} (h : CalmRun past)
    (he : Calm (wishes past) e) : CalmRun (past ++ [e]) := by
  intro before x rest hsplit
  rcases List.eq_nil_or_concat rest with rfl | ⟨more,last,rfl⟩
  · obtain ⟨rfl,hlast⟩ := List.append_inj' hsplit rfl
    obtain rfl := List.singleton_inj.mp hlast
    exact he
  · rw [List.concat_eq_append, ← List.cons_append, ← List.append_assoc] at hsplit
    exact h before x more (List.append_inj' hsplit rfl).1

theorem calmRun_nil : CalmRun [] := by
  intro past e rest h
  simp at h

theorem mem_updated {pairs : Client → Finset (String × String)} {client other : Client}
    {named : Finset (String × String)} {pair : String × String}
    (h : pair ∈ Function.update pairs client named other) : pair ∈ named ∨ pair ∈ pairs other := by
  rw [Function.update_apply] at h
  split_ifs at h
  · exact .inl h
  · exact .inr h

/-- Two clients look at one node, and one of them turns to another. -/
def twoClients : List Event :=
  [.opened 7,.opened 8,.control 7 (subscribeFrame "tone" "rgb"),
    .control 8 (subscribeFrame "tone" "rgb"),.control 7 (unsubscribeFrame "tone" "rgb"),
    .control 7 (subscribeFrame "wb" "rgb")]

theorem calm_run_served_two :
    CalmRun twoClients ∧ Served (server (fun _ => []) twoClients) (wishes twoClients) := by
  have hopened : CalmRun [.opened 7,.opened 8] :=
    calmRun_concat (show CalmRun ([] ++ [.opened 7]) from calmRun_concat calmRun_nil trivial) trivial
  have hfirst : CalmRun (twoClients.take 3) :=
    calmRun_concat hopened ⟨by decide,fun _ _ h => absurd h (Finset.notMem_empty _)⟩
  have hsecond : CalmRun (twoClients.take 4) := by
    refine calmRun_concat hfirst ⟨by decide,fun other pair h _ => ?_⟩
    rcases mem_updated h with h | h
    · exact Finset.mem_singleton.mp h
    · exact absurd h (Finset.notMem_empty _)
  have hone : ∀ pair ∈ (wishes (twoClients.take 4)).pairs 7, some ("tone","rgb") = some pair := by
    decide
  have hended : CalmRun (twoClients.take 5) := calmRun_concat hsecond hone
  have hcalm : CalmRun twoClients := by
    refine calmRun_concat hended ⟨by decide,fun other pair h hkey => ?_⟩
    rcases mem_updated h with h | h
    · obtain ⟨hin,hne⟩ := Finset.mem_filter.mp h
      exact absurd (hone pair hin) hne
    · rcases mem_updated h with h | h
      · rw [Finset.mem_singleton.mp h] at hkey
        exact absurd hkey (by decide)
      · rcases mem_updated h with h | h
        · rw [Finset.mem_singleton.mp h] at hkey
          exact absurd hkey (by decide)
        · exact absurd h (Finset.notMem_empty _)
  exact ⟨hcalm,calm_run_served (fun _ => []) _ hcalm _ [] (List.append_nil _).symm⟩

/-- The second subscription of a client ends its first, and two nodes whose names carry a
line break come into one group. -/
theorem subscriptions_lost :
    ¬ Served (server (fun _ => []) [.opened 7,.control 7 (subscribeFrame "tone" "rgb"),
        .control 7 (subscribeFrame "wb" "rgb")])
      (wishes [.opened 7,.control 7 (subscribeFrame "tone" "rgb"),
        .control 7 (subscribeFrame "wb" "rgb")]) ∧
    ¬ Served (server (fun _ => []) [.opened 7,.opened 8,
        .control 7 (subscribeFrame "a" "b\nc"),.control 8 (subscribeFrame "a\nb" "c")])
      (wishes [.opened 7,.opened 8,.control 7 (subscribeFrame "a" "b\nc"),
        .control 8 (subscribeFrame "a\nb" "c")]) := by
  constructor
  · intro h
    have hwish := (h.targets 7 "tone" "rgb").mpr (by decide)
    exact absurd hwish (by decide)
  · intro h
    have hsame := h.groups "a\nb\nc" [⟨8,⟨"a\nb","c",256,5⟩⟩,⟨7,⟨"a","b\nc",256,5⟩⟩] (by decide)
      ⟨8,⟨"a\nb","c",256,5⟩⟩ (by decide) ⟨7,⟨"a","b\nc",256,5⟩⟩ (by decide)
    exact absurd hsame.1 (by decide)

end Cpipe.Proofs.Thumbnails
