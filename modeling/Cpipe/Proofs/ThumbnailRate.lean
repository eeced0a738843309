import Cpipe.Library.RateLimit
import Cpipe.Proofs.Thumbnails

namespace Cpipe.Proofs.ThumbnailRate
open Cpipe.Server Cpipe.Server.EditorServer Cpipe.Proofs.EditorServer Cpipe.Proofs.Thumbnails
open Library.RateLimit

variable {encode : UInt32 → List UInt8} {s : EditorServer} {key nodeId port : String}

/-! ### One push -/

def interval (group : List Target) : Nat :=
  1000 / (effectiveFps group).toNat * 1000000

def image (encode : UInt32 → List UInt8) (group : List Target) : List UInt8 :=
  encode (greatest (group.map (fun t => t.subscription.maxSize)))

def frames (encode : UInt32 → List UInt8) (group : List Target) : List (Client × List UInt8) :=
  if (image encode group).isEmpty then [] else group.map (fun t => (t.client,image encode group))

/-- The interval since the last emission is over. -/
def due (last : Option Nat) (now wait : Nat) : Bool :=
  match last with
  | some t => !decide (now - t < wait)
  | none => true

theorem due_some {t now wait : Nat} (hwait : 0 < wait) :
    due (some t) now wait = true ↔ t + wait ≤ now := by
  simp only [due, Bool.not_eq_true', decide_eq_false_iff_not]
  omega

theorem pushGroup_eq (now : Nat)
    (state : AList (fun _ : String => Nat) × List (Client × List UInt8)) (key : String)
    (group : List Target) : pushGroup encode now state key group =
      if due (state.1.lookup key) now (interval group) then
        (state.1.insert key now,state.2 ++ frames encode group)
      else state := by
  have hemit : pushGroup.emit encode now state key group =
      (state.1.insert key now,state.2 ++ frames encode group) := by
    unfold pushGroup.emit frames image
    dsimp only
    split <;> simp
  unfold pushGroup due
  cases hl : state.1.lookup key with
  | none => simpa using hemit
  | some t =>
    dsimp only [interval]
    by_cases hwait : now - t < 1000 / (effectiveFps group).toNat * 1000000
    · simp [hwait]
    · rw [if_neg hwait, hemit]
      simp [hwait]

/-- The loop of a push over the groups. -/
def pushAll (encode : UInt32 → List UInt8) (now : Nat)
    (state : AList (fun _ : String => Nat) × List (Client × List UInt8))
    (entries : List (Sigma (fun _ : String => List Target))) :
    AList (fun _ : String => Nat) × List (Client × List UInt8) :=
  entries.foldl (fun state e => pushGroup encode now state e.1 e.2) state

section Loop
variable {now : Nat} {state : AList (fun _ : String => Nat) × List (Client × List UInt8)}
  {entries : List (Sigma (fun _ : String => List Target))} {group : List Target}

theorem pushGroup_lookup : (pushGroup encode now state key group).1.lookup key =
    if due (state.1.lookup key) now (interval group) then some now else state.1.lookup key := by
  rw [pushGroup_eq]
  split
  · exact AList.lookup_insert _
  · rfl

theorem pushGroup_lookup_ne {other : String} (h : key ≠ other) :
    (pushGroup encode now state other group).1.lookup key = state.1.lookup key := by
  rw [pushGroup_eq]
  split
  · exact AList.lookup_insert_ne h
  · rfl

theorem pushAll_lookup_notMem (h : key ∉ entries.keys) :
    (pushAll encode now state entries).1.lookup key = state.1.lookup key := by
  induction entries generalizing state with
  | nil => rfl
  | cons e entries ih =>
    simp only [List.keys_cons, List.mem_cons, not_or] at h
    change (pushAll encode now (pushGroup encode now state e.1 e.2) entries).1.lookup key = _
    rw [ih h.2, pushGroup_lookup_ne h.1]

theorem pushAll_lookup (hkeys : entries.NodupKeys) (h : ⟨key,group⟩ ∈ entries) :
    (pushAll encode now state entries).1.lookup key =
      if due (state.1.lookup key) now (interval group) then some now
      else state.1.lookup key := by
  induction entries generalizing state with
  | nil => simp at h
  | cons e entries ih =>
    obtain ⟨hnew,hrest⟩ := List.nodupKeys_cons.mp hkeys
    change (pushAll encode now (pushGroup encode now state e.1 e.2) entries).1.lookup key = _
    rcases List.mem_cons.mp h with rfl | h
    · rw [pushAll_lookup_notMem hnew, pushGroup_lookup]
    · have hne : key ≠ e.1 := by
        intro he
        exact hnew (he ▸ List.mem_keys_of_mem h)
      rw [ih hrest h, pushGroup_lookup_ne hne]

/-- Every key is touched once, so each group is judged by what was there before the push. -/
theorem pushAll_frames (hkeys : entries.NodupKeys) :
    (pushAll encode now state entries).2 = state.2 ++ entries.flatMap (fun e =>
      if due (state.1.lookup e.1) now (interval e.2) then frames encode e.2 else []) := by
  induction entries generalizing state with
  | nil => exact (List.append_nil _).symm
  | cons e entries ih =>
    obtain ⟨hnew,hrest⟩ := List.nodupKeys_cons.mp hkeys
    change (pushAll encode now (pushGroup encode now state e.1 e.2) entries).2 = _
    have hsame : entries.flatMap (fun f =>
          if due ((pushGroup encode now state e.1 e.2).1.lookup f.1) now (interval f.2) then
            frames encode f.2 else []) =
        entries.flatMap (fun f =>
          if due (state.1.lookup f.1) now (interval f.2) then frames encode f.2 else []) := by
      refine List.flatMap_congr (fun f hf => ?_)
      have hne : f.1 ≠ e.1 := by
        intro he
        exact hnew (he ▸ List.mem_keys_of_mem hf)
      rw [pushGroup_lookup_ne hne]
    rw [ih hrest, hsame, List.flatMap_cons, ← List.append_assoc, pushGroup_eq]
    split <;> simp

end Loop

/-! ### The targets under one key -/

/-- The targets the server takes for one port: those under its key. -/
def sharing (s : EditorServer) (key : String) : List Target :=
  s.targets.filter (fun t => decide (groupKey t = key))

/-- The connected clients subscribed to one port. -/
def subscribers (s : EditorServer) (nodeId port : String) : List Target :=
  s.targets.filter (fun t => decide (t.subscription.nodeId = nodeId ∧ t.subscription.port = port))

theorem groups_lookup : (s.groups.lookup key).getD [] = sharing s key := by
  have hgroup := foldl_addTarget s.targets ∅ key
  rw [AList.lookup_empty, Option.getD_none, List.nil_append] at hgroup
  exact hgroup

theorem addTarget_ne_nil {groups : AList (fun _ : String => List Target)} {t : Target}
    (h : ∀ key group, groups.lookup key = some group → group ≠ []) :
    ∀ key group, (addTarget groups t).lookup key = some group → group ≠ [] := by
  intro key group hg
  unfold addTarget at hg
  by_cases hk : key = groupKey t
  · subst hk
    rw [AList.lookup_insert] at hg
    obtain rfl := Option.some.inj hg
    simp
  · rw [AList.lookup_insert_ne hk] at hg
    exact h key group hg

theorem groups_ne_nil {group : List Target} (h : s.groups.lookup key = some group) :
    group ≠ [] := by
  have hall : ∀ (ts : List Target) (groups : AList (fun _ : String => List Target)),
      (∀ key group, groups.lookup key = some group → group ≠ []) →
      ∀ key group, (ts.foldl addTarget groups).lookup key = some group → group ≠ [] := by
    intro ts
    induction ts with
    | nil => exact fun _ h => h
    | cons t ts ih => exact fun _ h => ih _ (addTarget_ne_nil h)
  exact hall s.targets ∅ (by simp) key group h

theorem groups_eq {group : List Target} (h : s.groups.lookup key = some group) :
    group = sharing s key := by
  rw [← groups_lookup, h, Option.getD_some]

theorem groups_of_mem {t : Target} (h : t ∈ sharing s key) :
    s.groups.lookup key = some (sharing s key) := by
  cases hg : s.groups.lookup key with
  | none =>
    have hempty : sharing s key = [] := by rw [← groups_lookup, hg, Option.getD_none]
    rw [hempty] at h
    cases h
  | some group => rw [groups_eq hg]

theorem subscribers_subset {t : Target} (h : t ∈ subscribers s nodeId port) :
    t ∈ sharing s (thumbnailKey nodeId port) := by
  obtain ⟨htarget,hpair⟩ := List.mem_filter.mp h
  obtain ⟨rfl,rfl⟩ := of_decide_eq_true hpair
  exact List.mem_filter.mpr ⟨htarget,decide_eq_true rfl⟩

theorem push_lookup (encode : UInt32 → List UInt8) (now : Nat) (s : EditorServer) (key : String) :
    (pushThumbnailFrames encode now s).1.thumbnailLastEmit.lookup key =
      if sharing s key ≠ [] ∧
          due (s.thumbnailLastEmit.lookup key) now (interval (sharing s key)) = true then some now
      else s.thumbnailLastEmit.lookup key := by
  change (pushAll encode now (s.thumbnailLastEmit,[]) s.groups.entries).1.lookup key = _
  cases hg : s.groups.lookup key with
  | none =>
    have hnew : key ∉ s.groups.entries.keys :=
      fun h => by simpa [hg] using AList.lookup_isSome.mpr h
    have hempty : sharing s key = [] := by rw [← groups_lookup, hg, Option.getD_none]
    rw [pushAll_lookup_notMem hnew, hempty]
    simp
  | some group =>
    have hne := groups_ne_nil hg
    rw [pushAll_lookup s.groups.nodupKeys (AList.mem_lookup_iff.mp hg), ← groups_eq hg]
    simp [hne]

/-- The push sends a frame to a subscriber of the port. -/
def emits (encode : UInt32 → List UInt8) (now : Nat) (s : EditorServer) (nodeId port : String) :
    Bool :=
  (pushThumbnailFrames encode now s).2.any (fun frame =>
    (subscribers s nodeId port).any (fun t => decide (t.client = frame.1)))

theorem emits_iff {now : Nat} : emits encode now s nodeId port = true ↔
    subscribers s nodeId port ≠ [] ∧ image encode (sharing s (thumbnailKey nodeId port)) ≠ [] ∧
      due (s.thumbnailLastEmit.lookup (thumbnailKey nodeId port)) now
        (interval (sharing s (thumbnailKey nodeId port))) = true := by
  have hframes : (pushThumbnailFrames encode now s).2 = s.groups.entries.flatMap (fun e =>
      if due (s.thumbnailLastEmit.lookup e.1) now (interval e.2) then frames encode e.2 else []) :=
    pushAll_frames s.groups.nodupKeys
  simp only [emits, hframes, List.any_eq_true, List.mem_flatMap, decide_eq_true_eq]
  constructor
  · rintro ⟨frame,⟨e,he,hframe⟩,t,ht,hclient⟩
    have hg : s.groups.lookup e.1 = some e.2 := AList.mem_lookup_iff.mpr he
    have hdue : due (s.thumbnailLastEmit.lookup e.1) now (interval e.2) = true := by
      by_contra hnot
      rw [if_neg hnot] at hframe
      cases hframe
    rw [if_pos hdue, frames] at hframe
    have himage : image encode e.2 ≠ [] := by
      intro hempty
      simp [hempty] at hframe
    rw [if_neg (by simpa using himage)] at hframe
    obtain ⟨u,hu,rfl⟩ := List.mem_map.mp hframe
    -- a client has one subscription, so the frame belongs to its key
    obtain ⟨hut,huk⟩ := (mem_group hg).mp hu
    obtain ⟨htt,htp⟩ := List.mem_filter.mp ht
    obtain ⟨rfl,rfl⟩ := of_decide_eq_true htp
    have hsub : t.subscription = u.subscription := by
      have h1 := (mem_targets.mp htt).1
      have h2 := (mem_targets.mp hut).1
      rw [hclient] at h1
      exact Option.some.inj (h1.symm.trans h2)
    have hkey : thumbnailKey t.subscription.nodeId t.subscription.port = e.1 := by
      rw [hsub]
      exact huk
    rw [hkey, ← groups_eq hg]
    exact ⟨List.ne_nil_of_mem ht,himage,hdue⟩
  · rintro ⟨hsubs,himage,hdue⟩
    obtain ⟨t,ht⟩ := List.exists_mem_of_ne_nil _ hsubs
    have hmem := subscribers_subset ht
    refine ⟨(t.client,image encode (sharing s (thumbnailKey nodeId port))),
      ⟨⟨_,_⟩,AList.mem_lookup_iff.mp (groups_of_mem hmem),?_⟩,t,ht,rfl⟩
    rw [if_pos hdue, frames, if_neg (by simpa using himage)]
    exact List.mem_map.mpr ⟨t,hmem,rfl⟩

/-! ### A run of the server -/

theorem toNat_max (a b : UInt32) : (max a b).toNat = max a.toNat b.toNat := by
  change (if a ≤ b then b else a).toNat = _
  split
  · rename_i hle
    exact (Nat.max_eq_right hle).symm
  · rename_i hle
    exact (Nat.max_eq_left (Nat.le_of_not_le hle)).symm

theorem greatest_perm {values others : List UInt32} (h : values.Perm others) :
    greatest values = greatest others := by
  refine h.foldl_eq' (fun a _ b _ c => ?_) 0
  simp only [← UInt32.toNat_inj, toNat_max]
  exact Nat.max_right_comm _ _ _

theorem interval_perm {group other : List Target} (h : group.Perm other) :
    interval group = interval other := by
  rw [interval, interval, effectiveFps, effectiveFps, h.length_eq, greatest_perm (h.map _)]

theorem image_perm {group other : List Target} (h : group.Perm other) :
    image encode group = image encode other := by
  rw [image, image, greatest_perm (h.map _)]

theorem subscribers_eq : subscribers s nodeId port =
    (sharing s (thumbnailKey nodeId port)).filter
      (fun t => decide (t.subscription.nodeId = nodeId ∧ t.subscription.port = port)) := by
  rw [subscribers, sharing, List.filter_filter]
  refine List.filter_congr (fun t _ => ?_)
  by_cases h : t.subscription.nodeId = nodeId ∧ t.subscription.port = port
  · obtain ⟨rfl,rfl⟩ := h
    simp [groupKey]
  · simp [h]

/-- The time at which an event sends frames for the port. -/
def emitted (encode : UInt32 → List UInt8) (nodeId port : String) (s : EditorServer) :
    Event → List Nat
  | .run now => if emits encode now s.createRunRecord.1 nodeId port then [now] else []
  | _ => []

def emissions (encode : UInt32 → List UInt8) (nodeId port : String) (s : EditorServer) :
    List Event → List Nat
  | [] => []
  | e :: events =>
    emitted encode nodeId port s e ++ emissions encode nodeId port (step encode s e) events

def time : Event → Option Nat
  | .run now => some now
  | _ => none

/-- Pushes at non-decreasing times with anything between them that leaves the targets under
the key and the pipeline alone. -/
structure Steady (encode : UInt32 → List UInt8) (s : EditorServer) (key : String)
    (events : List Event) : Prop where
  fixed : ∀ past rest, events = past ++ rest →
    (sharing (past.foldl (step encode) s) key).Perm (sharing s key)
  noReplace : ∀ pipeline, Event.replace pipeline ∉ events
  ordered : (events.filterMap time).Pairwise (· ≤ ·)

theorem step_lastEmit (encode : UInt32 → List UInt8) {e : Event} (hrun : time e = none)
    (hreplace : ∀ p, e ≠ .replace p) :
    (step encode s e).thumbnailLastEmit = s.thumbnailLastEmit := by
  cases e with
  | run now => cases hrun
  | replace pipeline => exact absurd rfl (hreplace pipeline)
  | get | opened | closed => rfl
  | control client payload =>
    rcases control_cases s client payload with ⟨pipeline,heq,_⟩ | heq
    · rw [step, heq]
    · rw [step, heq]
      cases readControl payload <;> rfl

/-- Emissions are an interval apart from each other and from the last one before the run. -/
theorem emissions_spaced {events : List Event} {group : List Target} (hwait : 0 < interval group)
    (hfixed : ∀ past rest, events = past ++ rest →
      (sharing (past.foldl (step encode) s) (thumbnailKey nodeId port)).Perm group)
    (hreplace : ∀ pipeline, Event.replace pipeline ∉ events) :
    Spaced (interval group) (emissions encode nodeId port s events) ∧
    ∀ t ∈ emissions encode nodeId port s events, ∀ last,
      s.thumbnailLastEmit.lookup (thumbnailKey nodeId port) = some last →
        last + interval group ≤ t := by
  induction events generalizing s with
  | nil => exact ⟨.nil,by simp [emissions]⟩
  | cons e events ih =>
    obtain ⟨hspaced,hafter⟩ := ih
      (fun past rest h => hfixed (e :: past) rest (by rw [h, List.cons_append]))
      (fun pipeline h => hreplace pipeline (List.mem_cons_of_mem e h))
    cases ht : time e with
    | none =>
      have hsilent : emitted encode nodeId port s e = [] := by
        cases e with
        | run now => cases ht
        | _ => rfl
      have hkept := step_lastEmit (s := s) encode ht
        (fun p he => hreplace p (he ▸ List.mem_cons_self))
      rw [hkept] at hafter
      rw [emissions, hsilent, List.nil_append]
      exact ⟨hspaced,hafter⟩
    | some now =>
      obtain rfl : e = .run now := by
        cases e with
        | run => rw [Option.some.inj ht]
        | _ => cases ht
      have hgroup : interval (sharing s.createRunRecord.1 (thumbnailKey nodeId port)) =
          interval group := interval_perm (hfixed [] _ rfl)
      have hlook := push_lookup encode now s.createRunRecord.1 (thumbnailKey nodeId port)
      rw [hgroup] at hlook
      rw [emissions, emitted]
      by_cases hpass : sharing s.createRunRecord.1 (thumbnailKey nodeId port) ≠ [] ∧
          due (s.createRunRecord.1.thumbnailLastEmit.lookup (thumbnailKey nodeId port)) now
            (interval group) = true
      · rw [if_pos hpass] at hlook
        have hlater : ∀ t ∈ emissions encode nodeId port (step encode s (.run now)) events,
            now + interval group ≤ t := fun t hmem => hafter t hmem now hlook
        have hearlier : ∀ last, s.thumbnailLastEmit.lookup (thumbnailKey nodeId port) = some last →
            last + interval group ≤ now := by
          intro last hlast
          have hdue := hpass.2
          change due (s.thumbnailLastEmit.lookup (thumbnailKey nodeId port)) now _ = true at hdue
          rwa [hlast, due_some hwait] at hdue
        split
        · refine ⟨List.pairwise_cons.mpr ⟨hlater,hspaced⟩,?_⟩
          intro t hmem last hlast
          rcases List.mem_cons.mp hmem with rfl | hmem
          · exact hearlier last hlast
          · have h1 := hearlier last hlast
            have h2 := hlater t hmem
            omega
        · refine ⟨hspaced,fun t hmem last hlast => ?_⟩
          have h1 := hearlier last hlast
          have h2 := hlater t hmem
          omega
      · have hquiet : ¬ emits encode now s.createRunRecord.1 nodeId port = true := by
          intro hemits
          rw [emits_iff, hgroup] at hemits
          obtain ⟨t,ht⟩ := List.exists_mem_of_ne_nil _ hemits.1
          exact hpass ⟨List.ne_nil_of_mem (subscribers_subset ht),hemits.2.2⟩
        rw [if_neg hpass] at hlook
        rw [if_neg hquiet]
        exact ⟨hspaced,fun t hmem last hlast => hafter t hmem last (hlook.trans hlast)⟩

/-- Without subscribers or without an image nothing is sent. -/
theorem emissions_nil {events : List Event} {group : List Target}
    (hfixed : ∀ past rest, events = past ++ rest →
      (sharing (past.foldl (step encode) s) (thumbnailKey nodeId port)).Perm group)
    (hnone : group.filter (fun t =>
        decide (t.subscription.nodeId = nodeId ∧ t.subscription.port = port)) = [] ∨
      image encode group = []) : emissions encode nodeId port s events = [] := by
  induction events generalizing s with
  | nil => rfl
  | cons e events ih =>
    rw [emissions, ih (fun past rest h => hfixed (e :: past) rest (by rw [h, List.cons_append])),
      List.append_nil]
    cases e with
    | run now =>
      refine if_neg (fun hemits => ?_)
      obtain ⟨hsubs,himage,_⟩ := emits_iff.mp hemits
      have hperm : (sharing s.createRunRecord.1 (thumbnailKey nodeId port)).Perm group :=
        hfixed [] _ rfl
      rw [subscribers_eq] at hsubs
      rw [image_perm hperm] at himage
      refine hnone.elim (fun hempty => hsubs ?_) himage
      exact List.Perm.eq_nil (hempty ▸ hperm.filter _)
    | _ => rfl

/-- Pushes at every interval, from the time the next emission is due, all emit. -/
theorem emissions_ticks (hsubs : subscribers s nodeId port ≠ [])
    (himage : image encode (sharing s (thumbnailKey nodeId port)) ≠ []) (n : Nat) {first : Nat}
    (hfirst : ∀ last, s.thumbnailLastEmit.lookup (thumbnailKey nodeId port) = some last →
      last + interval (sharing s (thumbnailKey nodeId port)) ≤ first) :
    emissions encode nodeId port s
        ((ticks first (interval (sharing s (thumbnailKey nodeId port))) n).map .run) =
      ticks first (interval (sharing s (thumbnailKey nodeId port))) n := by
  induction n generalizing s first with
  | zero => rfl
  | succ n ih =>
    have hdue : due (s.thumbnailLastEmit.lookup (thumbnailKey nodeId port)) first
        (interval (sharing s (thumbnailKey nodeId port))) = true := by
      cases hl : s.thumbnailLastEmit.lookup (thumbnailKey nodeId port) with
      | none => rfl
      | some last =>
        have hle := hfirst last hl
        simp only [due, Bool.not_eq_true', decide_eq_false_iff_not]
        omega
    have hemits : emits encode first s.createRunRecord.1 nodeId port = true :=
      emits_iff.mpr ⟨hsubs,himage,hdue⟩
    obtain ⟨t,ht⟩ := List.exists_mem_of_ne_nil _ hsubs
    have hlook := push_lookup encode first s.createRunRecord.1 (thumbnailKey nodeId port)
    rw [if_pos ⟨List.ne_nil_of_mem (subscribers_subset ht),hdue⟩] at hlook
    rw [ticks_succ, List.map_cons, emissions, emitted, if_pos hemits, List.singleton_append]
    refine congrArg (first :: ·) (ih (s := step encode s (.run first)) hsubs himage ?_)
    intro last hlast
    obtain rfl := Option.some.inj (hlook.symm.trans hlast)
    exact Nat.le_refl _

theorem runs_keep (past : List Nat) (key : String) :
    sharing ((past.map Event.run).foldl (step encode) s) key = sharing s key := by
  induction past generalizing s with
  | nil => rfl
  | cons now past ih => exact ih (s := step encode s (.run now))

theorem steady_ticks (encode : UInt32 → List UInt8) (s : EditorServer) (key : String)
    (first wait n : Nat) : Steady encode s key ((ticks first wait n).map .run) := by
  refine ⟨?_,by simp,?_⟩
  · intro past rest h
    obtain ⟨earlier,later,_,rfl,_⟩ := List.map_eq_append_iff.mp h
    rw [runs_keep]
  · have htimes : ((ticks first wait n).map Event.run).filterMap time = ticks first wait n := by
      rw [List.filterMap_map]
      exact List.filterMap_some
    rw [htimes, ticks, List.pairwise_map]
    refine List.pairwise_lt_range.imp (fun hlt => ?_)
    exact Nat.add_le_add_left (Nat.mul_le_mul_right wait (Nat.le_of_lt hlt)) first

/-! ### The rate of a port -/

/-- Two frames a second for more than four subscribers, else the greatest rate asked for. -/
def rate (s : EditorServer) (nodeId port : String) : Nat :=
  (effectiveFps (subscribers s nodeId port)).toNat

/-- No window of 1000 ms of a run with fixed targets has more emissions than the rate. -/
def RateKept (encode : UInt32 → List UInt8) (s : EditorServer) (nodeId port : String) : Prop :=
  ∀ events, Steady encode s (thumbnailKey nodeId port) events → ∀ start,
    (window start 1000000000 (emissions encode nodeId port s events)).length ≤ rate s nodeId port

theorem rateKept_iff : RateKept encode s nodeId port ↔
    subscribers s nodeId port = [] ∨ image encode (sharing s (thumbnailKey nodeId port)) = [] ∨
      1000 ≤ rate s nodeId port *
        (1000 / (effectiveFps (sharing s (thumbnailKey nodeId port))).toNat) := by
  constructor
  · intro h
    by_contra hnot
    simp only [not_or, not_le] at hnot
    obtain ⟨hsubs,himage,hrate⟩ := hnot
    let wait := interval (sharing s (thumbnailKey nodeId port))
    let first := (s.thumbnailLastEmit.lookup (thumbnailKey nodeId port)).getD 0 + wait
    have hfirst : ∀ last, s.thumbnailLastEmit.lookup (thumbnailKey nodeId port) = some last →
        last + wait ≤ first := by
      intro last hlast
      simp [first, hlast]
    have hall := emissions_ticks hsubs himage (rate s nodeId port + 1) hfirst
    have hwide : rate s nodeId port * wait < 1000000000 := by
      dsimp only [wait, interval]
      rw [← Nat.mul_assoc]
      omega
    have hcount := h _ (steady_ticks encode s _ first wait (rate s nodeId port + 1)) first
    rw [hall, window_ticks hwide] at hcount
    simp [ticks] at hcount
  · intro h events hsteady start
    rcases h with hnone | hnone | hrate
    · rw [subscribers_eq] at hnone
      rw [emissions_nil hsteady.fixed (.inl hnone)]
      simp [window]
    · rw [emissions_nil hsteady.fixed (.inr hnone)]
      simp [window]
    · have hcover : 1000000000 ≤
          rate s nodeId port * interval (sharing s (thumbnailKey nodeId port)) := by
        rw [interval, ← Nat.mul_assoc]
        omega
      have hwait : 0 < interval (sharing s (thumbnailKey nodeId port)) := by
        refine Nat.pos_of_ne_zero (fun hzero => ?_)
        rw [hzero] at hcover
        omega
      exact (emissions_spaced hwait hsteady.fixed hsteady.noReplace).1.window_length_le hcover

theorem thumbnailKey_inj {nodeId' port' : String} (hnode : '\n' ∉ nodeId.toList)
    (hport : '\n' ∉ port.toList) (h : thumbnailKey nodeId' port' = thumbnailKey nodeId port) :
    nodeId' = nodeId ∧ port' = port := by
  have hlists : nodeId'.toList ++ '\n' :: port'.toList = nodeId.toList ++ '\n' :: port.toList := by
    simpa [thumbnailKey] using congrArg String.toList h
  rcases List.append_eq_append_iff.mp hlists with ⟨mid,hn,hp⟩ | ⟨mid,hn,hp⟩
  · cases mid with
    | nil =>
      simp only [List.append_nil, List.nil_append, List.cons.injEq, true_and] at hn hp
      exact ⟨String.toList_inj.mp hn.symm,String.toList_inj.mp hp⟩
    | cons c mid =>
      obtain ⟨rfl,_⟩ := List.cons.inj hp
      exact absurd (hn ▸ List.mem_append_right _ List.mem_cons_self) hnode
  · cases mid with
    | nil =>
      simp only [List.append_nil, List.nil_append, List.cons.injEq, true_and] at hn hp
      exact ⟨String.toList_inj.mp hn,String.toList_inj.mp hp.symm⟩
    | cons c mid =>
      obtain ⟨rfl,htail⟩ := List.cons.inj hp
      exact absurd (htail ▸ List.mem_append_right _ List.mem_cons_self) hport

/-- A key tells names without a line break apart. -/
theorem sharing_eq_subscribers (hnode : '\n' ∉ nodeId.toList) (hport : '\n' ∉ port.toList) :
    sharing s (thumbnailKey nodeId port) = subscribers s nodeId port := by
  refine List.filter_congr (fun t _ => decide_eq_decide.mpr ⟨thumbnailKey_inj hnode hport,?_⟩)
  rintro ⟨rfl,rfl⟩
  rfl

theorem covers_iff_dvd (n : Nat) : 1000 ≤ n * (1000 / n) ↔ n ∣ 1000 := by
  constructor
  · intro h
    exact ⟨1000 / n,Nat.le_antisymm h (Nat.mul_div_le 1000 n)⟩
  · intro h
    exact Nat.le_of_eq (Nat.mul_div_cancel' h).symm

/-- The limiter waits a whole number of milliseconds. The rate of a port is kept when nothing
is sent at all, or when as many waits as the rate fill a second. Where no other port has the
same key this means that the rate divides 1000. -/
theorem rate_kept_iff (encode : UInt32 → List UInt8) (s : EditorServer) (nodeId port : String) :
    (RateKept encode s nodeId port ↔
      subscribers s nodeId port = [] ∨ image encode (sharing s (thumbnailKey nodeId port)) = [] ∨
        1000 ≤ rate s nodeId port *
          (1000 / (effectiveFps (sharing s (thumbnailKey nodeId port))).toNat)) ∧
    ('\n' ∉ nodeId.toList ∧ '\n' ∉ port.toList →
      (RateKept encode s nodeId port ↔
        subscribers s nodeId port = [] ∨ image encode (subscribers s nodeId port) = [] ∨
          rate s nodeId port ∣ 1000)) := by
  refine ⟨rateKept_iff,?_⟩
  rintro ⟨hnode,hport⟩
  rw [rateKept_iff, sharing_eq_subscribers hnode hport, ← covers_iff_dvd]
  rfl

/-- One client that asks for `fps` frames of a port. -/
def watched (fps : Nat) : EditorServer :=
  server (fun _ => [1]) [.opened 7,.control 7 (.object [
    ("type",.string "node.subscribe_thumbnail"),("node_id",.string "tone"),
    ("port",.string "rgb"),("fps",.number fps)])]

/-- The default rate. -/
theorem rate_kept_five : RateKept (fun _ => [1]) (watched 5) "tone" "rgb" :=
  ((rate_kept_iff (fun _ => [1]) (watched 5) "tone" "rgb").2 (by decide)).mpr
    (.inr (.inr (by decide)))

/-- Three frames a second are asked for and four are sent, 333 ms apart. -/
theorem rate_exceeded :
    rate (watched 3) "tone" "rgb" = 3 ∧
    window 0 1000000000 (emissions (fun _ => [1]) "tone" "rgb" (watched 3)
      [.run 0,.run 333000000,.run 666000000,.run 999000000]) =
        [0,333000000,666000000,999000000] ∧
    ¬ RateKept (fun _ => [1]) (watched 3) "tone" "rgb" := by
  have hrate : rate (watched 3) "tone" "rgb" = 3 := by decide
  have hemissions : window 0 1000000000 (emissions (fun _ => [1]) "tone" "rgb" (watched 3)
      [.run 0,.run 333000000,.run 666000000,.run 999000000]) =
        [0,333000000,666000000,999000000] := by decide
  refine ⟨hrate,hemissions,fun h => ?_⟩
  have hcount := h _ (steady_ticks _ _ _ 0 333000000 4) 0
  change (window 0 1000000000 (emissions (fun _ => [1]) "tone" "rgb" (watched 3)
      [.run 0,.run 333000000,.run 666000000,.run 999000000])).length ≤ _ at hcount
  rw [hemissions, hrate] at hcount
  simp at hcount

end Cpipe.Proofs.ThumbnailRate
