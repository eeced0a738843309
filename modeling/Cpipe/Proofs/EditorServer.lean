import Cpipe.Library.Checked
import Cpipe.Server.EditorServer

namespace Cpipe.Proofs.EditorServer
open Cpipe.Server Cpipe.Server.EditorServer Library

/-! ### Replacement and parameter updates -/

theorem replace_ok {s t : EditorServer} {pipeline : Json}
    (h : s.replaceActivePipeline pipeline = .ok t) :
    t = { s with
      activePipeline := pipeline
      runs := ∅
      nextRunId := 1
      thumbnailLastEmit := ∅ } := by
  unfold replaceActivePipeline at h
  split at h
  · split at h
    · cases h
    · split at h
      · cases h
      · cases h
        rfl
  · cases h

theorem map_ok {α β : Type} {x : Except Refusal α} {f : α → β} {b : β} (h : x.map f = .ok b) :
    ∃ a, x = .ok a ∧ f a = b := by
  cases x with
  | error e => cases h
  | ok a => exact ⟨a,rfl,Except.ok.inj h⟩

theorem updateActive_ok {s t : EditorServer} {nodeId key : String} {value : Json}
    (h : s.updateActive nodeId key value = .ok t) :
    ∃ pipeline, t = { s with activePipeline := pipeline } := by
  unfold updateActive at h
  split at h
  · cases h
  · split at h
    · cases h
    · obtain ⟨_,_,rfl⟩ := map_ok h
      exact ⟨_,rfl⟩
  · cases h

/-- A parameter update changes the pipeline and nothing else. -/
theorem applyParamDelta_ok {s t : EditorServer} {delta : Json}
    (h : s.applyParamDelta delta = .ok t) :
    ∃ pipeline, t = { s with activePipeline := pipeline } := by
  unfold applyParamDelta at h
  split at h
  · split at h
    · split at h
      · cases h
      · obtain ⟨_,_,h⟩ := Checked.bind_ok.mp h
        obtain ⟨_,_,h⟩ := Checked.bind_ok.mp h
        exact updateActive_ok h
    · cases h
  · cases h

/-! ### Thumbnail controls -/

/-- A control frame as the protocol reads it. An unsubscribe names the pair it ends. -/
inductive Control where
  | subscribe (subscription : ThumbnailSubscription)
  | unsubscribe (named : Option (String × String))
  | other

def namedPair (fields : Params) : Option (String × String) :=
  match textAt fields "node_id", textAt fields "port" with
  | .ok nodeId, .ok port => some (nodeId,port)
  | _, _ => none

def readControl : Json → Control
  | .object fields =>
    match textValue (.object fields) "type" with
    | .ok type =>
      if type = "node.unsubscribe_thumbnail" then .unsubscribe (namedPair fields)
      else if type = "node.subscribe_thumbnail" then
        match requestedSubscription fields with
        | .ok subscription => .subscribe subscription
        | .error _ => .other
      else .other
    | .error _ => .other
  | _ => .other

theorem textAt_contains {fields : Params} {key text : String}
    (h : textAt fields key = .ok text) : containsKey (.object fields) key = true := by
  unfold textAt at h
  change (Params.lookup fields key).isSome = true
  cases hl : Params.lookup fields key with
  | none => simp [hl] at h
  | some value => rfl

theorem requested_contains {fields : Params} {sub : ThumbnailSubscription}
    (h : requestedSubscription fields = .ok sub) :
    containsKey (.object fields) "node_id" = true ∧ containsKey (.object fields) "port" = true := by
  obtain ⟨_,hnode,h⟩ := Checked.bind_ok.mp h
  obtain ⟨_,hport,_⟩ := Checked.bind_ok.mp h
  exact ⟨textAt_contains hnode,textAt_contains hport⟩

/-- The subscriptions after a control frame. -/
def afterControl (s : EditorServer) (client : Client) : Control → EditorServer
  | .subscribe sub =>
    { s with thumbnailSubscriptions := s.thumbnailSubscriptions.insert client sub }
  | .unsubscribe _ =>
    { s with thumbnailSubscriptions := s.thumbnailSubscriptions.erase client }
  | .other => s

/-- The server keeps one subscription for each client and ends it whatever an unsubscribe
names. -/
theorem applyThumbnailControl_eq (s : EditorServer) (client : Client) (payload : Json) :
    s.orSame (s.applyThumbnailControl client payload) =
      afterControl s client (readControl payload) := by
  cases payload with
  | object fields =>
    cases ht : textValue (.object fields) "type" with
    | error e => simp only [applyThumbnailControl, ht, readControl]; rfl
    | ok type =>
      have hread : s.applyThumbnailControl client (.object fields) =
          if type = "node.unsubscribe_thumbnail" then
            .ok (afterControl s client (.unsubscribe none))
          else if type ≠ "node.subscribe_thumbnail" ∨ !containsKey (.object fields) "node_id" ∨
              !containsKey (.object fields) "port" then
            .error (refuse "expected thumbnail subscribe/unsubscribe control")
          else do
            let sub ← requestedSubscription fields
            return afterControl s client (.subscribe sub) := by
        simp only [applyThumbnailControl, ht]
        rfl
      rw [hread]
      simp only [readControl, ht]
      by_cases hun : type = "node.unsubscribe_thumbnail"
      · rw [if_pos hun, if_pos hun]
        rfl
      · rw [if_neg hun, if_neg hun]
        by_cases hsub : type = "node.subscribe_thumbnail"
        · rw [if_pos hsub]
          cases hr : requestedSubscription fields with
          | error e =>
            split
            · rfl
            · rfl
          | ok sub =>
            obtain ⟨hnode,hport⟩ := requested_contains hr
            rw [if_neg (by simp [hsub, hnode, hport])]
            rfl
        · rw [if_pos (.inl hsub), if_neg hsub]
          rfl
  | _ => rfl

/-- A control frame changes the pipeline or the subscription of its client. -/
theorem control_cases (s : EditorServer) (client : Client) (payload : Json) :
    (∃ pipeline, s.orSame (s.onControl client payload) = { s with activePipeline := pipeline } ∧
      readControl payload = .other) ∨
    s.orSame (s.onControl client payload) = afterControl s client (readControl payload) := by
  cases payload with
  | object fields =>
    cases ht : textValue (.object fields) "type" with
    | error e =>
      refine .inl ⟨s.activePipeline,?_,?_⟩
      · simp only [onControl, ht]
        rfl
      · simp only [readControl, ht]
    | ok type =>
      have hread : s.onControl client (.object fields) =
          if type = "node.update_param" then s.applyParamDelta (.object fields)
          else if type = "node.subscribe_thumbnail" ∨ type = "node.unsubscribe_thumbnail" then
            s.applyThumbnailControl client (.object fields)
          else .ok s := by
        simp only [onControl, ht]
        rfl
      rw [hread]
      by_cases hp : type = "node.update_param"
      · have hother : readControl (.object fields) = .other := by
          simp [readControl, ht, hp]
        rw [if_pos hp]
        cases hd : s.applyParamDelta (.object fields) with
        | error e => exact .inl ⟨s.activePipeline,rfl,hother⟩
        | ok t =>
          obtain ⟨pipeline,rfl⟩ := applyParamDelta_ok hd
          exact .inl ⟨pipeline,rfl,hother⟩
      · rw [if_neg hp]
        by_cases hth : type = "node.subscribe_thumbnail" ∨ type = "node.unsubscribe_thumbnail"
        · rw [if_pos hth]
          exact .inr (applyThumbnailControl_eq s client (.object fields))
        · rw [if_neg hth]
          obtain ⟨hsub,hun⟩ := not_or.mp hth
          refine .inl ⟨s.activePipeline,rfl,?_⟩
          simp [readControl, ht, hsub, hun]
  | _ => exact .inl ⟨s.activePipeline,rfl,rfl⟩

end Cpipe.Proofs.EditorServer
