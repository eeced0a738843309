import Mathlib.Data.List.Basic
import Mathlib.Data.List.Induction
import Mathlib.Logic.Relation

namespace Library.Trace

variable {σ ε : Type} {step : σ → ε → Option σ}

/-- The state after some events, if each can happen where its turn comes. -/
def run (step : σ → ε → Option σ) (s : σ) : List ε → Option σ
  | [] => some s
  | e :: es => (step s e).bind (fun t => run step t es)

theorem run_cons {s t : σ} {e : ε} {es : List ε} :
    run step s (e :: es) = some t ↔ ∃ m, step s e = some m ∧ run step m es = some t :=
  Option.bind_eq_some_iff

theorem run_append {xs ys : List ε} {s t : σ} :
    run step s (xs ++ ys) = some t ↔ ∃ m, run step s xs = some m ∧ run step m ys = some t := by
  induction xs generalizing s with
  | nil =>
    constructor
    · intro h
      exact ⟨s,rfl,h⟩
    · intro ⟨m,hm,h⟩
      cases hm
      exact h
  | cons e xs ih =>
    constructor
    · intro h
      obtain ⟨first,hstep,hrest⟩ := run_cons.mp h
      obtain ⟨m,hxs,hys⟩ := ih.mp hrest
      exact ⟨m,run_cons.mpr ⟨first,hstep,hxs⟩,hys⟩
    · intro ⟨m,hxs,hys⟩
      obtain ⟨first,hstep,hrest⟩ := run_cons.mp hxs
      exact run_cons.mpr ⟨first,hstep,ih.mpr ⟨m,hrest,hys⟩⟩

/-- What holds of a state and the events so far, and is kept by every event, holds
after every run. -/
theorem run_history {I : List ε → σ → Prop}
    (hstep : ∀ past s e t, I past s → step s e = some t → I (past ++ [e]) t)
    {es : List ε} {s t : σ} (hs : I [] s) (h : run step s es = some t) : I es t := by
  have hfrom : ∀ es past s, I past s → run step s es = some t → I (past ++ es) t := by
    intro es
    induction es with
    | nil =>
      intro past s hs h
      cases h
      rw [List.append_nil]
      exact hs
    | cons e es ih =>
      intro past s hs h
      obtain ⟨m,hm,hrest⟩ := run_cons.mp h
      have hend := ih (past ++ [e]) m (hstep past s e m hs hm) hrest
      rwa [List.append_assoc, List.singleton_append] at hend
  exact hfrom es [] s hs h

theorem run_invariant {I : σ → Prop} (hstep : ∀ s e t, I s → step s e = some t → I t)
    {es : List ε} {s t : σ} (hs : I s) (h : run step s es = some t) : I t :=
  run_history (fun _ => hstep) hs h

/-- Every event of a run meets a condition on the state before it. -/
def Throughout (step : σ → ε → Option σ) (P : σ → ε → Prop) (s : σ) (es : List ε) : Prop :=
  ∀ past e later t, es = past ++ e :: later → run step s past = some t → P t e

/-- What the events that meet a condition keep holds after every run of such events. -/
theorem run_guarded {I : σ → Prop} {P : σ → ε → Prop}
    (hstep : ∀ s e t, I s → P s e → step s e = some t → I t) {es : List ε} {s t : σ} (hs : I s)
    (hP : Throughout step P s es) (h : run step s es = some t) : I t := by
  induction es using List.reverseRecOn generalizing t with
  | nil =>
    cases h
    exact hs
  | append_singleton es e ih =>
    obtain ⟨m,hm,hlast⟩ := run_append.mp h
    obtain ⟨_,hlast,hend⟩ := run_cons.mp hlast
    cases hend
    have hbefore : Throughout step P s es := by
      intro past x later u hsplit hu
      exact hP past x (later ++ [e]) u (by rw [hsplit, List.append_assoc, List.cons_append]) hu
    exact hstep m e _ (ih hbefore hm) (hP es e [] m rfl hm) hlast

theorem Throughout.init {P : σ → ε → Prop} {s : σ} {past later : List ε}
    (h : Throughout step P s (past ++ later)) : Throughout step P s past := by
  intro first e rest t hsplit ht
  exact h first e (rest ++ later) t (by rw [hsplit, List.append_assoc, List.cons_append]) ht

theorem throughout_cons {P : σ → ε → Prop} {s : σ} {e : ε} {es : List ε} (he : P s e)
    (hes : ∀ t, step s e = some t → Throughout step P t es) : Throughout step P s (e :: es) := by
  intro past x later t hsplit ht
  cases past with
  | nil =>
    obtain ⟨rfl,_⟩ := List.cons.inj hsplit
    cases ht
    exact he
  | cons first past =>
    obtain ⟨rfl,hrest⟩ := List.cons.inj hsplit
    obtain ⟨m,hm,hrun⟩ := run_cons.mp ht
    exact hes m hm past x later t hrest hrun

theorem throughout_nil {P : σ → ε → Prop} {s : σ} : Throughout step P s [] := by
  intro past x later t hsplit
  simp at hsplit

/-- A run whose events are checked one after the other, as far as they can happen. -/
def check (step : σ → ε → Option σ) (p : σ → ε → Bool) (s : σ) : List ε → Bool
  | [] => true
  | e :: es => p s e && (step s e).all (fun t => check step p t es)

theorem throughout_of_check {P : σ → ε → Prop} {p : σ → ε → Bool}
    (hp : ∀ s e, p s e = true → P s e) {es : List ε} {s : σ} (h : check step p s es = true) :
    Throughout step P s es := by
  induction es generalizing s with
  | nil => exact throughout_nil
  | cons e es ih =>
    obtain ⟨he,hes⟩ := Bool.and_eq_true_iff.mp h
    refine throughout_cons (hp s e he) fun t ht => ih ?_
    rw [ht] at hes
    exact hes

/-- What is noted of the events of a run, each with the state it comes to. -/
def track (step : σ → ε → Option σ) (f : σ → ε → α → α) (s : σ) (a : α) : List ε → α
  | [] => a
  | e :: es =>
    match step s e with
    | none => a
    | some t => track step f t (f s e a) es

theorem track_concat {f : σ → ε → α → α} {a : α} {es : List ε} {e : ε} {s m t : σ}
    (hm : run step s es = some m) (ht : step m e = some t) :
    track step f s a (es ++ [e]) = f m e (track step f s a es) := by
  induction es generalizing s a with
  | nil =>
    cases hm
    simp [track, ht]
  | cons x es ih =>
    obtain ⟨n,hn,hrest⟩ := run_cons.mp hm
    simp only [List.cons_append, track, hn]
    exact ih hrest

/-- The last event of a kind in a run, with the state it came to. -/
def lastOf (step : σ → ε → Option σ) (p : ε → Bool) (s : σ) (es : List ε) : Option (σ × ε) :=
  track step (fun m e last => if p e then some (m,e) else last) s none es

theorem lastOf_concat {p : ε → Bool} {es : List ε} {e : ε} {s m t : σ}
    (hm : run step s es = some m) (ht : step m e = some t) :
    lastOf step p s (es ++ [e]) = if p e then some (m,e) else lastOf step p s es :=
  track_concat hm ht

/-- Steps that make a number smaller come to an end. -/
theorem exists_final {r : σ → σ → Prop} (size : σ → Nat) (hr : ∀ a b, r a b → size b < size a)
    (a : σ) : ∃ b, Relation.ReflTransGen r a b ∧ ∀ c, ¬ r b c := by
  induction hn : size a using Nat.strongRecOn generalizing a with
  | ind n ih =>
    by_cases hstep : ∃ b, r a b
    · obtain ⟨b,hb⟩ := hstep
      obtain ⟨c,hc,hfinal⟩ := ih (size b) (hn ▸ hr a b hb) b rfl
      exact ⟨c,hc.head hb,hfinal⟩
    · exact ⟨a,.refl,fun b hb => hstep ⟨b,hb⟩⟩

end Library.Trace
