import Mathlib.Data.List.Forall2
import Mathlib.Data.List.Induction
import Mathlib.Logic.Function.Basic

namespace Library.Dataflow

variable {P V : Type}

/-- A wire from an out-port to an in-port. -/
structure Wire (P : Type) where
  src : Nat
  dst : Nat
  srcPort : P
  dstPort : P

structure Graph (P : Type) where
  inPorts : Nat → List P
  wires : List (Wire P)

/-- `v` is what in-port `p` of node `i` should see: the value of every wire into
it, or the source's value when there is none. -/
def Fed (g : Graph P) (source : V) (den : Nat → P → Option V) (i : Nat) (p : P) (v : V) : Prop :=
  (∀ w ∈ g.wires, w.dst = i → w.dstPort = p → den w.src w.srcPort = some v) ∧
  ((∀ w ∈ g.wires, w.dst = i → w.dstPort ≠ p) → v = source)

/-- The values a node should see. One without in-ports looks at the source. -/
def Inputs (g : Graph P) (source : V) (den : Nat → P → Option V) (i : Nat) (vs : List V) : Prop :=
  if g.inPorts i = [] then vs = [source] else List.Forall₂ (Fed g source den i) (g.inPorts i) vs

/-- `den` gives every node's out-ports the values its function has on the
outputs of its own predecessors. -/
def Denotes (g : Graph P) (f : Nat → List V → P → Option V) (source : V) (nodes : List Nat)
    (den : Nat → P → Option V) : Prop :=
  ∀ i ∈ nodes, ∀ vs, Inputs g source den i vs → ∀ q, den i q = f i vs q

/-- A node may look at the same value on all its ports. -/
theorem inputs_replicate {g : Graph P} {source v : V} {den : Nat → P → Option V} {i : Nat} :
    Inputs g source den i (List.replicate (max (g.inPorts i).length 1) v) ↔
      (g.inPorts i = [] → v = source) ∧ ∀ p ∈ g.inPorts i, Fed g source den i p v := by
  unfold Inputs
  split
  · rename_i he
    simp [he]
  · rename_i he
    have hlen : max (g.inPorts i).length 1 = (g.inPorts i).length := by
      have := List.length_pos_iff.mpr he
      omega
    rw [hlen]
    simp only [he, false_implies, true_and]
    generalize g.inPorts i = ports
    induction ports with
    | nil => simp
    | cons p ports ih => simp [List.replicate_succ, ih]

section Evaluate
variable [DecidableEq P]

/-- The value on an in-port, read off the first wire into it. -/
def fedValue (g : Graph P) (source : V) (den : Nat → P → Option V) (i : Nat) (p : P) : Option V :=
  match g.wires.find? (fun w => w.dst = i && w.dstPort = p) with
  | some w => den w.src w.srcPort
  | none => some source

def inputValues (g : Graph P) (source : V) (den : Nat → P → Option V) (i : Nat) :
    Option (List V) :=
  if g.inPorts i = [] then some [source] else (g.inPorts i).mapM (fedValue g source den i)

/-- Evaluate the nodes one after the other. -/
def evaluate (g : Graph P) (f : Nat → List V → P → Option V) (source : V) (order : List Nat) :
    Nat → P → Option V :=
  order.foldl (fun den i => Function.update den i
    (fun q => (inputValues g source den i).bind (fun vs => f i vs q))) (fun _ _ => none)

theorem fedValue_of_fed {g : Graph P} {source v : V} {den : Nat → P → Option V} {i : Nat} {p : P}
    (h : Fed g source den i p v) : fedValue g source den i p = some v := by
  unfold fedValue
  split
  · rename_i w hw
    have hp := List.find?_some hw
    simp only [Bool.and_eq_true, decide_eq_true_eq] at hp
    exact h.1 w (List.mem_of_find?_eq_some hw) hp.1 hp.2
  · rename_i hnone
    rw [h.2]
    intro w hw hi hp
    exact List.find?_eq_none.mp hnone w hw (by simp [hi, hp])

theorem inputValues_of_inputs {g : Graph P} {source : V} {den : Nat → P → Option V} {i : Nat}
    {vs : List V} (h : Inputs g source den i vs) : inputValues g source den i = some vs := by
  unfold Inputs at h
  unfold inputValues
  split
  · rename_i he
    rw [if_pos he] at h
    rw [h]
  · rename_i he
    rw [if_neg he] at h
    clear he
    generalize g.inPorts i = ports at h
    induction h with
    | nil => rfl
    | cons hp _ ih => simp [List.mapM_cons, fedValue_of_fed hp, ih]

/-- Only the predecessors of a node matter to what it sees. -/
theorem inputValues_congr {g : Graph P} {source : V} {den den' : Nat → P → Option V} {i : Nat}
    (h : ∀ w ∈ g.wires, w.dst = i → den w.src = den' w.src) :
    inputValues g source den i = inputValues g source den' i := by
  have hfed : fedValue g source den i = fedValue g source den' i := by
    funext p
    unfold fedValue
    split
    · rename_i w hw
      have hp := List.find?_some hw
      simp only [Bool.and_eq_true, decide_eq_true_eq] at hp
      rw [h w (List.mem_of_find?_eq_some hw) hp.1]
    · rfl
  simp [inputValues, hfed]

variable {g : Graph P} {f : Nat → List V → P → Option V} {source : V}

theorem evaluate_snoc (order : List Nat) (i : Nat) :
    evaluate g f source (order ++ [i]) = Function.update (evaluate g f source order) i
      (fun q => (inputValues g source (evaluate g f source order) i).bind
        (fun vs => f i vs q)) := by
  simp [evaluate]

/-- Nodes evaluated later leave the values of the earlier ones alone. -/
theorem evaluate_append (order rest : List Nat) (hd : ∀ j ∈ order, j ∉ rest) (hj : j ∈ order) :
    evaluate g f source (order ++ rest) j = evaluate g f source order j := by
  induction rest using List.reverseRecOn with
  | nil => simp
  | append_singleton rest i ih =>
    rw [← List.append_assoc, evaluate_snoc]
    have hne : j ≠ i := by
      rintro rfl
      exact hd j hj (by simp)
    rw [Function.update_of_ne hne]
    exact ih (fun k hk hm => hd k hk (by simp [hm]))

/-- Evaluation along an order that puts every node behind its predecessors
solves the equations of the graph. -/
theorem evaluate_denotes {order : List Nat} (hnodup : order.Nodup)
    (before : ∀ w ∈ g.wires, w.dst ∈ order → w.src ∈ order ∧
      order.idxOf w.src < order.idxOf w.dst) :
    Denotes g f source order (evaluate g f source order) := by
  intro i hi vs hin q
  obtain ⟨done, rest, rfl⟩ := List.mem_iff_append.mp hi
  have hcut := List.nodup_append.mp hnodup
  have hndone : i ∉ done := fun hm => hcut.2.2 i hm i (by simp) rfl
  have hpred : ∀ w ∈ g.wires, w.dst = i →
      evaluate g f source done w.src = evaluate g f source (done ++ i :: rest) w.src := by
    rintro w hw rfl
    obtain ⟨_, hlt⟩ := before w hw hi
    have hdone : w.src ∈ done := by
      by_contra hn
      rw [List.idxOf_append_of_notMem hn, List.idxOf_append_of_notMem hndone] at hlt
      rw [List.idxOf_cons_self] at hlt
      omega
    exact (evaluate_append done (w.dst :: rest) (fun j hj hm => hcut.2.2 j hj j hm rfl) hdone).symm
  have hsplit : done ++ i :: rest = (done ++ [i]) ++ rest := by simp
  rw [hsplit, evaluate_append (done ++ [i]) rest ?_ (by simp), evaluate_snoc,
    Function.update_self, inputValues_congr hpred, inputValues_of_inputs hin]
  · rfl
  · rw [hsplit] at hnodup
    exact fun j hj hm => (List.nodup_append.mp hnodup).2.2 j hj j hm rfl

end Evaluate
end Library.Dataflow
