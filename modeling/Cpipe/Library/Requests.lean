import Cpipe.Library.Bytes

namespace Library.Requests
open Bytes

/-- A fallible computation with the sizes it asked memory for. A failure keeps the
requests made before it. -/
structure Metered (α : Type) where
  result : Except Fault α
  requests : List Nat
deriving DecidableEq

instance : Monad Metered where
  pure a := ⟨.ok a,[]⟩
  bind x f :=
    match x.result with
    | .error e => ⟨.error e,x.requests⟩
    | .ok a => ⟨(f a).result,x.requests ++ (f a).requests⟩

instance : MonadLift (Except Fault) Metered where
  monadLift x := ⟨x,[]⟩

/-- Memory for `n` elements. -/
def reserve (n : Nat) : Metered Unit := ⟨.ok (),[n]⟩

/-! ### What is left without the requests -/

section Result

variable {α β : Type}

@[simp] theorem result_pure (a : α) : (pure a : Metered α).result = pure a := rfl

@[simp] theorem result_lift (x : Except Fault α) : (liftM x : Metered α).result = x := rfl

@[simp] theorem result_reserve (n : Nat) : (reserve n : Metered Unit).result = pure () := rfl

@[simp] theorem result_bind (x : Metered α) (f : α → Metered β) :
    (x >>= f).result = x.result >>= fun a => (f a).result := by
  obtain ⟨result,requests⟩ := x
  cases result with
  | error e => rfl
  | ok a => rfl

@[simp] theorem result_ite {c : Prop} [Decidable c] (x y : Metered α) :
    (if c then x else y).result = if c then x.result else y.result :=
  apply_ite Metered.result c x y

end Result

/-- Reads that may ask for memory. -/
abbrev MeteredRead (α : Type) := StateT Reader Metered α

instance : MonadLift Read MeteredRead where
  monadLift m r := ⟨m r,[]⟩

def erase (m : MeteredRead α) : Read α := fun r => (m r).result

section Erase

variable {α β : Type}

@[simp] theorem erase_pure (a : α) : erase (pure a) = pure a := rfl

@[simp] theorem erase_lift (m : Read α) : erase (liftM m) = m := rfl

@[simp] theorem erase_metered (x : Metered α) :
    erase (liftM x) = (liftM x.result : Read α) := by
  funext r
  obtain ⟨result,requests⟩ := x
  cases result with
  | error e => rfl
  | ok a => rfl

@[simp] theorem erase_get : erase get = get := rfl

@[simp] theorem erase_set (r : Reader) : erase (set r) = set r := rfl

@[simp] theorem erase_bind (m : MeteredRead α) (f : α → MeteredRead β) :
    erase (m >>= f) = erase m >>= fun a => erase (f a) := by
  funext r
  exact result_bind (m r) fun p => f p.1 p.2

@[simp] theorem erase_ite {c : Prop} [Decidable c] (m m' : MeteredRead α) :
    erase (if c then m else m') = if c then erase m else erase m' :=
  apply_ite erase c m m'

theorem result_run' (m : MeteredRead α) (r : Reader) : (m.run' r).result = (erase m).run' r := by
  simp only [StateT.run', erase]
  cases hm : m r with
  | mk result requests =>
    cases result with
    | error e => rfl
    | ok p => rfl

end Erase

/-! ### Single steps -/

section Steps

variable {α β : Type} {r r' : Reader}

theorem get_metered (f : Reader → MeteredRead α) (r : Reader) : (get >>= f) r = f r r := rfl

theorem silent_metered {m : Read α} {a : α} (h : m r = .ok (a,r')) (f : α → MeteredRead β) :
    ((liftM m : MeteredRead α) >>= f) r = f a r' := by
  change (Bind.bind (⟨m r,[]⟩ : Metered (α × Reader)) fun p => f p.1 p.2) = _
  rw [h]
  rfl

theorem reserve_metered (n : Nat) (f : Unit → MeteredRead α) (r : Reader) :
    ((liftM (reserve n) : MeteredRead Unit) >>= f) r = ⟨(f () r).result,n :: (f () r).requests⟩ :=
  rfl

theorem requests_run' (m : MeteredRead α) (r : Reader) : (m.run' r).requests = (m r).requests := by
  simp only [StateT.run']
  cases hm : m r with
  | mk result requests =>
    cases result with
    | error e => rfl
    | ok p => exact List.append_nil _

end Steps

/-! ### Bounds -/

/-- No request exceeds `n`, and a result has the property. -/
structure Bounded (n : Nat) (x : Metered α) (post : α → Prop) : Prop where
  requests : ∀ k ∈ x.requests, k ≤ n
  result : ∀ a, x.result = .ok a → post a

namespace Bounded

variable {α β : Type} {n : Nat} {x : Metered α} {P : α → Prop} {Q : β → Prop}

theorem pure {a : α} (h : P a) : Bounded n (Pure.pure a : Metered α) P where
  requests := by
    intro k hk
    cases hk
  result := by
    intro a' ha
    cases ha
    exact h

theorem lift {y : Except Fault α} (h : ∀ a, y = .ok a → P a) :
    Bounded n (liftM y : Metered α) P where
  requests := by
    intro k hk
    cases hk
  result := h

theorem reserve {k : Nat} (h : k ≤ n) : Bounded n (reserve k : Metered Unit) fun _ => True where
  requests := by
    intro k' hk
    obtain rfl := List.mem_singleton.mp hk
    exact h
  result := fun _ _ => trivial

theorem bind {f : α → Metered β} (hx : Bounded n x P) (hf : ∀ a, P a → Bounded n (f a) Q) :
    Bounded n (x >>= f) Q := by
  obtain ⟨result,requests⟩ := x
  cases result with
  | error e =>
    refine ⟨hx.requests,?_⟩
    intro b hb
    cases hb
  | ok a =>
    have hrest := hf a (hx.result a rfl)
    refine ⟨?_,hrest.result⟩
    intro k hk
    rcases List.mem_append.mp hk with hk | hk
    · exact hx.requests k hk
    · exact hrest.requests k hk

theorem ite {c : Prop} [Decidable c] {y : Metered α} (hx : c → Bounded n x P)
    (hy : ¬ c → Bounded n y P) : Bounded n (if c then x else y) P := by
  split
  · exact hx ‹c›
  · exact hy ‹¬ c›

/-- One read and what follows it, from a given reader. -/
theorem read {m : MeteredRead α} {f : α → MeteredRead β} {r : Reader} {P : α × Reader → Prop}
    {Q : β × Reader → Prop} (hm : Bounded n (m r) P)
    (hf : ∀ a r', P (a,r') → Bounded n (f a r') Q) : Bounded n ((m >>= f) r) Q :=
  hm.bind fun p hp => hf p.1 p.2 hp

/-- A read that asks for nothing. -/
theorem silent {m : Read α} {f : α → MeteredRead β} {r : Reader} {Q : β × Reader → Prop}
    (hf : ∀ a r', m r = .ok (a,r') → Bounded n (f a r') Q) :
    Bounded n (((liftM m : MeteredRead α) >>= f) r) Q :=
  .read (P := fun p => m r = .ok p) (.lift fun _ hp => hp) hf

theorem metered {r : Reader} (h : Bounded n x fun _ => True) :
    Bounded n ((liftM x : MeteredRead α) r) fun p => p.2 = r :=
  h.bind fun _ _ => .pure rfl

theorem iteRead {c : Prop} [Decidable c] {m m' : MeteredRead α} {r : Reader}
    {P : α × Reader → Prop} (hm : c → Bounded n (m r) P) (hm' : ¬ c → Bounded n (m' r) P) :
    Bounded n ((if c then m else m') r) P := by
  split
  · exact hm ‹c›
  · exact hm' ‹¬ c›

theorem run' {m : MeteredRead α} {r : Reader} (h : Bounded n (m r) fun _ => True) :
    Bounded n (m.run' r) fun _ => True :=
  h.bind fun _ _ => .pure trivial

theorem mono {m : Nat} (h : Bounded m x P) (hn : m ≤ n) : Bounded n x P :=
  ⟨fun k hk => (h.requests k hk).trans hn,h.result⟩

end Bounded

end Library.Requests
