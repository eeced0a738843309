import Mathlib.Data.List.Forall2

namespace Library.Checked

variable {ε α β σ : Type}

/-- A fallible computation in two parts succeeds when both do. -/
theorem bind_ok {x : Except ε α} {f : α → Except ε β} {r : β} :
    (x >>= f) = .ok r ↔ ∃ a, x = .ok a ∧ f a = .ok r := by
  cases x with
  | error e => simp [bind, Except.bind]
  | ok a => simp [bind, Except.bind]

theorem bind_error {x : Except ε α} {f : α → Except ε β} {e : ε} :
    (x >>= f) = .error e ↔ x = .error e ∨ ∃ a, x = .ok a ∧ f a = .error e := by
  cases x with
  | error e => simp [bind, Except.bind]
  | ok a => simp [bind, Except.bind]

theorem map_ok {x : Except ε α} {f : α → β} {r : β} :
    x.map f = .ok r ↔ ∃ a, x = .ok a ∧ f a = r := by
  cases x with
  | error e => simp [Except.map]
  | ok a => simp [Except.map]

theorem foldlM_cons_ok {f : σ → α → Except ε σ} {s s' : σ} {x : α} (h : f s x = .ok s')
    (xs : List α) : (x :: xs).foldlM f s = xs.foldlM f s' := by
  rw [List.foldlM_cons, h]
  rfl

theorem foldlM_congr_mem {f g : σ → α → Except ε σ} {xs : List α}
    (h : ∀ x ∈ xs, ∀ s, f s x = g s x) : ∀ s, xs.foldlM f s = xs.foldlM g s := by
  induction xs with
  | nil =>
    intro s
    rfl
  | cons x xs ih =>
    intro s
    rw [List.foldlM_cons, List.foldlM_cons, h x List.mem_cons_self]
    exact bind_congr (ih fun y hy => h y (List.mem_cons_of_mem x hy))

/-- Invariant rule for a fallible loop: what holds before the loop and survives
each successful round holds of its result. -/
theorem foldlM_invariant {f : σ → α → Except ε σ} (P : List α → σ → Prop)
    (step : ∀ done s x s', P done s → f s x = .ok s' → P (done ++ [x]) s') :
    ∀ (xs done : List α) (s r : σ), P done s → xs.foldlM f s = .ok r → P (done ++ xs) r := by
  intro xs
  induction xs with
  | nil =>
    intro done s r h0 h
    obtain rfl := Except.ok.inj h
    simpa using h0
  | cons x xs ih =>
    intro done s r h0 h
    rw [List.foldlM_cons] at h
    obtain ⟨s', hx, hrest⟩ := bind_ok.mp h
    simpa using ih (done ++ [x]) s' r (step done s x s' h0 hx) hrest

/-- Invariant rule for a loop whose rounds all succeed. -/
theorem foldlM_progress {f : σ → α → Except ε σ} (P : List α → σ → Prop) {xs : List α}
    (step : ∀ done s x, x ∈ xs → P done s → ∃ s', f s x = .ok s' ∧ P (done ++ [x]) s') :
    ∀ done s, P done s → ∃ r, xs.foldlM f s = .ok r ∧ P (done ++ xs) r := by
  induction xs with
  | nil =>
    intro done s h
    exact ⟨s,rfl,by simpa using h⟩
  | cons x xs ih =>
    intro done s h
    obtain ⟨s',hs,h'⟩ := step done s x List.mem_cons_self h
    obtain ⟨r,hr,hP⟩ := ih (fun done s y hy => step done s y (List.mem_cons_of_mem x hy)) _ s' h'
    exact ⟨r,(foldlM_cons_ok hs xs).trans hr,by simpa using hP⟩

/-- A failing loop fails with what one of its rounds reported. -/
theorem foldlM_error {f : σ → α → Except ε σ} {e : ε} :
    ∀ (xs : List α) (s : σ), xs.foldlM f s = .error e → ∃ s', ∃ x ∈ xs, f s' x = .error e := by
  intro xs
  induction xs with
  | nil =>
    intro s h
    cases h
  | cons x xs ih =>
    intro s h
    rw [List.foldlM_cons] at h
    rcases bind_error.mp h with hx | ⟨s', _, hrest⟩
    · exact ⟨s, x, by simp, hx⟩
    · obtain ⟨s'', y, hy, hf⟩ := ih s' hrest
      exact ⟨s'', y, by simp [hy], hf⟩

/-- Every round of a mapping loop succeeded with the element it produced. -/
theorem mapM_forall₂ {f : α → Except ε β} :
    ∀ {xs : List α} {ys : List β}, xs.mapM f = .ok ys →
      List.Forall₂ (fun x y => f x = .ok y) xs ys := by
  intro xs
  induction xs with
  | nil =>
    intro ys h
    obtain rfl := Except.ok.inj h
    exact .nil
  | cons x xs ih =>
    intro ys h
    rw [List.mapM_cons] at h
    obtain ⟨y, hx, h⟩ := bind_ok.mp h
    obtain ⟨ys', hxs, h⟩ := bind_ok.mp h
    obtain rfl := Except.ok.inj h
    exact .cons hx (ih hxs)

theorem mapM_map {f : α → Except ε β} {g : α → β} {xs : List α} (h : ∀ x ∈ xs, f x = .ok (g x)) :
    xs.mapM f = .ok (xs.map g) := by
  induction xs with
  | nil => rfl
  | cons x xs ih =>
    have hx := h x List.mem_cons_self
    have hxs := ih fun y hy => h y (List.mem_cons_of_mem x hy)
    simp only [List.mapM_cons, hx, hxs, bind, Except.bind, pure, Except.pure, List.map_cons]

/-- A loop over the indices of a list that returns the elements. -/
theorem mapM_range {f : Nat → Except ε β} {ys : List β}
    (h : ∀ i (hi : i < ys.length), f i = .ok ys[i]) : (List.range ys.length).mapM f = .ok ys := by
  have hf (i : Fin ys.length) : f i.val = .ok ys[i] := h i.val i.isLt
  rw [← List.map_coe_finRange_eq_range, List.mapM_map]
  refine (mapM_map fun i _ => hf i).trans ?_
  simp

theorem forall₂_left {R : α → β → Prop} {xs : List α} {ys : List β}
    (h : List.Forall₂ R xs ys) {x : α} (hx : x ∈ xs) : ∃ y ∈ ys, R x y := by
  induction h with
  | nil => cases hx
  | cons hr _ ih =>
    rcases List.mem_cons.mp hx with rfl | hx
    · exact ⟨_,List.mem_cons_self,hr⟩
    · obtain ⟨y,hy,hr⟩ := ih hx
      exact ⟨y,List.mem_cons_of_mem _ hy,hr⟩

theorem forall₂_right {R : α → β → Prop} {xs : List α} {ys : List β}
    (h : List.Forall₂ R xs ys) {y : β} (hy : y ∈ ys) : ∃ x ∈ xs, R x y :=
  forall₂_left h.flip hy

/-- Whatever a mapping loop returns came from one of its inputs. -/
theorem mapM_mem {f : α → Except ε β} {xs : List α} {ys : List β} (h : xs.mapM f = .ok ys)
    (hy : y ∈ ys) : ∃ x ∈ xs, f x = .ok y :=
  forall₂_right (mapM_forall₂ h) hy

theorem mapM_image {f : α → Except ε β} {xs : List α} {ys : List β} (h : xs.mapM f = .ok ys)
    (hx : x ∈ xs) : ∃ y ∈ ys, f x = .ok y :=
  forall₂_left (mapM_forall₂ h) hx

theorem mapM_exists {f : α → Except ε β} {xs : List α} :
    (∃ ys, xs.mapM f = .ok ys) ↔ ∀ x ∈ xs, ∃ y, f x = .ok y := by
  constructor
  · rintro ⟨ys,h⟩ x hx
    obtain ⟨y,-,hy⟩ := mapM_image h hx
    exact ⟨y,hy⟩
  · intro h
    induction xs with
    | nil => exact ⟨[],rfl⟩
    | cons x xs ih =>
      obtain ⟨y,hy⟩ := h x List.mem_cons_self
      obtain ⟨ys,hys⟩ := ih (fun x hx => h x (List.mem_cons_of_mem _ hx))
      refine ⟨y :: ys,?_⟩
      rw [List.mapM_cons, hy, hys]
      rfl

theorem map_exists {x : Except ε α} {f : α → β} : (∃ y, x.map f = .ok y) ↔ ∃ a, x = .ok a := by
  cases x with
  | error e => simp [Except.map]
  | ok a => simp [Except.map]

theorem forM_ok_iff {f : α → Except ε Unit} {xs : List α} :
    xs.forM f = .ok () ↔ ∀ x ∈ xs, f x = .ok () := by
  induction xs with
  | nil => simp [pure, Except.pure]
  | cons x xs ih =>
    change (f x >>= fun _ => xs.forM f) = _ ↔ _
    rw [bind_ok]
    constructor
    · intro hx y hy
      obtain ⟨_, hx, hxs⟩ := hx
      rcases List.mem_cons.mp hy with rfl | hy
      · exact hx
      · exact ih.mp hxs y hy
    · intro h
      exact ⟨(), h x (by simp), ih.mpr (fun y hy => h y (by simp [hy]))⟩

/-- A loop fails where its first failing item stands. -/
theorem forM_error_iff {f : α → Except ε Unit} {xs : List α} {e : ε} :
    xs.forM f = .error e ↔ ∃ before x after, xs = before ++ x :: after ∧
      (∀ y ∈ before, f y = .ok ()) ∧ f x = .error e := by
  induction xs with
  | nil =>
    constructor
    · intro h
      cases h
    · rintro ⟨before, x, after, h, _⟩
      simp at h
  | cons x xs ih =>
    change (f x >>= fun _ => xs.forM f) = _ ↔ _
    rw [bind_error]
    constructor
    · rintro (hx | ⟨_, hx, hrest⟩)
      · exact ⟨[], x, xs, rfl, by simp, hx⟩
      · obtain ⟨before, y, after, rfl, hbefore, hy⟩ := ih.mp hrest
        exact ⟨x :: before, y, after, rfl, List.forall_mem_cons.mpr ⟨hx, hbefore⟩, hy⟩
    · rintro ⟨before, y, after, hsplit, hbefore, hy⟩
      cases before with
      | nil =>
        obtain ⟨rfl, rfl⟩ := List.cons.inj hsplit
        exact .inl hy
      | cons first before =>
        obtain ⟨rfl, rfl⟩ := List.cons.inj hsplit
        obtain ⟨hfirst, hrest⟩ := List.forall_mem_cons.mp hbefore
        exact .inr ⟨(), hfirst, ih.mpr ⟨before, y, after, rfl, hrest, hy⟩⟩

theorem forM_error {f : α → Except ε Unit} {xs : List α} {e : ε} (h : xs.forM f = .error e) :
    ∃ x ∈ xs, f x = .error e := by
  obtain ⟨before, x, after, rfl, _, hx⟩ := forM_error_iff.mp h
  exact ⟨x, by simp, hx⟩

end Library.Checked
