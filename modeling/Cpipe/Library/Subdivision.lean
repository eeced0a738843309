import Cpipe.Library.Kahn

namespace Library.Subdivision
open Kahn Relation

/-- `new` arises from `old`, a graph on `0 … n-1`, by putting a vertex of its own
on some of the edges. The vertices from `n` on are the ones put in. -/
structure Subdivided (n : Nat) (old new : Edges) : Prop where
  keep : ∀ a b, Edge new a b → a < n → b < n → Edge old a b
  into : ∀ a k, Edge new a k → n ≤ k → a < n
  through : ∀ a k b, Edge new a k → Edge new k b → n ≤ k → b < n ∧ Edge old a b
  out : ∀ k b, Edge new k b → n ≤ k → b < n
  expand : ∀ a b, Edge old a b → Edge new a b ∨ ∃ k, Edge new a k ∧ Edge new k b

variable {n : Nat} {old new : Edges}

theorem subdivided_empty (n : Nat) : Subdivided n [] [] := by
  constructor <;> simp [Edge]

theorem edge_append {xs ys : Edges} : Edge (xs ++ ys) a b ↔ Edge xs a b ∨ Edge ys a b :=
  List.mem_append

theorem edge_single : Edge [(u,v)] a b ↔ a = u ∧ b = v := by
  simp [Edge]

/-- Both graphs may get the same edge between old vertices. -/
theorem Subdivided.add (h : Subdivided n old new) (hu : u < n) (hv : v < n) :
    Subdivided n (old ++ [(u,v)]) (new ++ [(u,v)]) where
  keep := by
    intro a b hab ha hb
    rcases edge_append.mp hab with hab | hab
    · exact edge_append.mpr (.inl (h.keep a b hab ha hb))
    · exact edge_append.mpr (.inr hab)
  into := by
    intro a k hak hk
    rcases edge_append.mp hak with hak | hak
    · exact h.into a k hak hk
    · obtain ⟨rfl, rfl⟩ := edge_single.mp hak
      exact hu
  through := by
    intro a k b hak hkb hk
    rcases edge_append.mp hak with hak | hak
    · rcases edge_append.mp hkb with hkb | hkb
      · obtain ⟨hb, hab⟩ := h.through a k b hak hkb hk
        exact ⟨hb, edge_append.mpr (.inl hab)⟩
      · obtain ⟨rfl, rfl⟩ := edge_single.mp hkb
        omega
    · obtain ⟨rfl, rfl⟩ := edge_single.mp hak
      omega
  out := by
    intro k b hkb hk
    rcases edge_append.mp hkb with hkb | hkb
    · exact h.out k b hkb hk
    · obtain ⟨rfl, rfl⟩ := edge_single.mp hkb
      exact hv
  expand := by
    intro a b hab
    rcases edge_append.mp hab with hab | hab
    · rcases h.expand a b hab with hab | ⟨k, hak, hkb⟩
      · exact .inl (edge_append.mpr (.inl hab))
      · exact .inr ⟨k, edge_append.mpr (.inl hak), edge_append.mpr (.inl hkb)⟩
    · exact .inl (edge_append.mpr (.inr hab))

theorem edge_pair : Edge [(u,k),(k,v)] a b ↔ (a = u ∧ b = k) ∨ (a = k ∧ b = v) := by
  simp [Edge]

/-- An edge of the old graph may become a path through a vertex no edge uses yet. -/
theorem Subdivided.splice (h : Subdivided n old new) (hu : u < n) (hv : v < n) (hk : n ≤ k)
    (hfresh : ∀ a b, Edge new a b → a ≠ k ∧ b ≠ k) :
    Subdivided n (old ++ [(u,v)]) (new ++ [(u,k),(k,v)]) where
  keep := by
    intro a b hab ha hb
    rcases edge_append.mp hab with hab | hab
    · exact edge_append.mpr (.inl (h.keep a b hab ha hb))
    · rcases edge_pair.mp hab with ⟨rfl, rfl⟩ | ⟨rfl, rfl⟩ <;> omega
  into := by
    intro a j haj hj
    rcases edge_append.mp haj with haj | haj
    · exact h.into a j haj hj
    · rcases edge_pair.mp haj with ⟨rfl, rfl⟩ | ⟨rfl, rfl⟩
      · exact hu
      · omega
  through := by
    intro a j b haj hjb hj
    rcases edge_append.mp haj with ha | ha
    · rcases edge_append.mp hjb with hb | hb
      · obtain ⟨hlt, hab⟩ := h.through a j b ha hb hj
        exact ⟨hlt, edge_append.mpr (.inl hab)⟩
      · have hjk := (hfresh a j ha).2
        rcases edge_pair.mp hb with ⟨hju, _⟩ | ⟨hjk', _⟩
        · omega
        · exact absurd hjk' hjk
    · rcases edge_pair.mp ha with ⟨rfl, rfl⟩ | ⟨_, hjv⟩
      · rcases edge_append.mp hjb with hb | hb
        · exact absurd rfl (hfresh j b hb).1
        · rcases edge_pair.mp hb with ⟨hju, _⟩ | ⟨_, rfl⟩
          · omega
          · exact ⟨hv, edge_append.mpr (.inr (edge_single.mpr ⟨rfl, rfl⟩))⟩
      · omega
  out := by
    intro j b hjb hj
    rcases edge_append.mp hjb with hjb | hjb
    · exact h.out j b hjb hj
    · rcases edge_pair.mp hjb with ⟨rfl, rfl⟩ | ⟨rfl, rfl⟩
      · omega
      · exact hv
  expand := by
    intro a b hab
    rcases edge_append.mp hab with hab | hab
    · rcases h.expand a b hab with hab | ⟨j, haj, hjb⟩
      · exact .inl (edge_append.mpr (.inl hab))
      · exact .inr ⟨j, edge_append.mpr (.inl haj), edge_append.mpr (.inl hjb)⟩
    · obtain ⟨rfl, rfl⟩ := edge_single.mp hab
      exact .inr ⟨k, edge_append.mpr (.inr (edge_pair.mpr (.inl ⟨rfl, rfl⟩))),
        edge_append.mpr (.inr (edge_pair.mpr (.inr ⟨rfl, rfl⟩)))⟩

theorem Subdivided.expand_trans (h : Subdivided n old new) (hp : TransGen (Edge old) a b) :
    TransGen (Edge new) a b := by
  have hedge : ∀ a b, Edge old a b → TransGen (Edge new) a b := by
    intro a b he
    rcases h.expand a b he with he | ⟨k, h1, h2⟩
    · exact .single he
    · exact .tail (.single h1) h2
  induction hp with
  | single he => exact hedge _ _ he
  | tail _ he ih => exact ih.trans (hedge _ _ he)

/-- A walk that starts at an old vertex is an old walk, except that it may stop
halfway along a subdivided edge. -/
theorem Subdivided.contract_trans (h : Subdivided n old new) (ha : a < n)
    (hp : TransGen (Edge new) a b) :
    (b < n → TransGen (Edge old) a b) ∧
    (n ≤ b → ∃ c, c < n ∧ ReflTransGen (Edge old) a c ∧ Edge new c b) := by
  induction hp with
  | single he =>
    exact ⟨fun hb => .single (h.keep _ _ he ha hb), fun _ => ⟨a, ha, .refl, he⟩⟩
  | @tail b c _ he ih =>
    rcases Nat.lt_or_ge b n with hb | hb
    · have hab := ih.1 hb
      exact ⟨fun hc => hab.tail (h.keep _ _ he hb hc), fun _ => ⟨b, hb, hab.to_reflTransGen, he⟩⟩
    · obtain ⟨d, _, hd, hdb⟩ := ih.2 hb
      obtain ⟨hc, hdc⟩ := h.through d b c hdb he hb
      exact ⟨fun _ => TransGen.tail' hd hdc, fun hn => by omega⟩

theorem Subdivided.acyclic_iff (h : Subdivided n old new) : Acyclic new ↔ Acyclic old := by
  constructor
  · intro ha v hv
    exact ha v (h.expand_trans hv)
  · intro ha v hv
    rcases Nat.lt_or_ge v n with hlt | hge
    · exact ha v ((h.contract_trans hlt hv).1 hlt)
    · -- A cycle through an added vertex passes the old vertex after it.
      obtain ⟨w, hvw, hwv⟩ := TransGen.head'_iff.mp hv
      have hw := h.out v w hvw hge
      have hcycle : TransGen (Edge new) w w := TransGen.tail' hwv hvw
      exact ha w ((h.contract_trans hw hcycle).1 hw)

end Library.Subdivision
