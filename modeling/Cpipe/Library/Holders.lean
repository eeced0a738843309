import Cpipe.Library.Ledger
import Mathlib.Data.List.AList

namespace Library.Holders
open Trace (run run_append)
open Ledger (Act Balanced Lawful allow about closes)

variable {κ : Type} [DecidableEq κ] {number : κ → Nat} {next : Nat} {log : List (κ × Act)}
  {held held' rest : List κ} {k : κ}

/-- The log is balanced once what is held is closed, and it has no instance with a number
from `next` on. -/
structure Kept (number : κ → Nat) (next : Nat) (log : List (κ × Act)) (held : List κ) : Prop where
  balanced : Balanced (log ++ closes held)
  fresh : ∀ entry ∈ log, number entry.1 < next

namespace Kept

theorem start : Kept number 0 [] [] := ⟨Balanced.nil,by simp⟩

theorem perm (h : Kept number next log held) (hp : held.Perm held') :
    Kept number next log held' :=
  ⟨Ledger.balanced_closes_perm hp h.balanced,h.fresh⟩

theorem new (h : Kept number next log held) (hk : number k = next) :
    ∀ entry ∈ log, entry.1 ≠ k := by
  intro entry hentry heq
  have hlt := h.fresh entry hentry
  rw [heq, hk] at hlt
  exact Nat.lt_irrefl _ hlt

theorem fresh_append (h : Kept number next log held) (hk : number k = next) (act : Act) :
    ∀ entry ∈ log ++ [(k,act)], number entry.1 < next+1 := by
  intro entry hentry
  rcases List.mem_append.mp hentry with hentry | hentry
  · exact Nat.lt_succ_of_lt (h.fresh entry hentry)
  · rw [List.mem_singleton.mp hentry, hk]
    exact Nat.lt_succ_self _

theorem opened (h : Kept number next log held) (hk : number k = next) :
    Kept number (next+1) (log ++ [(k,.opened)]) (k :: held) :=
  ⟨Ledger.balanced_open (h.new hk) h.balanced,h.fresh_append hk .opened⟩

theorem refused (h : Kept number next log held) (hk : number k = next) :
    Kept number (next+1) (log ++ [(k,.refused)]) held := by
  refine ⟨fun j => ?_,h.fresh_append hk .refused⟩
  have hlog := h.balanced j
  rw [Ledger.about_append] at hlog
  rw [Ledger.about_append, Ledger.about_append]
  by_cases hj : k = j
  · subst hj
    have hnone : about k log = [] := Ledger.about_eq_nil (h.new hk)
    rw [hnone, List.nil_append] at hlog
    have hone : about k [(k,Act.refused)] = [.refused] := by simp [about]
    rw [hnone, hone]
    exact hlog
  · have hnone : about j [(k,Act.refused)] = [] := by simp [about, hj]
    rwa [hnone, List.append_nil]

theorem number_lt (h : Kept number next log held) (hk : k ∈ held) : number k < next := by
  obtain ⟨entry,hentry,rfl⟩ := Ledger.mem_log_of_mem_closes h.balanced hk
  exact h.fresh entry hentry

/-- What is held may be used. -/
theorem used (h : Kept number next log held) (hk : k ∈ held) :
    Kept number next (log ++ [(k,.used)]) held := by
  constructor
  · intro j
    have hlog := h.balanced j
    rw [Ledger.about_append] at hlog
    rw [Ledger.about_append, Ledger.about_append]
    by_cases hj : k = j
    · subst hj
      have hopen := Ledger.open_of_mem_closes h.balanced hk
      obtain ⟨state,hstate,hrest⟩ := run_append.mp hlog
      rw [hopen] at hstate
      cases hstate
      have hone : about k [(k,Act.used)] = [.used] := by simp [about]
      rw [hone]
      refine run_append.mpr ⟨true,run_append.mpr ⟨true,hopen,rfl⟩,hrest⟩
    · have hnone : about j [(k,Act.used)] = [] := by simp [about, hj]
      rwa [hnone, List.append_nil]
  · intro entry hentry
    rcases List.mem_append.mp hentry with hentry | hentry
    · exact h.fresh entry hentry
    · rw [List.mem_singleton.mp hentry]
      exact h.number_lt hk

theorem closes (h : Kept number next log (held ++ rest)) :
    Kept number next (log ++ Ledger.closes held) rest := by
  constructor
  · rw [List.append_assoc, ← Ledger.closes_append]
    exact h.balanced
  · intro entry hentry
    rcases List.mem_append.mp hentry with hentry | hentry
    · exact h.fresh entry hentry
    · obtain ⟨k,hk,rfl⟩ := List.mem_map.mp hentry
      exact h.number_lt (List.mem_append_left rest hk)

theorem lawful (h : Kept number next log held) : Lawful log := by
  intro k
  have hlog := h.balanced k
  rw [Ledger.about_append] at hlog
  obtain ⟨state,hstate,_⟩ := run_append.mp hlog
  exact ⟨state,hstate⟩

end Kept

/-! ### Tables of holders -/

section Table
variable {α β : Type} [DecidableEq α] {table : AList (fun _ : α => β)} {a : α} {b : β}

/-- What the entries of a table hold. -/
def holds (f : β → List κ) (table : AList (fun _ : α => β)) : List κ :=
  table.entries.flatMap (fun e => f e.2)

variable {f : β → List κ}

omit [DecidableEq κ] in
theorem holds_insert : holds f (table.insert a b) = f b ++ holds f (table.erase a) := by
  rw [holds, AList.entries_insert]
  rfl

omit [DecidableEq κ] in
theorem holds_erase_of_notMem (h : a ∉ table) : holds f (table.erase a) = holds f table := by
  have hentries : (table.erase a).entries = table.entries := List.kerase_of_notMem_keys h
  rw [holds, hentries, holds]

omit [DecidableEq κ] in
theorem holds_lookup (h : table.lookup a = some b) :
    (holds f table).Perm (f b ++ holds f (table.erase a)) := by
  have hmem : a ∈ table.entries.keys := AList.lookup_isSome.mp (by rw [h]; rfl)
  obtain ⟨c,before,after,_,hsplit,herase⟩ := List.exists_of_kerase hmem
  have hlookup : table.lookup a = some c := by
    refine AList.mem_lookup_iff.mpr ?_
    rw [hsplit]
    exact List.mem_append_right _ List.mem_cons_self
  rw [h] at hlookup
  cases hlookup
  have hentries : (table.erase a).entries = before ++ after := herase
  rw [holds, holds, hentries, hsplit]
  simp only [List.flatMap_append, List.flatMap_cons]
  rw [← List.append_assoc, ← List.append_assoc]
  exact List.Perm.append_right _ List.perm_append_comm

end Table

end Library.Holders
