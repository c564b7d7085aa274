/-
# Potentials

A number for each state that says how much work is left there.  A step may add to it as
much as it pays for, and what it does is taken off: so a run does no more than is paid for
and was left at the start (`amortized`).  If a step that is not paid for can be made
wherever something is left to do, the work can be brought to its end (`exists_rest`).
-/

import Mathlib.Algebra.BigOperators.Group.Finset.Basic
import Mathlib.Algebra.BigOperators.Group.List.Basic
import Mathlib.Algebra.Ring.Nat
import UdpEthTunnel.Lib.Runs

namespace Potential

open Runs Finset

variable {σ α : Type*} {step : σ → α → σ → Prop} {s t : σ} {tr : List (Event σ α)}

/-- **The potential method.** -/
theorem amortized {Φ : σ → ℕ} {work cost : Event σ α → ℕ} (hrun : Run step s tr t)
    (h : ∀ e ∈ tr, work e + Φ e.post ≤ cost e + Φ e.pre) :
    (tr.map work).sum + Φ t ≤ (tr.map cost).sum + Φ s := by
  induction hrun with
  | nil => exact le_rfl
  | @snoc u v tr a hrun hstep ih =>
    have hprev := ih fun e he => h e (List.mem_append_left _ he)
    have hlast : work ⟨u, a, v⟩ + Φ v ≤ cost ⟨u, a, v⟩ + Φ u :=
      h ⟨u, a, v⟩ (List.mem_append_right _ (List.mem_singleton.2 rfl))
    simp only [List.map_append, List.map_cons, List.map_nil, List.sum_append, List.sum_singleton]
    omega

/-- The steps of a run, where each does a unit of work. -/
theorem length_le {Φ : σ → ℕ} {cost : Event σ α → ℕ} (hrun : Run step s tr t)
    (h : ∀ e ∈ tr, 1 + Φ e.post ≤ cost e + Φ e.pre) :
    tr.length + Φ t ≤ (tr.map cost).sum + Φ s := by
  have hunits : (tr.map fun _ => 1).sum = tr.length := by
    rw [List.map_const', List.sum_replicate, Nat.nsmul_eq_mul, mul_one]
  rw [← hunits]
  exact amortized hrun h

/-- **A step that changes one of the parts.** -/
theorem sum_move_le {n w : ℕ} (hw : w < n) {f g : ℕ → ℕ} {c d : ℕ} (hne : ∀ v, v ≠ w → g v = f v)
    (h : c + g w ≤ d + f w) : c + ∑ v ∈ range n, g v ≤ d + ∑ v ∈ range n, f v := by
  have hmem : w ∈ range n := mem_range.2 hw
  have hrest : ∑ v ∈ (range n).erase w, g v = ∑ v ∈ (range n).erase w, f v :=
    sum_congr rfl fun v hv => hne v (ne_of_mem_erase hv)
  rw [← add_sum_erase _ f hmem, ← add_sum_erase _ g hmem, hrest]
  omega

/-- A part is no more than the whole. -/
theorem part_le_sum {n w : ℕ} (hw : w < n) (f : ℕ → ℕ) : f w ≤ ∑ v ∈ range n, f v := by
  rw [← add_sum_erase _ f (mem_range.2 hw)]
  exact Nat.le_add_right _ _

/-- **Work can be brought to its end**, if there is always a next step of it and each step
leaves less to do. -/
theorem exists_rest {Φ : σ → ℕ} {I Rest : σ → Prop} {G : Event σ α → Prop}
    (h : ∀ s, I s → Rest s ∨ ∃ a t, step s a t ∧ G ⟨s, a, t⟩ ∧ I t ∧ Φ t < Φ s) (hs : I s) :
    ∃ tr t, Run step s tr t ∧ (∀ e ∈ tr, G e) ∧ I t ∧ Rest t := by
  induction hn : Φ s using Nat.strong_induction_on generalizing s with
  | _ n ih =>
    rcases h s hs with hrest | ⟨a, u, hstep, hG, hu, hlt⟩
    · exact ⟨[], s, .nil s, fun _ he => absurd he List.not_mem_nil, hs, hrest⟩
    · obtain ⟨tr, t, hrun, hall, ht, hrest⟩ := ih (Φ u) (hn ▸ hlt) hu rfl
      exact ⟨_, t, .cons hstep hrun, List.forall_mem_cons.2 ⟨hG, hall⟩, ht, hrest⟩

end Potential
