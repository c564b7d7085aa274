/-
# Arrays that double

An array with room for a number of entries of which some are in use.  When it is full it is
replaced by one of twice the size.  So it never has more than twice the room that is in use
(`bounded`); and what is copied from one array to the next, over a whole run, is never more
than the last one has room for (`moved_le`).
-/

import Mathlib.Algebra.BigOperators.Group.List.Basic
import Mathlib.Algebra.Ring.Nat
import Mathlib.Order.Nat
import UdpEthTunnel.Lib.Runs

namespace Doubling

open Runs

/-- A step of an array with `count` of `cap` entries in use, whose smallest size is `least`:
the room stays as it is, or there was no more of it than is in use now, and it doubles. -/
structure Grows (least count cap count' cap' : ℕ) : Prop where
  count_le : count ≤ count'
  room : cap' = cap ∨ cap ≤ count' ∧ cap' = max least (2 * cap)

/-- The entries that a step copies. -/
def moved (cap cap' : ℕ) : ℕ := if cap' = cap then 0 else cap

variable {least count cap count' cap' : ℕ}

theorem Grows.bounded (h : Grows least count cap count' cap') (hcap : cap ≤ max least (2 * count)) :
    cap' ≤ max least (2 * count') := by
  have hcount := h.count_le
  rcases h.room with hsame | ⟨hfull, hdouble⟩
  · omega
  · omega

/-- What is copied is paid for by the room that is new. -/
theorem Grows.moved_le (h : Grows least count cap count' cap') : moved cap cap' + cap ≤ cap' := by
  unfold moved
  split_ifs with hsame
  · omega
  · rcases h.room with heq | ⟨-, hdouble⟩
    · exact absurd heq hsame
    · omega

section Run

variable {σ α : Type*} {step : σ → α → σ → Prop} {s t : σ} {tr : List (Event σ α)}

/-- **Never more than twice the room that is in use.** -/
theorem bounded (count cap : σ → ℕ) (hrun : Run step s tr t)
    (h : ∀ e ∈ tr, Grows least (count e.pre) (cap e.pre) (count e.post) (cap e.post))
    (hs : cap s ≤ max least (2 * count s)) : cap t ≤ max least (2 * count t) := by
  induction hrun with
  | nil => exact hs
  | @snoc u v tr a hrun hstep ih =>
    have hprev := ih fun e he => h e (List.mem_append_left _ he)
    exact (h ⟨u, a, v⟩ (List.mem_append_right _ (List.mem_singleton.2 rfl))).bounded hprev

/-- **All that is copied fits the last array.** -/
theorem moved_le (count cap : σ → ℕ) (hrun : Run step s tr t)
    (h : ∀ e ∈ tr, Grows least (count e.pre) (cap e.pre) (count e.post) (cap e.post)) :
    (tr.map fun e => moved (cap e.pre) (cap e.post)).sum + cap s ≤ cap t := by
  induction hrun with
  | nil => exact (Nat.zero_add _).le
  | @snoc u v tr a hrun hstep ih =>
    have hprev := ih fun e he => h e (List.mem_append_left _ he)
    have hlast : moved (cap u) (cap v) + cap u ≤ cap v :=
      (h ⟨u, a, v⟩ (List.mem_append_right _ (List.mem_singleton.2 rfl))).moved_le
    simp only [List.map_append, List.map_cons, List.map_nil, List.sum_append, List.sum_singleton]
    omega

end Run

end Doubling
