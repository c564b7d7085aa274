/-
# What flows through a system

In each step of a run something may come in (`inn`) and something go out (`out`), and a
state holds what is on its way (`held`).

If the books of every step balance, so do those of the run (`balance`).  The amounts are
those of an additive monoid, in which order may matter or not.  Where a system is made of
parts and a step moves one of them, the parts are added up (`sum_move`).

A stage that keeps the order but may lose something is `Lossy`.  Stages can be put in
series (`Lossy.series`), and a run of lossy steps is lossy (`lossy_run`).
-/

import Mathlib.Algebra.BigOperators.Group.Finset.Basic
import Mathlib.Algebra.BigOperators.Group.List.Basic
import Mathlib.Algebra.Order.Group.Multiset
import UdpEthTunnel.Lib.Runs

namespace Flow

open Runs Finset

variable {σ α β γ : Type*} {step : σ → α → σ → Prop} {s t : σ} {tr : List (Event σ α)}

/-- **The books of a run.**  What was held with what has come in is what has gone out with
what is held. -/
theorem balance {M : Type*} [AddMonoid M] {held : σ → M} {inn out : Event σ α → M}
    (hrun : Run step s tr t) (h : ∀ e ∈ tr, held e.pre + inn e = out e + held e.post) :
    held s + (tr.map inn).sum = (tr.map out).sum + held t := by
  induction hrun with
  | nil => simp
  | @snoc u v tr a hrun hstep ih =>
    have hprev := ih fun e he => h e (List.mem_append_left _ he)
    have hlast : held u + inn ⟨u, a, v⟩ = out ⟨u, a, v⟩ + held v :=
      h ⟨u, a, v⟩ (List.mem_append_right _ (List.mem_singleton.2 rfl))
    simp only [List.map_append, List.map_cons, List.map_nil, List.sum_append, List.sum_singleton]
    rw [← add_assoc, hprev, add_assoc, hlast, add_assoc]

/-- **A step that moves one part.** -/
theorem sum_move {M : Type*} [AddCommMonoid M] {n w : ℕ} (hw : w < n) {f g : ℕ → M} {i o : M}
    (hne : ∀ v, v ≠ w → g v = f v) (h : f w + i = o + g w) :
    ∑ v ∈ range n, f v + i = o + ∑ v ∈ range n, g v := by
  have hmem : w ∈ range n := mem_range.2 hw
  have hrest : ∑ v ∈ (range n).erase w, g v = ∑ v ∈ (range n).erase w, f v :=
    sum_congr rfl fun v hv => hne v (ne_of_mem_erase hv)
  rw [← add_sum_erase _ f hmem, ← add_sum_erase _ g hmem, hrest, add_right_comm, h, add_assoc]

/-- What comes in lists, in no order. -/
theorem sum_coe (f : α → List β) (l : List α) :
    (l.map fun x => (f x : Multiset β)).sum = (l.flatMap f : Multiset β) := by
  induction l with
  | nil => rfl
  | cons x l ih => rw [List.map_cons, List.sum_cons, ih, List.flatMap_cons, Multiset.coe_add]

/-! ### Keeping the order -/

/-- A stage that held `held` and took in `inn`, gave out `out` and holds `held'`: nothing is
new and nothing out of order, but something may be missing. -/
def Lossy (held inn out held' : List β) : Prop := (out ++ held').Sublist (held ++ inn)

variable {held held' inn mid out : List β}

/-- Nothing happens. -/
theorem Lossy.idle (held : List β) : Lossy held [] [] held := by
  unfold Lossy
  rw [List.nil_append, List.append_nil]

/-- A stage that loses nothing. -/
theorem Lossy.of_eq (h : held ++ inn = out ++ held') : Lossy held inn out held' := by
  unfold Lossy
  rw [h]

theorem Lossy.map (f : β → γ) (h : Lossy held inn out held') :
    Lossy (held.map f) (inn.map f) (out.map f) (held'.map f) := by
  have hmap := List.Sublist.map f h
  rwa [List.map_append, List.map_append] at hmap

/-- **Stages in series**: what the first gives out, the second takes in. -/
theorem Lossy.series {first first' second second' : List β} (h₁ : Lossy first inn mid first')
    (h₂ : Lossy second mid out second') :
    Lossy (second ++ first) inn out (second' ++ first') := by
  unfold Lossy at h₁ h₂ ⊢
  have hout : (out ++ second' ++ first').Sublist (second ++ mid ++ first') :=
    h₂.append (List.Sublist.refl first')
  have hin : (second ++ (mid ++ first')).Sublist (second ++ (first ++ inn)) :=
    (List.Sublist.refl second).append h₁
  rw [List.append_assoc] at hout
  rw [List.append_assoc second first inn]
  exact hout.trans (by rwa [List.append_assoc])

/-- **A run of lossy steps is lossy.** -/
theorem lossy_run {held : σ → List β} {inn out : Event σ α → List β} (hrun : Run step s tr t)
    (h : ∀ e ∈ tr, Lossy (held e.pre) (inn e) (out e) (held e.post)) :
    Lossy (held s) (tr.flatMap inn) (tr.flatMap out) (held t) := by
  induction hrun with
  | nil => exact .idle _
  | @snoc u v tr a hrun hstep ih =>
    have hprev := ih fun e he => h e (List.mem_append_left _ he)
    have hlast : Lossy (held u) (inn ⟨u, a, v⟩) (out ⟨u, a, v⟩) (held v) :=
      h ⟨u, a, v⟩ (List.mem_append_right _ (List.mem_singleton.2 rfl))
    unfold Lossy at hprev hlast ⊢
    simp only [List.flatMap_append, List.flatMap_cons, List.flatMap_nil, List.append_nil]
    have hout := (List.Sublist.refl (tr.flatMap out)).append hlast
    have hin := hprev.append (List.Sublist.refl (inn ⟨u, a, v⟩))
    rw [← List.append_assoc, ← List.append_assoc] at hout
    rw [← List.append_assoc]
    exact hout.trans hin

/-- What has gone out has come in, in this order, if nothing was held at first. -/
theorem Lossy.sublist (h : Lossy [] inn out held') : out.Sublist inn :=
  (List.sublist_append_left out held').trans h

end Flow
