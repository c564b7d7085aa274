/-
# Finite runs of a labelled step relation

A system is a relation `step s a t`: from the state `s`, the action `a` may lead
to `t`.  A run keeps, besides its two ends, the list of its steps in order
(`Event`), so that what a run did can be read off it as well as where it ended.

The proof rules are the usual ones: what every step preserves holds along a run
(`Run.invariant`), also when only the steps that meet a condition preserve it
and every step of the run meets it (`Run.invariant_of`), and such an invariant
holds where each step of the run starts (`Run.pre_of_mem`).  A part of a system that
steps as another system does, runs as it does (`Run.project`).

Where the steps are computed by a function, `exec` replays a list of actions, and
what it replays is a run (`run_of_exec`).
-/

import Mathlib.Data.List.Basic

namespace Runs

variable {σ α : Type*}

/-- One step of a run: where it starts, what is done, where it ends. -/
structure Event (σ α : Type*) where
  pre : σ
  act : α
  post : σ

/-- `Run step s tr t`: the steps `tr`, in order, lead from `s` to `t`. -/
inductive Run (step : σ → α → σ → Prop) : σ → List (Event σ α) → σ → Prop
  | nil (s : σ) : Run step s [] s
  | snoc {s u v : σ} {tr : List (Event σ α)} {a : α} :
      Run step s tr u → step u a v → Run step s (tr ++ [⟨u, a, v⟩]) v

variable {step : σ → α → σ → Prop} {I : σ → Prop} {G : σ → α → Prop}

theorem Run.single {s t : σ} {a : α} (h : step s a t) : Run step s [⟨s, a, t⟩] t :=
  .snoc (.nil s) h

/-- Runs compose. -/
theorem Run.append {s t u : σ} {tr tr' : List (Event σ α)} (h : Run step s tr t)
    (h' : Run step t tr' u) : Run step s (tr ++ tr') u := by
  induction h' with
  | nil => simpa using h
  | snoc _ hstep ih => rw [← List.append_assoc]; exact ih.snoc hstep

/-- One more step in front. -/
theorem Run.cons {s t u : σ} {a : α} {tr : List (Event σ α)} (h : step s a t)
    (h' : Run step t tr u) : Run step s (⟨s, a, t⟩ :: tr) u :=
  (Run.single h).append h'

/-- **The invariant rule, under a condition on the steps.**  What every step
that meets `G` preserves holds at the end of a run whose steps all meet `G`. -/
theorem Run.invariant_of (hstep : ∀ s a t, I s → G s a → step s a t → I t) {s t : σ}
    {tr : List (Event σ α)} (h : Run step s tr t) (hG : ∀ e ∈ tr, G e.pre e.act)
    (hs : I s) : I t := by
  induction h with
  | nil => exact hs
  | snoc _ hlast ih =>
    have hprev := ih (fun e he => hG e (List.mem_append_left _ he))
    exact hstep _ _ _ hprev (hG _ (List.mem_append_right _ (List.mem_singleton.2 rfl))) hlast

/-- **The invariant rule.** -/
theorem Run.invariant (hstep : ∀ s a t, I s → step s a t → I t) {s t : σ}
    {tr : List (Event σ α)} (h : Run step s tr t) (hs : I s) : I t :=
  h.invariant_of (G := fun _ _ => True) (fun s a t hi _ => hstep s a t hi) (fun _ _ => trivial) hs

/-- **Every step of a run starts where the invariant holds**, and is a step. -/
theorem Run.pre_of_mem (hstep : ∀ s a t, I s → G s a → step s a t → I t) {s t : σ}
    {tr : List (Event σ α)} (h : Run step s tr t) (hG : ∀ e ∈ tr, G e.pre e.act) (hs : I s)
    {e : Event σ α} (he : e ∈ tr) : I e.pre ∧ step e.pre e.act e.post := by
  induction h with
  | nil => exact absurd he List.not_mem_nil
  | snoc hprev hlast ih =>
    have hG' := fun e he => hG e (List.mem_append_left _ he)
    rcases List.mem_append.1 he with he | he
    · exact ih hG' he
    · obtain rfl := List.mem_singleton.1 he
      exact ⟨hprev.invariant_of hstep hG' hs, hlast⟩

/-- A run can be cut at any of its steps. -/
theorem Run.cut {s t : σ} {tr tr' : List (Event σ α)} {e : Event σ α}
    (h : Run step s (tr ++ e :: tr') t) :
    Run step s tr e.pre ∧ step e.pre e.act e.post ∧ Run step e.post tr' t := by
  generalize htr : tr ++ e :: tr' = whole at h
  induction h generalizing tr' with
  | nil => simp at htr
  | @snoc u v whole a hprev hlast ih =>
    rcases List.eq_nil_or_concat tr' with rfl | ⟨init, last, rfl⟩
    · obtain ⟨rfl, he⟩ := List.append_inj' htr rfl
      obtain rfl := List.singleton_inj.1 he
      exact ⟨hprev, hlast, .nil v⟩
    · rw [List.concat_eq_append, ← List.cons_append, ← List.append_assoc] at htr
      obtain ⟨hwhole, hl⟩ := List.append_inj' htr rfl
      obtain rfl := List.singleton_inj.1 hl
      obtain ⟨hpre, hstep, hpost⟩ := ih hwhole
      rw [List.concat_eq_append]
      exact ⟨hpre, hstep, hpost.snoc hlast⟩

/-- **The projection rule.**  A system whose steps, seen through `f`, are steps of
another system or change nothing there, runs as that system does: `g` says which
steps those are. -/
theorem Run.project {τ β : Type*} {step' : τ → β → τ → Prop} (f : σ → τ) (g : α → Option β)
    (hstep : ∀ s a t, step s a t → (∃ b, g a = some b ∧ step' (f s) b (f t)) ∨ f t = f s)
    {s t : σ} {tr : List (Event σ α)} (h : Run step s tr t) :
    ∃ tr', Run step' (f s) tr' (f t) ∧
      ∀ e ∈ tr', ∃ e₀ ∈ tr, f e₀.pre = e.pre ∧ g e₀.act = some e.act := by
  induction h with
  | nil => exact ⟨[], .nil _, fun _ he => absurd he List.not_mem_nil⟩
  | @snoc u v tr a hrun hlast ih =>
    obtain ⟨tr', hrun', htr'⟩ := ih
    have hprev : ∀ e ∈ tr', ∃ e₀ ∈ tr ++ [⟨u, a, v⟩], f e₀.pre = e.pre ∧ g e₀.act = some e.act := by
      intro e he
      obtain ⟨e₀, he₀, hpre⟩ := htr' e he
      exact ⟨e₀, List.mem_append_left _ he₀, hpre⟩
    rcases hstep u a v hlast with ⟨b, hb, hs⟩ | hsame
    · refine ⟨_, hrun'.snoc hs, fun e he => ?_⟩
      rcases List.mem_append.1 he with he | he
      · exact hprev e he
      · obtain rfl := List.mem_singleton.1 he
        exact ⟨⟨u, a, v⟩, List.mem_append_right _ (List.mem_singleton.2 rfl), rfl, hb⟩
    · rw [hsame]
      exact ⟨tr', hrun', hprev⟩

/-- Replay a list of actions. -/
def exec (next : σ → α → Option σ) : σ → List α → Option σ
  | s, [] => some s
  | s, a :: acts => (next s a).bind fun t => exec next t acts

/-- **What can be replayed is a run.** -/
theorem run_of_exec {next : σ → α → Option σ} {s t : σ} {acts : List α}
    (h : exec next s acts = some t) :
    ∃ tr, Run (fun s a t => next s a = some t) s tr t ∧ tr.map (·.act) = acts := by
  induction acts generalizing s with
  | nil =>
    obtain rfl := Option.some.inj h
    exact ⟨[], .nil s, rfl⟩
  | cons a acts ih =>
    obtain ⟨u, hu, hrest⟩ := Option.bind_eq_some_iff.1 h
    obtain ⟨tr, htr, hacts⟩ := ih hrest
    exact ⟨⟨s, a, u⟩ :: tr, .cons hu htr, by rw [List.map_cons, hacts]⟩

end Runs
