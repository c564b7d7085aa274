/-
# Simulations

A function from the states of one system to those of another, under which every step of the
first is a step of the second or none at all: the label of the event says which.  What can
be seen of a run of the first is then a run of the second (`Simulates.run`).
-/

import UdpEthTunnel.Lib.Runs

namespace Runs

variable {σ τ α β : Type*}

/-- On the states `I`, for the events `G`: the steps of the one system are, under `f`, the
steps of the other that `label` names. -/
structure Simulates (step : σ → α → σ → Prop) (step' : τ → β → τ → Prop) (f : σ → τ)
    (label : Event σ α → Option β) (I : σ → Prop) (G : σ → α → Prop) : Prop where
  keeps : ∀ s a t, I s → G s a → step s a t → I t
  seen : ∀ s a t b, I s → G s a → step s a t → label ⟨s, a, t⟩ = some b → step' (f s) b (f t)
  silent : ∀ s a t, I s → G s a → step s a t → label ⟨s, a, t⟩ = none → f t = f s

/-- **What is seen of a run is a run.** -/
theorem Simulates.run {step : σ → α → σ → Prop} {step' : τ → β → τ → Prop} {f : σ → τ}
    {label : Event σ α → Option β} {I : σ → Prop} {G : σ → α → Prop}
    (h : Simulates step step' f label I G) {s t : σ} {tr : List (Event σ α)} (hrun : Run step s tr t)
    (hG : ∀ e ∈ tr, G e.pre e.act) (hs : I s) :
    ∃ tr', Run step' (f s) tr' (f t) ∧ tr'.map (·.act) = tr.filterMap label := by
  induction hrun with
  | nil => exact ⟨[], .nil _, rfl⟩
  | @snoc u v tr a hrun hstep ih =>
    have hprev : ∀ e ∈ tr, G e.pre e.act := fun e he => hG e (List.mem_append_left _ he)
    have hlast : G u a := hG ⟨u, a, v⟩ (List.mem_append_right _ (List.mem_singleton.2 rfl))
    have hu : I u := hrun.invariant_of (fun s a t hs hG hstep => h.keeps s a t hs hG hstep) hprev hs
    obtain ⟨tr', hrun', hacts⟩ := ih hprev
    rw [List.filterMap_append, ← hacts]
    cases hlabel : label ⟨u, a, v⟩ with
    | none =>
      rw [h.silent u a v hu hlast hstep hlabel]
      exact ⟨tr', hrun', by simp [hlabel]⟩
    | some b =>
      exact ⟨_, hrun'.snoc (h.seen u a v b hu hlast hstep hlabel), by simp [hlabel]⟩

/-- **Simulations compose**, where the first names every event. -/
theorem Simulates.comp {υ γ : Type*} {step : σ → α → σ → Prop} {step' : τ → β → τ → Prop}
    {step'' : υ → γ → υ → Prop} {f : σ → τ} {f' : τ → υ} {g : α → β} {label : Event τ β → Option γ}
    {I : σ → Prop} {I' : τ → Prop} {G : σ → α → Prop} {G' : τ → β → Prop}
    (h : Simulates step step' f (fun e => some (g e.act)) I G)
    (h' : Simulates step' step'' f' label I' G') :
    Simulates step step'' (fun s => f' (f s)) (fun e => label ⟨f e.pre, g e.act, f e.post⟩)
      (fun s => I s ∧ I' (f s)) fun s a => G s a ∧ G' (f s) (g a) where
  keeps s a t hs hG hstep := ⟨h.keeps s a t hs.1 hG.1 hstep,
    h'.keeps _ _ _ hs.2 hG.2 (h.seen s a t _ hs.1 hG.1 hstep rfl)⟩
  seen s a t c hs hG hstep hc := h'.seen _ _ _ c hs.2 hG.2 (h.seen s a t _ hs.1 hG.1 hstep rfl) hc
  silent s a t hs hG hstep hnone :=
    h'.silent _ _ _ hs.2 hG.2 (h.seen s a t _ hs.1 hG.1 hstep rfl) hnone

end Runs
