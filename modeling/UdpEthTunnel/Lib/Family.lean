/-
# Families of systems that start one after another

Components of one kind, which share nothing: the next one may start at any time, and any
one that has started may take a step (`Step`).  What a run of the family did to a component
can be read off its steps (`component`), and is a run of that component alone from where it
started (`run_component`); so what holds along runs of one component holds of each
component of a family, in every interleaving.
-/

import UdpEthTunnel.Lib.Runs

namespace Family

open Runs

variable {σ α : Type*} {step : σ → α → σ → Prop} {starts : List σ}

/-- What happens in a family. -/
inductive Act (α : Type*) where
  /-- the next component starts -/
  | start
  /-- the `k`-th component does `a` -/
  | within (k : ℕ) (a : α)

/-- A step of a family; `starts` are the states in which its components start. -/
inductive Step (step : σ → α → σ → Prop) (starts : List σ) : List σ → Act α → List σ → Prop
  | start {ss : List σ} {s : σ} (h : starts[ss.length]? = some s) :
      Step step starts ss .start (ss ++ [s])
  | within {ss : List σ} {k : ℕ} {s t : σ} {a : α} (hs : ss[k]? = some s) (h : step s a t) :
      Step step starts ss (.within k a) (ss.set k t)

theorem Step.within_cases {us vs : List σ} {k : ℕ} {a : α} (h : Step step starts us (.within k a) vs) :
    ∃ s t, us[k]? = some s ∧ step s a t ∧ vs = us.set k t := by
  cases h with
  | within hs hstep => exact ⟨_, _, hs, hstep, rfl⟩

/-- What the `k`-th component does. -/
def Act.of (k : ℕ) : Act α → Option α
  | .start => none
  | .within k' a => if k' = k then some a else none

/-- A step of the family as a step of the `k`-th component. -/
def eventOf (k : ℕ) (e : Event (List σ) (Act α)) : Option (Event σ α) :=
  (e.act.of k).bind fun a => e.pre[k]?.bind fun s => e.post[k]?.map fun t => ⟨s, a, t⟩

/-- The steps of the `k`-th component. -/
def component (k : ℕ) (tr : List (Event (List σ) (Act α))) : List (Event σ α) :=
  tr.filterMap (eventOf k)

theorem component_append (k : ℕ) (tr tr' : List (Event (List σ) (Act α))) :
    component k (tr ++ tr') = component k tr ++ component k tr' := List.filterMap_append

/-- What a step of the family is for the `k`-th component. -/
theorem eventOf_eq_some {k : ℕ} {e : Event (List σ) (Act α)} {e' : Event σ α} :
    eventOf k e = some e' ↔
      e.act = .within k e'.act ∧ e.pre[k]? = some e'.pre ∧ e.post[k]? = some e'.post := by
  obtain ⟨us, act, vs⟩ := e
  obtain ⟨s, a, t⟩ := e'
  have hact : act.of k = some a ↔ act = .within k a := by
    cases act with
    | start => exact ⟨nofun, nofun⟩
    | within k' b =>
      unfold Act.of
      simp only [Option.ite_none_right_eq_some, Option.some.injEq, Act.within.injEq]
  unfold eventOf
  simp only [Option.bind_eq_some_iff, Option.map_eq_some_iff, Event.mk.injEq]
  constructor
  · rintro ⟨a, ha, s, hs, t, ht, rfl, rfl, rfl⟩
    exact ⟨hact.1 ha, hs, ht⟩
  · rintro ⟨ha, hs, ht⟩
    exact ⟨a, hact.2 ha, s, hs, t, ht, rfl, rfl, rfl⟩

theorem mem_component {k : ℕ} {tr : List (Event (List σ) (Act α))} {e : Event σ α}
    (h : e ∈ component k tr) : ∃ e₀ ∈ tr, e₀.act = .within k e.act ∧ e₀.pre[k]? = some e.pre := by
  obtain ⟨e₀, hmem, he⟩ := List.mem_filterMap.1 h
  obtain ⟨hact, hpre, -⟩ := eventOf_eq_some.1 he
  exact ⟨e₀, hmem, hact, hpre⟩

/-- One more step of a run, for a component. -/
theorem component_snoc (k : ℕ) (tr : List (Event (List σ) (Act α))) (e : Event (List σ) (Act α)) :
    component k (tr ++ [e]) = component k tr ++ (eventOf k e).toList := by
  rw [component_append]
  unfold component
  rw [List.filterMap_cons]
  cases eventOf k e <;> rfl

/-- A component does nothing when another one starts. -/
theorem eventOf_start (k : ℕ) (us vs : List σ) :
    eventOf k (⟨us, .start, vs⟩ : Event (List σ) (Act α)) = none := rfl

/-- A component does nothing when another one does something. -/
theorem eventOf_within_ne {k k' : ℕ} (hne : k' ≠ k) (a : α) (us vs : List σ) :
    eventOf k ⟨us, .within k' a, vs⟩ = none := by
  refine Option.eq_none_iff_forall_ne_some.2 fun e he => hne ?_
  obtain ⟨hact, -⟩ := eventOf_eq_some.1 he
  injection hact

/-- **The `k`-th component has run alone** with the steps of `tr`, or has not started. -/
def RanAlone (step : σ → α → σ → Prop) (starts : List σ) (k : ℕ) (tr : List (Event σ α))
    (ss : List σ) : Prop :=
  (ss[k]? = none ∧ tr = []) ∨
    ∃ s₀ s, starts[k]? = some s₀ ∧ ss[k]? = some s ∧ Run step s₀ tr s

theorem RanAlone.start {k : ℕ} {tr : List (Event σ α)} {us : List σ} {s : σ}
    (h : RanAlone step starts k tr us) (hs : starts[us.length]? = some s) :
    RanAlone step starts k tr (us ++ [s]) := by
  rcases h with ⟨hnone, rfl⟩ | ⟨s₀, u, hs₀, hu, hrun⟩
  · have hle := List.getElem?_eq_none_iff.1 hnone
    rcases Nat.eq_or_lt_of_le hle with rfl | hlt
    · -- it is this component that starts
      exact .inr ⟨s, s, hs, by simp, .nil s⟩
    · exact .inl ⟨by simp; omega, rfl⟩
  · have hlt := (List.getElem?_eq_some_iff.1 hu).1
    exact .inr ⟨s₀, u, hs₀, by rw [List.getElem?_append_left hlt, hu], hrun⟩

theorem RanAlone.within {k : ℕ} {tr : List (Event σ α)} {us : List σ} {s t : σ} {a : α}
    (h : RanAlone step starts k tr us) (hs : us[k]? = some s) (hstep : step s a t) :
    RanAlone step starts k (tr ++ [⟨s, a, t⟩]) (us.set k t) := by
  rcases h with ⟨hnone, -⟩ | ⟨s₀, u, hs₀, hu, hrun⟩
  · rw [hs] at hnone
    cases hnone
  · obtain rfl := Option.some.inj (hs.symm.trans hu)
    have hlt := (List.getElem?_eq_some_iff.1 hs).1
    exact .inr ⟨s₀, t, hs₀, List.getElem?_set_self hlt, hrun.snoc hstep⟩

theorem RanAlone.other {k k' : ℕ} {tr : List (Event σ α)} {us : List σ}
    (h : RanAlone step starts k tr us) (hne : k' ≠ k) (t : σ) :
    RanAlone step starts k tr (us.set k' t) := by
  unfold RanAlone
  rwa [List.getElem?_set_ne hne]

/-- The components that have run, and those that have not started. -/
theorem run_component {ss : List σ} {tr : List (Event (List σ) (Act α))}
    (h : Run (Step step starts) [] tr ss) (k : ℕ) :
    RanAlone step starts k (component k tr) ss := by
  induction h with
  | nil => exact .inl ⟨rfl, rfl⟩
  | @snoc us vs tr act _ hlast ih =>
    rw [component_snoc]
    cases hlast with
    | start hs =>
      rw [eventOf_start, Option.toList_none, List.append_nil]
      exact ih.start hs
    | @within k' s t a hs hstep =>
      rcases eq_or_ne k' k with rfl | hne
      · have hlt := (List.getElem?_eq_some_iff.1 hs).1
        have hevent : eventOf k' ⟨us, .within k' a, us.set k' t⟩ = some ⟨s, a, t⟩ :=
          eventOf_eq_some.2 ⟨rfl, hs, List.getElem?_set_self hlt⟩
        rw [hevent]
        exact ih.within hs hstep
      · rw [eventOf_within_ne hne, Option.toList_none, List.append_nil]
        exact ih.other hne t

/-- **A step of a component** in a run of the family: the component has run alone until then,
from where it started. -/
theorem run_until {ss us vs : List σ} {tr tr' : List (Event (List σ) (Act α))} {k : ℕ} {a : α}
    (h : Run (Step step starts) [] (tr ++ ⟨us, .within k a, vs⟩ :: tr') ss) :
    ∃ s₀ s t, starts[k]? = some s₀ ∧ Run step s₀ (component k tr) s ∧ us[k]? = some s ∧ step s a t ∧
      vs[k]? = some t := by
  obtain ⟨hbefore, hlast, -⟩ := h.cut
  obtain ⟨s, t, hs, hstep, hvs⟩ := hlast.within_cases
  have hlt := (List.getElem?_eq_some_iff.1 hs).1
  rcases run_component hbefore k with ⟨hnone, -⟩ | ⟨s₀, u, hs₀, hu, hrun⟩
  · rw [hs] at hnone
    cases hnone
  · obtain rfl := Option.some.inj (hs.symm.trans hu)
    have hpost : vs[k]? = some t := by
      rw [show vs = us.set k t from hvs, List.getElem?_set_self hlt]
    exact ⟨s₀, s, t, hs₀, hrun, hs, hstep, hpost⟩

/-- **A component may run alone**: a family in which only the first one starts. -/
theorem run_alone {s t : σ} {tr : List (Event σ α)} (hstart : starts[0]? = some s)
    (h : Run step s tr t) :
    ∃ tr', Run (Step step starts) [] tr' [t] ∧ component 0 tr' = tr ∧
      tr'.map (·.act) = .start :: tr.map (.within 0 ·.act) := by
  induction h with
  | nil => exact ⟨_, Run.single (.start hstart), rfl, rfl⟩
  | @snoc u v tr a _ hlast ih =>
    obtain ⟨tr', hrun, hcomp, hacts⟩ := ih
    have hevent : eventOf 0 (⟨[u], .within 0 a, [v]⟩ : Event (List σ) (Act α)) = some ⟨u, a, v⟩ :=
      eventOf_eq_some.2 ⟨rfl, rfl, rfl⟩
    refine ⟨_, hrun.snoc (a := .within 0 a) (v := [v]) (.within rfl hlast), ?_, ?_⟩
    · rw [component_snoc, hcomp, hevent]
      rfl
    · rw [List.map_append, List.map_append, hacts]
      rfl

end Family
