/-
# Re-arming the descriptors of a batch

Registrations are one-shot: a descriptor that has delivered an event is heard of
again only when `worker_thread` re-arms it at the end of its handling.  When
`epoll_ctl` refuses one of them the worker leaves the batch (`break`), and the
events that are left have been delivered for nothing: they are neither handled nor
re-armed.

`roundsOf` reads off a run what a worker has done with each batch.  The invariant
says how far it has come with the batch in hand (`Stands`); a batch that is done
with has silenced nobody (`NoneSilenced`) unless the worker left it with events to
come (`CutsBatch`).  In a run without such a step every disarmed registration is
still in the hands of its worker, or is one that `epoll_ctl` refused (`Watched`).
-/

import UdpEthTunnel.Tunnel.FiniteMap
import UdpEthTunnel.Tunnel.Queues

namespace UdpEthTunnel

open Tunnel Runs

/-- What a worker has done with one batch. -/
structure Round where
  batch : List TunnelEpollEvent := []
  /-- the events read until there was nothing left -/
  drained : List TunnelEpollEvent := []
  /-- the calls of `epoll_ctl(EPOLL_CTL_MOD)`, and whether they succeeded -/
  rearms : List (TunnelEpollEvent × Bool) := []

/-- The batches of a worker: those it is done with, and the last it has got. -/
structure Rounds where
  current : Round := {}
  finished : List Round := []

/-- The worker has read until there was nothing left. -/
def Round.drain (r : Round) (tev : TunnelEpollEvent) : Round :=
  { r with drained := r.drained ++ [tev] }

/-- The worker has tried to re-arm a descriptor. -/
def Round.rearm (r : Round) (tev : TunnelEpollEvent) (ok : Bool) : Round :=
  { r with rearms := r.rearms ++ [(tev, ok)] }

/-- The call `a`, made at `pc`, as the rounds of the worker show it. -/
def Rounds.next {E : Type} (r : Rounds) (pc : Pc) (a : Action E) : Rounds :=
  match a, pc with
  | .epollWait (some batch), _ => { r with current := { batch := batch } }
  | .read _ _ none, .handle tev _ _ => { r with current := r.current.drain tev }
  | .recvfrom none, .handle tev _ _ => { r with current := r.current.drain tev }
  | .rearm ok, .handle tev _ _ => { r with current := r.current.rearm tev ok }
  | .unlock, .scopeEnd => { r with finished := r.finished ++ [r.current] }
  | _, _ => r

/-- What worker `w` has done with its batches in the course of a run. -/
def roundsOf {M E : Type} (w : ℕ) (tr : Trace M E) : Rounds :=
  tr.foldl (fun r e => if e.act.1 = w then r.next (e.pre.workers w).pc e.act.2 else r) {}

/-- **Nobody is silenced**: every descriptor that delivered an event, and that
`epoll_ctl` did not refuse, has been handled and re-armed, once. -/
def NoneSilenced (r : Round) : Prop :=
  ∀ tev ∈ r.batch, (tev, false) ∉ r.rearms →
    r.drained.count tev = 1 ∧ r.rearms.count (tev, true) = 1

instance (r : Round) : Decidable (NoneSilenced r) := List.decidableBAll _ r.batch

/-- A step of worker `w` that leaves the batch early: `epoll_ctl` refuses a descriptor
while there are events to come. -/
def CutsBatch {M E : Type} (w : ℕ) (e : Event (Sys M) (ℕ × Action E)) : Prop :=
  e.act = (w, .rearm false) ∧
    ∃ tev rest, (e.pre.workers w).pc = .handle tev rest .rearm ∧ rest ≠ []

/-- `epoll_ctl` has refused worker `w` the descriptor of `tev`. -/
def Refused {M E : Type} (w : ℕ) (tev : TunnelEpollEvent) (tr : Trace M E) : Prop :=
  ∃ e ∈ tr, e.act = (w, .rearm false) ∧ ∃ rest, (e.pre.workers w).pc = .handle tev rest .rearm

/-- **Every disarmed registration is watched**: the worker of its queue has its event in
hand, or `epoll_ctl` has refused that worker its descriptor. -/
def Watched {M E : Type} (s : Sys M) (tr : Trace M E) : Prop :=
  ∀ q, ∀ reg ∈ s.epoll q, reg.armed = false → ∃ w, (s.workers w).pc ≠ .start ∧
    (s.workers w).queueId = q ∧ (reg.data ∈ (s.workers w).pc.events ∨ Refused w reg.data tr)

/-- The worker is through with `done`; `rest` is the other part of the batch, and
`drained` and `rearms` are what has been done about it. -/
structure Round.Reached (r : Round) (done rest drained : List TunnelEpollEvent)
    (rearms : List (TunnelEpollEvent × Bool)) : Prop where
  batch : r.batch = done ++ rest
  drained : r.drained = done ++ drained
  rearms : r.rearms = done.map (·, true) ++ rearms

/-- The worker is through with the whole batch. -/
def Round.Settled (r : Round) : Prop := ∃ done, r.Reached done [] [] []

/-- The worker has left the batch at `tev`, with `rest` to come. -/
def Round.LeftAt (r : Round) (tev : TunnelEpollEvent) (rest : List TunnelEpollEvent) : Prop :=
  ∃ done, r.Reached done (tev :: rest) [tev] [(tev, false)]

/-- How far a worker that stands at `pc` has come with its batch. -/
def Stands (pc : Pc) (r : Round) : Prop :=
  match pc with
  | .rdlock batch => r.Reached [] batch [] []
  | .handle tev rest p =>
    ∃ done, r.Reached done (tev :: rest) (if p = .rearm then [tev] else []) []
  | .scopeEnd => r.Settled ∨ ∃ tev rest, r.LeftAt tev rest
  | .start | .epollWait | .exited => True

/-! ### One batch -/

section Batch

variable {r : Round} {tev : TunnelEpollEvent} {done rest : List TunnelEpollEvent}

theorem count_map_rearmed (done : List TunnelEpollEvent) (tev : TunnelEpollEvent) :
    (done.map (·, true)).count (tev, true) = done.count tev :=
  List.count_map_of_injective done (·, true) (fun _ _ h => (Prod.mk.inj h).1) tev

/-- A batch that the worker is through with has silenced nobody. -/
theorem Round.Settled.noneSilenced (h : r.Settled) (hnodup : r.batch.Nodup) : NoneSilenced r := by
  obtain ⟨done, hbatch, hdrained, hrearms⟩ := h
  rw [List.append_nil] at hbatch hdrained hrearms
  intro tev hmem _
  rw [hbatch] at hmem hnodup
  have hcount := List.count_eq_one_of_mem hnodup hmem
  rw [hdrained, hrearms, count_map_rearmed]
  exact ⟨hcount, hcount⟩

/-- **Leaving a batch silences what is to come**, and nothing else. -/
theorem Round.LeftAt.noneSilenced_iff (h : r.LeftAt tev rest) (hnodup : r.batch.Nodup) :
    NoneSilenced r ↔ rest = [] := by
  obtain ⟨done, hbatch, hdrained, hrearms⟩ := h
  rw [hbatch] at hnodup
  obtain ⟨hdone, hrest, hdisjoint⟩ := List.nodup_append.1 hnodup
  constructor
  · intro hnone
    by_contra hne
    obtain ⟨x, xs, rfl⟩ := List.exists_cons_of_ne_nil hne
    -- the next event of the batch was never looked at
    have hx : x ∈ r.batch := by simp [hbatch]
    have hxtev : x ≠ tev := by
      rintro rfl
      simp at hrest
    have hxdone : x ∉ done := fun hin => hdisjoint x hin x (by simp) rfl
    have hcount := (hnone x hx (by simp [hrearms, hxtev])).1
    rw [hdrained, List.count_append, List.count_eq_zero_of_not_mem hxdone] at hcount
    simp [hxtev.symm] at hcount
  · rintro rfl
    intro x hx hok
    rw [hbatch] at hx
    rw [hrearms] at hok
    have hxtev : x ≠ tev := by
      rintro rfl
      simp at hok
    have hxdone : x ∈ done := by simpa [hxtev] using hx
    have hcount := List.count_eq_one_of_mem hdone hxdone
    rw [hdrained, hrearms, List.count_append, List.count_append, count_map_rearmed, hcount]
    simp [hxtev.symm]

/-- The worker goes on with the next event of the batch, or is through. -/
theorem stands_nextEvent (h : r.Reached done rest [] []) : Stands (nextEvent rest) r := by
  cases rest with
  | nil => exact .inl ⟨done, h⟩
  | cons tev rest =>
    refine ⟨done, ?_⟩
    cases tev.isTap <;> exact h

/-- A descriptor that is re-armed is done with. -/
theorem Round.Reached.rearm (h : r.Reached done (tev :: rest) [tev] []) :
    (r.rearm tev true).Reached (done ++ [tev]) rest [] [] := by
  refine ⟨?_, ?_, ?_⟩
  · rw [List.append_assoc]
    exact h.batch
  · rw [List.append_nil]
    exact h.drained
  · show r.rearms ++ [(tev, true)] = _
    rw [h.rearms, List.map_append, List.append_nil, List.append_nil]
    rfl

/-- A descriptor that is refused is where the worker leaves the batch. -/
theorem Round.Reached.rearmFail (h : r.Reached done (tev :: rest) [tev] []) :
    (r.rearm tev false).LeftAt tev rest := by
  refine ⟨done, h.batch, h.drained, ?_⟩
  show r.rearms ++ [(tev, false)] = _
  rw [h.rearms, List.append_nil]

/-- An event that is drained is about to be re-armed. -/
theorem Round.Reached.drain (h : r.Reached done (tev :: rest) [] []) :
    (r.drain tev).Reached done (tev :: rest) [tev] [] := by
  refine ⟨h.batch, ?_, h.rearms⟩
  show r.drained ++ [tev] = _
  rw [h.drained, List.append_nil]

end Batch

/-! ### One step -/

/-- The steps of a worker, as far as its batches are concerned. -/
inductive RoundStep {E : Type} : Pc → Action E → Pc → Prop
  | start : RoundStep .start .start .epollWait
  | epollFail : RoundStep .epollWait (.epollWait none) .exited
  | epollWait (batch : List TunnelEpollEvent) (hnodup : batch.Nodup) :
      RoundStep .epollWait (.epollWait (some batch)) (.rdlock batch)
  | rdlockBatch (batch : List TunnelEpollEvent) :
      RoundStep (.rdlock batch) .rdlock (nextEvent batch)
  /-- going on with the same event -/
  | inside (tev : TunnelEpollEvent) (rest : List TunnelEpollEvent) (p p' : Point) (a : Action E)
      (hp : p = .rearm ↔ p' = .rearm)
      (ha : ∀ r : Rounds, r.next (.handle tev rest p) a = r) :
      RoundStep (.handle tev rest p) a (.handle tev rest p')
  /-- there is nothing left to read -/
  | drained (tev : TunnelEpollEvent) (rest : List TunnelEpollEvent) (p : Point) (a : Action E)
      (hp : p ≠ .rearm)
      (ha : ∀ r : Rounds, r.next (.handle tev rest p) a = { r with current := r.current.drain tev }) :
      RoundStep (.handle tev rest p) a (.handle tev rest .rearm)
  | rearm (tev : TunnelEpollEvent) (rest : List TunnelEpollEvent) :
      RoundStep (.handle tev rest .rearm) (.rearm true) (nextEvent rest)
  | rearmFail (tev : TunnelEpollEvent) (rest : List TunnelEpollEvent) :
      RoundStep (.handle tev rest .rearm) (.rearm false) .scopeEnd
  | scopeEnd : RoundStep .scopeEnd .unlock .epollWait

section Step

variable {M E : Type} {ops : MapOps M E} {s s' : Sys M} {w : ℕ} {a : Action E}

/-- **There are no other steps**, as far as batches are concerned. -/
theorem StepOf.roundStep (hs : StepOf ops s w a s') :
    RoundStep (s.workers w).pc a (s'.workers w).pc := by
  have haccount : ∀ {tev rest p p' id f}, (s.workers w).pc = .handle tev rest p → p ≠ .rearm →
      p' ≠ .rearm → (∀ r : Rounds, r.next (.handle tev rest p) a = r) →
      RoundStep (s.workers w).pc a ((s.account w id f (.handle tev rest p')).workers w).pc := by
    intro tev rest p p' id f hpc hp hp' ha
    rcases s.account_cases w id f (.handle tev rest p') with he | ⟨t, -, he⟩ <;> rw [he, hpc]
    · rw [Sys.workers_die, hpc]
      exact .inside tev rest p p a Iff.rfl ha
    · rw [Sys.pc_goto]
      exact .inside tev rest p p' a (by simp [hp, hp']) ha
  cases hs with
  | start hpc => rw [hpc]; simpa [Sys.workers_setWorker] using RoundStep.start
  | epollFail hpc => rw [hpc, Sys.pc_goto]; exact .epollFail
  | epollWait batch hpc hbatch => rw [hpc, Sys.pc_goto]; exact .epollWait batch hbatch.2.2.1
  | rdlockBatch batch hpc => rw [hpc, Sys.pc_lockGoto]; exact .rdlockBatch batch
  | scopeEnd hpc => rw [hpc, Sys.pc_lockGoto]; exact .scopeEnd
  | read tev rest fd r hpc =>
    rw [hpc, Sys.pc_goto]
    cases r with
    | none => exact .drained tev rest _ _ (by simp) fun _ => rfl
    | some frame => exact .inside tev rest _ _ _ (by simp) fun _ => rfl
  | sendto tev rest frame dst r now hpc => exact haccount hpc (by simp) (by simp) fun _ => rfl
  | recvfrom tev rest r hpc =>
    rw [hpc, Sys.pc_goto]
    rcases afterRecv_cases s.tunnel.mtu r with ⟨rfl, hr⟩ | ⟨d, rfl, ⟨-, hr⟩ | ⟨-, hr⟩⟩ <;> rw [hr]
    · exact .drained tev rest _ _ (by simp) fun _ => rfl
    · exact .inside tev rest _ _ _ (by simp) fun _ => rfl
    · exact .inside tev rest _ _ _ (by simp) fun _ => rfl
  | lookup tev rest d env tapId hpc =>
    rw [hpc, Sys.pc_goto]
    rcases afterLookup_cases (s.tunnel.allows d.src.addr) tapId d with
      ⟨-, hr⟩ | ⟨-, ⟨-, hr⟩ | ⟨-, hr⟩⟩ <;> rw [hr] <;>
      exact .inside tev rest _ _ _ (by simp) fun _ => rfl
  | relookup tev rest d env tapId hpc =>
    rw [hpc, Sys.pc_goto]
    rcases afterRelookup_cases tapId d with ⟨-, hr⟩ | ⟨-, hr⟩ <;> rw [hr] <;>
      exact .inside tev rest _ _ _ (by simp) fun _ => rfl
  | unlockMiss tev rest d hpc | wrlock tev rest d hpc | unlockHit tev rest id d hpc
  | rdlockHit tev rest id d hpc =>
    rw [hpc, Sys.pc_lockGoto]
    exact .inside tev rest _ _ _ (by simp) fun _ => rfl
  | allocFail tev rest d env t epoll hpc | alloc tev rest d env id t epoll hpc
  | add tev rest id d env map hpc =>
    rw [hpc, Sys.pc_goto]
    exact .inside tev rest _ _ _ (by simp) fun _ => rfl
  | write tev rest id d fd r now hpc => exact haccount hpc (by simp) (by simp) fun _ => rfl
  | rearm tev rest hpc => rw [hpc, Sys.pc_goto]; exact .rearm tev rest
  | rearmFail tev rest hpc => rw [hpc, Sys.pc_goto]; exact .rearmFail tev rest
  | dieInMap tev rest p a hpc ha =>
    rw [Sys.workers_die, hpc]
    refine .inside tev rest p p a Iff.rfl fun r => ?_
    rcases ha with ⟨env, e, rfl, -⟩ | ⟨env, e, id, rfl, -⟩ <;> rfl
  | dieInAlloc tev rest d env c hpc =>
    rw [Sys.workers_die, hpc]
    exact .inside tev rest _ _ _ Iff.rfl fun _ => rfl

end Step

/-! ### A whole run -/

section Run

variable {M E : Type} {ops : MapOps M E} {s s₀ s' : Sys M} {w : ℕ} {a : Action E} {tr : Trace M E}
  {pc pc' : Pc}

theorem roundsOf_snoc (w : ℕ) (tr : Trace M E) (e : Event (Sys M) (ℕ × Action E)) :
    roundsOf w (tr ++ [e]) = if e.act.1 = w then
      (roundsOf w tr).next (e.pre.workers w).pc e.act.2 else roundsOf w tr := by
  unfold roundsOf
  rw [List.foldl_append]
  rfl

/-- **The books of a worker on its batches**: how far it is with the one in hand, and
that it has silenced somebody exactly when it has left a batch. -/
structure RoundsInv (w : ℕ) (tr : Trace M E) (pc : Pc) : Prop where
  nodup : (roundsOf w tr).current.batch.Nodup
  stands : Stands pc (roundsOf w tr).current
  cuts : (∃ e ∈ tr, CutsBatch w e) ↔ (∃ r ∈ (roundsOf w tr).finished, ¬ NoneSilenced r) ∨
    (pc = .scopeEnd ∧ ¬ NoneSilenced (roundsOf w tr).current)

theorem RoundsInv.nil (hidle : (s₀.workers w).pc = .start) :
    RoundsInv w ([] : Trace M E) (s₀.workers w).pc := by
  rw [hidle]
  exact ⟨List.nodup_nil, trivial, by simp [roundsOf]⟩

/-- Another worker's step leaves the books as they are. -/
theorem RoundsInv.frame {v : ℕ} (h : RoundsInv w tr pc) (hv : v ≠ w) :
    RoundsInv w (tr ++ [⟨s, (v, a), s'⟩]) pc := by
  have hrounds : roundsOf w (tr ++ [⟨s, (v, a), s'⟩]) = roundsOf w tr := by
    rw [roundsOf_snoc]
    exact if_neg hv
  have hcut : ¬ CutsBatch w (⟨s, (v, a), s'⟩ : Event (Sys M) (ℕ × Action E)) := fun hc =>
    hv (Prod.mk.inj hc.1).1
  obtain ⟨hnodup, hstands, hcuts⟩ := h
  rw [← hrounds] at hnodup hstands hcuts
  refine ⟨hnodup, hstands, ?_⟩
  rw [← hcuts]
  simp [hcut]

theorem rounds_own (tr : Trace M E) (a : Action E) (s' : Sys M) (hpc : (s.workers w).pc = pc) :
    roundsOf w (tr ++ [⟨s, (w, a), s'⟩]) = (roundsOf w tr).next pc a := by
  rw [roundsOf_snoc, ← hpc]
  exact if_pos rfl

theorem exists_cuts_own (hpc : (s.workers w).pc = pc) :
    (∃ e ∈ tr ++ [⟨s, (w, a), s'⟩], CutsBatch w e) ↔ (∃ e ∈ tr, CutsBatch w e) ∨
      (a = .rearm false ∧ ∃ tev rest, pc = .handle tev rest .rearm ∧ rest ≠ []) := by
  simp [CutsBatch, or_and_right, exists_or, hpc]

/-- A step that neither leaves a batch nor is done with one. -/
theorem RoundsInv.quiet (h : RoundsInv w tr pc) (hpc : (s.workers w).pc = pc) {r : Round}
    (hr : (roundsOf w tr).next pc a = { roundsOf w tr with current := r })
    (hpc₀ : pc ≠ .scopeEnd) (ha : a ≠ .rearm false) (hnodup : r.batch.Nodup)
    (hstands : Stands pc' r) (hend : pc' = .scopeEnd → NoneSilenced r) :
    RoundsInv w (tr ++ [⟨s, (w, a), s'⟩]) pc' := by
  have hrounds := (rounds_own tr a s' hpc).trans hr
  refine ⟨?_, ?_, ?_⟩
  · rw [hrounds]
    exact hnodup
  · rw [hrounds]
    exact hstands
  · rw [exists_cuts_own hpc, hrounds, h.cuts]
    simp only [ha, hpc₀, false_and, or_false]
    constructor
    · exact .inl
    · rintro (hold | ⟨hp, hnone⟩)
      · exact hold
      · exact absurd (hend hp) hnone

/-- The step that leaves a batch because a descriptor is refused. -/
theorem RoundsInv.rearmFail {tev : TunnelEpollEvent} {rest : List TunnelEpollEvent}
    (h : RoundsInv w tr (.handle tev rest .rearm))
    (hpc : (s.workers w).pc = .handle tev rest .rearm) :
    RoundsInv w (tr ++ [⟨s, (w, .rearm false), s'⟩]) .scopeEnd := by
  have hrounds := rounds_own tr (.rearm false) s' hpc
  obtain ⟨done, hreached⟩ := h.stands
  have hleft : ((roundsOf w tr).current.rearm tev false).LeftAt tev rest := hreached.rearmFail
  have hnodup : ((roundsOf w tr).current.rearm tev false).batch.Nodup := h.nodup
  refine ⟨?_, ?_, ?_⟩
  · rw [hrounds]
    exact hnodup
  · rw [hrounds]
    exact .inr ⟨tev, rest, hleft⟩
  · have hsilenced : ¬ NoneSilenced ((roundsOf w tr).current.rearm tev false) ↔ rest ≠ [] :=
      not_congr (hleft.noneSilenced_iff hnodup)
    rw [exists_cuts_own hpc, hrounds, h.cuts]
    show _ ↔ (∃ r ∈ (roundsOf w tr).finished, ¬ NoneSilenced r) ∨
      (Pc.scopeEnd = .scopeEnd ∧ ¬ NoneSilenced ((roundsOf w tr).current.rearm tev false))
    rw [hsilenced]
    simp

/-- The step that is done with a batch. -/
theorem RoundsInv.scopeEnd (h : RoundsInv w tr .scopeEnd) (hpc : (s.workers w).pc = .scopeEnd) :
    RoundsInv w (tr ++ [⟨s, (w, .unlock), s'⟩]) .epollWait := by
  have hrounds := rounds_own tr .unlock s' hpc
  refine ⟨?_, trivial, ?_⟩
  · rw [hrounds]
    exact h.nodup
  · rw [exists_cuts_own hpc, hrounds, h.cuts]
    simp [Rounds.next, or_and_right, exists_or]

/-- The worker is through with a batch without anybody silenced. -/
theorem noneSilenced_of_next {r : Round} {done rest : List TunnelEpollEvent}
    (h : r.Reached done rest [] []) (hnodup : r.batch.Nodup)
    (hend : nextEvent rest = .scopeEnd) : NoneSilenced r := by
  cases rest with
  | nil => exact Round.Settled.noneSilenced ⟨done, h⟩ hnodup
  | cons tev rest => cases hend

/-- **The worker's own step keeps the books.** -/
theorem RoundsInv.step (h : RoundsInv w tr pc) (hpc : (s.workers w).pc = pc)
    (hs : RoundStep pc a pc') : RoundsInv w (tr ++ [⟨s, (w, a), s'⟩]) pc' := by
  have hnodup := h.nodup
  have hstands := h.stands
  cases hs with
  | start => exact h.quiet hpc rfl (by simp) (by simp) hnodup trivial (by simp)
  | epollFail => exact h.quiet hpc rfl (by simp) (by simp) hnodup trivial (by simp)
  | epollWait batch hbatch =>
    exact h.quiet hpc rfl (by simp) (by simp) hbatch ⟨rfl, rfl, rfl⟩ (by simp)
  | rdlockBatch batch =>
    exact h.quiet hpc rfl (by simp) (by simp) hnodup (stands_nextEvent hstands)
      (noneSilenced_of_next hstands hnodup)
  | inside tev rest p p' a hp ha =>
    have hnot : a ≠ .rearm false := by
      rintro rfl
      have := congrArg (fun r => r.current.rearms.length) (ha {})
      simp [Rounds.next, Round.rearm] at this
    obtain ⟨done, hreached⟩ := hstands
    simp only [hp] at hreached
    exact h.quiet (r := (roundsOf w tr).current) hpc (ha _) (by simp) hnot hnodup
      ⟨done, hreached⟩ (by simp)
  | drained tev rest p a hp ha =>
    have hnot : a ≠ .rearm false := by
      rintro rfl
      have := congrArg (fun r => r.current.rearms.length) (ha {})
      simp [Rounds.next, Round.rearm, Round.drain] at this
    refine h.quiet hpc (ha _) (by simp) hnot hnodup ?_ (by simp)
    obtain ⟨done, hreached⟩ := hstands
    rw [if_neg hp] at hreached
    exact ⟨done, hreached.drain⟩
  | rearm tev rest =>
    obtain ⟨done, hreached⟩ := hstands
    have hnext := hreached.rearm
    exact h.quiet hpc rfl (by simp) (by simp) hnodup (stands_nextEvent hnext)
      (noneSilenced_of_next hnext hnodup)
  | rearmFail tev rest => exact h.rearmFail hpc
  | scopeEnd => exact h.scopeEnd hpc

/-- A worker that has left no batch has silenced nobody. -/
theorem RoundsInv.noneSilenced (h : RoundsInv w tr pc) (hcut : ∀ e ∈ tr, ¬ CutsBatch w e) :
    ∀ r ∈ (roundsOf w tr).finished, NoneSilenced r := by
  intro r hr
  by_contra hsilenced
  obtain ⟨e, he, hce⟩ := h.cuts.2 (.inl ⟨r, hr, hsilenced⟩)
  exact hcut e he hce

/-- A worker that has left a batch has silenced somebody. -/
theorem RoundsInv.silenced_of_cut (h : RoundsInv w tr pc) (hpc : pc ≠ .scopeEnd)
    {e : Event (Sys M) (ℕ × Action E)} (he : e ∈ tr) (hcut : CutsBatch w e) :
    ∃ r ∈ (roundsOf w tr).finished, ¬ NoneSilenced r := by
  rcases h.cuts.1 ⟨e, he, hcut⟩ with hsilenced | ⟨hend, -⟩
  · exact hsilenced
  · exact absurd hend hpc

/-- **The books of every worker are kept in every run.** -/
theorem roundsInv_of_run (hidle : ∀ w, (s₀.workers w).pc = .start) (hrun : Run (Step ops) s₀ tr s) :
    ∀ w, RoundsInv w tr (s.workers w).pc := by
  induction hrun with
  | nil => exact fun w => .nil (hidle w)
  | @snoc u v tr wa hrun hstep ih =>
    intro w
    obtain ⟨x, a⟩ := wa
    obtain ⟨-, -, hs⟩ := hstep.stepOf
    rcases eq_or_ne x w with rfl | hne
    · exact (ih x).step rfl hs.roundStep
    · rw [hs.workers_ne hne.symm]
      exact (ih w).frame hne

end Run

/-! ### The registrations -/

section Registrations

variable {M E : Type} {ops : MapOps M E} {s s₀ s' : Sys M} {w : ℕ} {a : Action E} {tr : Trace M E}
  {t t' : Tunnel M} {env : AllocTapEnv} {epoll epoll' : EpollSets} {e : Endpoint} {r : Option ℕ}
  {reg : Registration} {q : ℕ}

/-- A new device is registered armed. -/
theorem armed_of_allocNewTap (hle : t.numTapDevs ≤ t.tapDevs.length)
    (h : tunnelAllocNewTap env t epoll e = .ret r t' epoll') (hreg : reg ∈ epoll' q) :
    reg ∈ epoll q ∨ reg.armed = true := by
  cases r with
  | none =>
    rcases (allocNewTap_none hle h).2.2.2 with hsame | ⟨fds, -, -, hloop⟩
    · exact .inl (hsame ▸ hreg)
    · obtain ⟨k, -, -, -, -, hepoll⟩ := registerTapFds_spec hloop
      rw [hepoll q, if_pos (Nat.zero_le q)] at hreg
      rcases List.mem_append.1 hreg with hold | hnew
      · exact .inl hold
      · obtain ⟨fd, -, rfl⟩ := Option.map_eq_some_iff.1 (Option.mem_toList.1 hnew)
        exact .inr rfl
  | some id =>
    obtain ⟨fds, -, hepoll⟩ := (allocNewTap_some hle h).fds
    rw [hepoll q] at hreg
    rcases List.mem_append.1 hreg with hold | hnew
    · exact .inl hold
    · split_ifs at hnew with hq
      · obtain rfl := List.mem_singleton.1 hnew
        exact .inr rfl
      · cases hnew

/-- A tunnel starts with every registration armed. -/
theorem armed_of_created {env : CreateEnv E} {params : TunnelParams}
    (h : tunnelCreate ops env params = .created s) (hreg : reg ∈ s.epoll q) : reg.armed = true := by
  have hudp : ∀ {fds : List Fd}, reg ∈ udpEpoll fds q → reg.armed = true := by
    intro fds hin
    obtain ⟨fd, -, rfl⟩ := Option.map_eq_some_iff.1 (Option.mem_toList.1 hin)
    rfl
  obtain ⟨-, -, t, hbare, ⟨-, -, -, hepoll⟩ | ⟨e, hdef⟩⟩ := tunnelCreate_created h
  · rw [hepoll] at hreg
    exact hudp hreg
  · obtain ⟨map, -, hnew⟩ := hdef.add
    obtain ⟨fds, -, hepoll⟩ := hnew.fds
    rw [hepoll q] at hreg
    rcases List.mem_append.1 hreg with hold | hin
    · exact hudp hold
    · split_ifs at hin with hq
      · obtain rfl := List.mem_singleton.1 hin
        rfl
      · cases hin

/-- A registration that is disarmed, and was before, is one of those there were. -/
theorem mem_arm_of_disarmed {armed : Bool} {reg₀ : Registration} (hin : reg₀ ∈ s.epoll q)
    (hold : reg₀.armed = false) (hoff : armed = false) :
    { reg₀ with armed := armed } ∈ s.epoll q := by
  rw [hoff, ← hold]
  exact hin

/-- **Where a disarmed registration comes from**: its event has just been delivered, or
it was disarmed before and is not re-armed now. -/
theorem StepOf.disarmed_cases (hs : StepOf ops s w a s')
    (hle : s.tunnel.numTapDevs ≤ s.tunnel.tapDevs.length) (hreg : reg ∈ s'.epoll q)
    (hoff : reg.armed = false) :
    ((s'.workers w).pc ≠ .start ∧ (s'.workers w).queueId = q ∧
        reg.data ∈ (s'.workers w).pc.events) ∨
      (reg ∈ s.epoll q ∧ ∀ tev rest, (s.workers w).pc = .handle tev rest .rearm →
        a = .rearm true → (s.workers w).queueId = q → reg.data ≠ tev) := by
  have hsame : reg ∈ s.epoll q → a ≠ .rearm true →
      reg ∈ s.epoll q ∧ ∀ tev rest, (s.workers w).pc = .handle tev rest .rearm →
        a = .rearm true → (s.workers w).queueId = q → reg.data ≠ tev :=
    fun hin hne => ⟨hin, fun _ _ _ ha => absurd ha hne⟩
  have haccount : ∀ {id f pc}, reg ∈ (s.account w id f pc).epoll q → reg ∈ s.epoll q := by
    intro id f pc hin
    rcases s.account_cases w id f pc with he | ⟨t, -, he⟩ <;> rw [he] at hin <;> exact hin
  have halloc : ∀ {env t epoll d r}, tunnelAllocNewTap env s.tunnel s.epoll d = .ret r t epoll →
      reg ∈ epoll q → reg ∈ s.epoll q := by
    intro env t epoll d r hret hin
    rcases armed_of_allocNewTap hle hret hin with hold | harmed
    · exact hold
    · rw [hoff] at harmed
      cases harmed
  cases hs with
  | epollWait batch hpc hbatch =>
    rw [Sys.epoll_goto, Sys.epoll_arm] at hreg
    split_ifs at hreg with hq
    · subst hq
      obtain ⟨reg₀, hin, rfl⟩ := List.mem_map.1 hreg
      rcases Bool.and_eq_false_iff.1 hoff with hold | hbatch
      · exact .inr (hsame (mem_arm_of_disarmed hin hold hoff) (by simp))
      · refine .inl ⟨?_, ?_, ?_⟩
        · rw [Sys.pc_goto]
          simp
        · rw [Sys.queueId_goto]
          rfl
        · rw [Sys.pc_goto]
          show reg₀.data ∈ batch
          simpa using hbatch
    · exact .inr (hsame hreg (by simp))
  | rearm tev rest hpc =>
    rw [Sys.epoll_goto, Sys.epoll_arm] at hreg
    split_ifs at hreg with hq
    · subst hq
      obtain ⟨reg₀, hin, rfl⟩ := List.mem_map.1 hreg
      obtain ⟨hold, hfd⟩ := Bool.or_eq_false_iff.1 hoff
      refine .inr ⟨mem_arm_of_disarmed hin hold hoff, fun tev' rest' hpc' _ _ heq => ?_⟩
      rw [hpc] at hpc'
      cases hpc'
      rw [show reg₀.data = tev from heq] at hfd
      simp at hfd
    · refine .inr ⟨hreg, fun _ _ _ _ hqueue => absurd hqueue.symm hq⟩
  | sendto => exact .inr (hsame (haccount hreg) (by simp))
  | write => exact .inr (hsame (haccount hreg) (by simp))
  | allocFail tev rest d env t epoll hpc hret => exact .inr (hsame (halloc hret hreg) (by simp))
  | alloc tev rest d env id t epoll hpc hret => exact .inr (hsame (halloc hret hreg) (by simp))
  | dieInMap tev rest p a hpc ha =>
    refine .inr (hsame hreg ?_)
    rcases ha with ⟨env, e, rfl, -⟩ | ⟨env, e, id, rfl, -⟩ <;> simp
  | _ => exact .inr (hsame hreg (by simp))

/-- An event stays in hand until its descriptor is re-armed, or until a refusal ends
the batch. -/
theorem RoundStep.events {pc pc' : Pc} {tev : TunnelEpollEvent} (hs : RoundStep pc a pc')
    (h : tev ∈ pc.events) : tev ∈ pc'.events ∨ ∃ x rest ok, a = .rearm ok ∧
      pc = .handle x rest .rearm ∧ (tev = x ∨ ok = false ∧ rest ≠ []) := by
  have hnext : ∀ batch, (nextEvent batch).events = batch := fun batch => by cases batch <;> rfl
  cases hs with
  | rdlockBatch batch =>
    rw [hnext]
    exact .inl h
  | inside => exact .inl h
  | drained => exact .inl h
  | rearm x rest =>
    rw [hnext]
    rcases List.mem_cons.1 h with rfl | hrest
    · exact .inr ⟨tev, rest, true, rfl, rfl, .inl rfl⟩
    · exact .inl hrest
  | rearmFail x rest =>
    rcases List.mem_cons.1 h with rfl | hrest
    · exact .inr ⟨tev, rest, false, rfl, rfl, .inl rfl⟩
    · exact .inr ⟨x, rest, false, rfl, rfl, .inr ⟨rfl, List.ne_nil_of_mem hrest⟩⟩
  | _ => cases h

theorem Refused.mono {w : ℕ} {tev : TunnelEpollEvent} (h : Refused w tev tr)
    (ev : Event (Sys M) (ℕ × Action E)) : Refused w tev (tr ++ [ev]) := by
  obtain ⟨e, he, hrefused⟩ := h
  exact ⟨e, List.mem_append_left _ he, hrefused⟩

/-- **A step that cuts no batch keeps the registrations watched.** -/
theorem Watched.step (h : Watched s tr) (hstep : Step ops s (w, a) s')
    (hle : s.tunnel.numTapDevs ≤ s.tunnel.tapDevs.length)
    (hcut : ∀ v, ¬ CutsBatch v (⟨s, (w, a), s'⟩ : Event (Sys M) (ℕ × Action E))) :
    Watched s' (tr ++ [⟨s, (w, a), s'⟩]) := by
  obtain ⟨-, -, hs⟩ := hstep.stepOf
  intro q reg hreg hoff
  rcases hs.disarmed_cases hle hreg hoff with ⟨hpc, hq, hin⟩ | ⟨hold, hnot⟩
  · exact ⟨w, hpc, hq, .inl hin⟩
  obtain ⟨v, hpc, hq, hwatch⟩ := h q reg hold hoff
  rcases eq_or_ne v w with rfl | hne
  · have hq' : (s'.workers v).queueId = q := by
      rcases hs.queue_cases hle with ⟨hstart, -⟩ | ⟨-, hsame, -⟩
      · exact absurd hstart hpc
      · rw [hsame, hq]
    refine ⟨v, hs.pc_ne_start, hq', ?_⟩
    rcases hwatch with hin | hrefused
    · rcases hs.roundStep.events hin with hin' | ⟨x, rest, ok, rfl, hpc', hcase⟩
      · exact .inl hin'
      · rcases hcase with rfl | ⟨rfl, hrest⟩
        · cases ok with
          | true => exact absurd rfl (hnot _ rest hpc' rfl hq)
          | false =>
            exact .inr ⟨_, List.mem_append_right _ (List.mem_singleton.2 rfl), rfl, rest, hpc'⟩
        · exact absurd ⟨rfl, x, rest, hpc', hrest⟩ (hcut v)
    · exact .inr (hrefused.mono _)
  · rw [← hs.workers_ne hne] at hpc hq hwatch
    exact ⟨v, hpc, hq, hwatch.imp_right fun hrefused => hrefused.mono _⟩

/-- **A run that cuts no batch keeps the registrations watched.** -/
theorem watched_of_run (hrun : Run (Step ops) s₀ tr s)
    (hle : s₀.tunnel.numTapDevs ≤ s₀.tunnel.tapDevs.length)
    (harmed : ∀ q, ∀ reg ∈ s₀.epoll q, reg.armed = true)
    (hcut : ∀ w, ∀ e ∈ tr, ¬ CutsBatch w e) : Watched s tr := by
  induction hrun with
  | nil =>
    intro q reg hreg hoff
    rw [harmed q reg hreg] at hoff
    cases hoff
  | @snoc u v tr wa hrun hstep ih =>
    obtain ⟨x, a⟩ := wa
    have hprev := ih fun w e he => hcut w e (List.mem_append_left _ he)
    exact hprev.step hstep (extends_of_run hrun hle).size fun w => hcut w _ (by simp)

end Registrations

/-- **Nobody is silenced exactly when no batch is cut**, for any run of a tunnel: a worker
that is back at `epoll_wait` has handled and re-armed every descriptor of its batches
that was not refused, once, if and only if it has not left a batch with events to come.
In a run without such a step, moreover, every registration is armed, or in the hands of
the worker of its queue, or one that was refused itself. -/
theorem rearmed_iff {M E : Type} (ops : MapOps M E) (env : CreateEnv E) (params : TunnelParams)
    (s₀ s : Sys M) (tr : Trace M E) (hcreate : tunnelCreate ops env params = .created s₀)
    (hrun : Run (Step ops) s₀ tr s) :
    (∀ w, (s.workers w).pc = .epollWait →
      ((∀ r ∈ (roundsOf w tr).finished, NoneSilenced r) ↔ ∀ e ∈ tr, ¬ CutsBatch w e)) ∧
    ((∀ w, ∀ e ∈ tr, ¬ CutsBatch w e) →
      (∀ w, ∀ r ∈ (roundsOf w tr).finished, NoneSilenced r) ∧ Watched s tr) := by
  have hidle : ∀ w, (s₀.workers w).pc = .start := fun w => by
    rw [(tunnelCreate_created hcreate).1]
  have hbooks := roundsInv_of_run hidle hrun
  refine ⟨fun w hpc => ⟨fun hnone e he hcut => ?_, (hbooks w).noneSilenced⟩,
    fun hcut => ⟨fun w => (hbooks w).noneSilenced (hcut w), ?_⟩⟩
  · obtain ⟨r, hr, hsilenced⟩ := (hbooks w).silenced_of_cut (by simp [hpc]) he hcut
    exact hsilenced (hnone r hr)
  · exact watched_of_run hrun (size_of_created hcreate)
      (fun q reg hreg => armed_of_created hcreate hreg) hcut

/-! ### A batch of two -/

/-- A tunnel with one queue and the device of a default endpoint. -/
def pairParams : TunnelParams :=
  { numQueues := 1, defaultRemoteHost := some "peer".toList, defaultRemotePort := 1234,
    bindIface := some "eth0".toList, tunnelName := some "tunnel".toList }

/-- Worker 0 finds its socket and its device readable, and reads the socket until there
is nothing left. -/
def pairActions : List (Action Unit) :=
  [.start, .epollWait (some [(udpRegistration 10).data, (tapRegistration 0 30).data]), .rdlock,
    .recvfrom none]

/-- A worker that re-arms both descriptors silences nobody. -/
theorem rearmed_iff_both : ∃ s₀ s tr,
    tunnelCreate finiteMapOps (openEnv ()) pairParams = .created s₀ ∧
      Run (Step finiteMapOps) s₀ tr s ∧ (s.workers 0).pc = .epollWait ∧
      (∀ w, ∀ r ∈ (roundsOf w tr).finished, NoneSilenced r) ∧ Watched s tr := by
  have hreplay : ∃ s₀, tunnelCreate finiteMapOps (openEnv ()) pairParams = .created s₀ ∧
      ∃ s, replay finiteMapOps s₀ 0 (List.append pairActions
        [.rearm true, .read 0 30 none, .rearm true, .unlock]) = some s ∧
        (s.workers 0).pc = .epollWait :=
    ⟨_, rfl, _, rfl, rfl⟩
  obtain ⟨s₀, hcreate, s, hexec, hpc⟩ := hreplay
  obtain ⟨tr, hrun, -, hmem⟩ := mem_replay (size_of_created hcreate) hexec
  refine ⟨s₀, s, tr, hcreate, hrun, hpc,
    (rearmed_iff finiteMapOps (openEnv ()) pairParams s₀ s tr hcreate hrun).2 fun w e he hcut => ?_⟩
  have hin := (hmem e he).1
  rw [hcut.1] at hin
  simp [pairActions] at hin

/-- **The device is silenced when the socket is refused**: the worker is back at
`epoll_wait`, and the device that had something to read is disarmed, though `epoll_ctl`
has not refused it. -/
theorem rearmed_fails : ∃ s₀ s tr,
    tunnelCreate finiteMapOps (openEnv ()) pairParams = .created s₀ ∧
      Run (Step finiteMapOps) s₀ tr s ∧ (s.workers 0).pc = .epollWait ∧
      (¬ ∀ r ∈ (roundsOf 0 tr).finished, NoneSilenced r) ∧
      ∃ reg ∈ s.epoll 0, reg.armed = false ∧ ¬ Refused 0 reg.data tr := by
  have hreplay : ∃ s₀, tunnelCreate finiteMapOps (openEnv ()) pairParams = .created s₀ ∧
      ∃ u, replay finiteMapOps s₀ 0 pairActions = some u ∧
        (u.workers 0).pc = .handle (udpRegistration 10).data [(tapRegistration 0 30).data] .rearm ∧
        { tapRegistration 0 30 with armed := false } ∈ u.epoll 0 ∧
        ∃ v s, Step finiteMapOps u (0, .rearm false) v ∧ Step finiteMapOps v (0, .unlock) s ∧
          (s.workers 0).pc = .epollWait ∧ s.epoll 0 = u.epoll 0 :=
    ⟨_, rfl, _, rfl, rfl, by decide, _, _, rfl, rfl, rfl, rfl⟩
  obtain ⟨s₀, hcreate, u, hexec, hpcu, hreg, v, s, hrefuse, hunlock, hpc, hepoll⟩ := hreplay
  obtain ⟨tr, hrun, -, hmem⟩ := mem_replay (size_of_created hcreate) hexec
  have hrun' := (hrun.snoc hrefuse).snoc hunlock
  have hidle : ∀ w, (s₀.workers w).pc = .start := fun w => by
    rw [(tunnelCreate_created hcreate).1]
  refine ⟨s₀, s, _, hcreate, hrun', hpc, fun hnone => ?_, _, hepoll ▸ hreg, rfl, ?_⟩
  · obtain ⟨r, hr, hsilenced⟩ := (roundsInv_of_run hidle hrun' 0).silenced_of_cut (by simp [hpc])
      (e := ⟨u, (0, .rearm false), v⟩) (by simp) ⟨rfl, _, _, hpcu, by simp⟩
    exact hsilenced (hnone r hr)
  · rintro ⟨e, he, hact, rest, hpce⟩
    rcases List.mem_append.1 he with he | he
    · rcases List.mem_append.1 he with he | he
      · have hin := (hmem e he).1
        rw [hact] at hin
        simp [pairActions] at hin
      · obtain rfl := List.mem_singleton.1 he
        have hsame := hpcu.symm.trans hpce
        injection hsame with htev
        exact absurd htev (by decide)
    · obtain rfl := List.mem_singleton.1 he
      cases hact

end UdpEthTunnel
