/-
# What a worker still has to do

A worker that gets nothing more makes a bounded number of calls before it waits in
`epoll_wait` again (`Pc.left`).  So a run makes no more calls than its batches, frames and
datagrams account for (`calls_le`), in every interleaving and with any map.

The lock is in nobody's way for ever: a worker that holds it never waits for it, and when
nobody holds it anyone can go on (`exists_canGo`).  So when nothing more arrives, the
workers get to `epoll_wait` or to their end in every interleaving, with nothing in hand and
the lock free (`drains`).
-/

import UdpEthTunnel.Lib.Potential
import UdpEthTunnel.Tunnel.Hands

namespace UdpEthTunnel

open Tunnel Runs Finset

/-- The calls that a worker still makes for an event when it gets nothing more, at most. -/
def Point.left : Point → ℕ
  | .rearm => 1
  | .tapRead | .recv => 2
  | .tapSend _ | .write _ _ => 3
  | .add _ _ | .rdlock _ _ => 4
  | .alloc _ | .unlockHit _ _ => 5
  | .relookup _ => 6
  | .wrlock _ => 7
  | .unlockMiss _ => 8
  | .lookup _ => 9

/-- The calls that a worker still makes until it waits, when it gets nothing more. -/
def Pc.left : Pc → ℕ
  | .epollWait | .exited => 0
  | .start | .scopeEnd => 1
  | .handle _ rest p => p.left + (2 * rest.length + 1)
  | .rdlock batch => 2 * batch.length + 2

/-- The calls that what a call returns can lead to, with the call itself. -/
def Action.brings {E : Type} : Action E → ℕ
  | .epollWait none => 1
  | .epollWait (some batch) => 2 * batch.length + 3
  | .read _ _ (some _) => 2
  | .recvfrom (some _) => 8
  | _ => 0

/-- The calls that the workers still make when they get nothing more. -/
def Sys.left {M : Type} (s : Sys M) : ℕ :=
  if s.crash.isSome then 0 else ∑ w ∈ range s.tunnel.numQueues, (s.workers w).pc.left

section Left

variable {M E : Type} {ops : MapOps M E} {s s' : Sys M} {w : ℕ} {a : Action E}

theorem left_nextEvent (batch : List TunnelEpollEvent) :
    (nextEvent batch).left = 2 * batch.length + 1 := by
  rcases nextEvent_cases batch with h | ⟨tev, rest, rfl, ⟨-, h⟩ | ⟨-, h⟩⟩
  · cases batch with
    | nil => rfl
    | cons tev rest =>
      unfold nextEvent at h
      cases h
  · rw [h, List.length_cons]
    simp only [Pc.left, Point.left]
    omega
  · rw [h, List.length_cons]
    simp only [Pc.left, Point.left]
    omega

/-- A worker that makes a call has a call to make, or the call brings something. -/
theorem StepOf.one_le (hs : StepOf ops s w a s') : 1 ≤ a.brings + (s.workers w).pc.left := by
  cases hs with
  | epollFail hpc => exact Nat.le_add_right 1 _
  | epollWait batch hpc =>
    simp only [Action.brings]
    omega
  | start hpc | rdlockBatch _ hpc | scopeEnd hpc | read _ _ _ _ hpc | sendto _ _ _ _ _ _ hpc
  | recvfrom _ _ _ hpc | lookup _ _ _ _ _ hpc | unlockMiss _ _ _ hpc | wrlock _ _ _ hpc
  | relookup _ _ _ _ _ hpc | unlockHit _ _ _ _ hpc | rdlockHit _ _ _ _ hpc
  | allocFail _ _ _ _ _ _ hpc | alloc _ _ _ _ _ _ _ hpc | add _ _ _ _ _ _ hpc
  | write _ _ _ _ _ _ _ hpc | rearm _ _ hpc | rearmFail _ _ hpc | dieInMap _ _ _ _ hpc
  | dieInAlloc _ _ _ _ _ hpc =>
    rw [hpc]
    simp only [Pc.left]
    omega

/-- **Every call leaves less to do**, but for what it brings. -/
theorem StepOf.left (hs : StepOf ops s w a s') (hcrash : s'.crash = none) :
    1 + (s'.workers w).pc.left ≤ a.brings + (s.workers w).pc.left := by
  have haccount : ∀ {id f pc}, (s.account w id f pc).crash = none →
      ((s.account w id f pc).workers w).pc = pc := by
    intro id f pc h
    rcases s.account_cases w id f pc with he | ⟨t, -, he⟩
    · rw [he] at h
      cases h
    · rw [he, Sys.pc_goto]
  cases hs with
  | start hpc =>
    have hnew : (((s.setTunnel { s.tunnel with queueIds := s.tunnel.queueIds + 1 }).setWorker w
        { queueId := s.tunnel.queueIds % s.tunnel.numQueues, lock := .free, pc := .epollWait }).workers
          w).pc = .epollWait := by rw [Sys.workers_setWorker, if_pos rfl]
    rw [hpc, hnew]
    exact le_rfl
  | epollFail hpc =>
    rw [hpc, Sys.pc_goto]
    exact le_rfl
  | epollWait batch hpc =>
    rw [hpc, Sys.pc_goto]
    simp only [Action.brings, Pc.left]
    omega
  | rdlockBatch batch hpc =>
    rw [hpc, Sys.pc_lockGoto, left_nextEvent]
    simp only [Pc.left]
    omega
  | scopeEnd hpc =>
    rw [hpc, Sys.pc_lockGoto]
    exact le_rfl
  | read tev rest fd r hpc =>
    rw [hpc, Sys.pc_goto]
    cases r with
    | none =>
      simp only [Option.elim_none, Action.brings, Pc.left, Point.left]
      omega
    | some frame =>
      simp only [Option.elim_some, Action.brings, Pc.left, Point.left]
      omega
  | sendto tev rest frame dst r now hpc =>
    rw [hpc, haccount hcrash]
    simp only [Action.brings, Pc.left, Point.left]
    omega
  | recvfrom tev rest r hpc =>
    rw [hpc, Sys.pc_goto]
    rcases afterRecv_cases s.tunnel.mtu r with ⟨rfl, hr⟩ | ⟨d, rfl, ⟨-, hr⟩ | ⟨-, hr⟩⟩ <;> rw [hr] <;>
      simp only [Action.brings, Pc.left, Point.left] <;> omega
  | lookup tev rest d env tapId hpc =>
    rw [hpc, Sys.pc_goto]
    rcases afterLookup_cases (s.tunnel.allows d.src.addr) tapId d with
      ⟨-, hr⟩ | ⟨-, ⟨-, hr⟩ | ⟨-, hr⟩⟩ <;> rw [hr] <;>
      simp only [Action.brings, Pc.left, Point.left] <;> omega
  | relookup tev rest d env tapId hpc =>
    rw [hpc, Sys.pc_goto]
    rcases afterRelookup_cases tapId d with ⟨-, hr⟩ | ⟨-, hr⟩ <;> rw [hr] <;>
      simp only [Action.brings, Pc.left, Point.left] <;> omega
  | unlockMiss tev rest d hpc | wrlock tev rest d hpc | unlockHit tev rest id d hpc
  | rdlockHit tev rest id d hpc =>
    rw [hpc, Sys.pc_lockGoto]
    simp only [Action.brings, Pc.left, Point.left]
    omega
  | allocFail tev rest d env t epoll hpc | alloc tev rest d env id t epoll hpc
  | add tev rest id d env map hpc | rearmFail tev rest hpc =>
    rw [hpc, Sys.pc_goto]
    simp only [Action.brings, Pc.left, Point.left]
    omega
  | write tev rest id d fd r now hpc =>
    rw [hpc, haccount hcrash]
    simp only [Action.brings, Pc.left, Point.left]
    omega
  | rearm tev rest hpc =>
    rw [hpc, Sys.pc_goto, left_nextEvent]
    simp only [Action.brings, Pc.left, Point.left]
    omega
  | dieInMap => cases hcrash
  | dieInAlloc => cases hcrash

/-- The same of the process. -/
theorem Step.left (hle : s.tunnel.numTapDevs ≤ s.tunnel.tapDevs.length)
    (hstep : Step ops s (w, a) s') : 1 + s'.left ≤ a.brings + s.left := by
  obtain ⟨hcrash, hw, hs⟩ := hstep.stepOf
  have hnum := (hs.extends hle).numQueues
  have hhere : s.left = ∑ v ∈ range s.tunnel.numQueues, (s.workers v).pc.left := by
    unfold Sys.left
    rw [hcrash]
    rfl
  cases hcrash' : s'.crash with
  | some c =>
    have hthere : s'.left = 0 := by
      unfold Sys.left
      rw [hcrash']
      rfl
    have hpart := Potential.part_le_sum hw fun v => (s.workers v).pc.left
    have hone := hs.one_le
    omega
  | none =>
    have hthere : s'.left = ∑ v ∈ range s.tunnel.numQueues, (s'.workers v).pc.left := by
      unfold Sys.left
      rw [hcrash', hnum]
      rfl
    rw [hhere, hthere]
    exact Potential.sum_move_le hw (fun v hv => by rw [hs.workers_ne hv]) (hs.left hcrash')

end Left

/-- **The calls of a run are accounted for by what it gets.**  In every run of a tunnel, with
any map: each worker makes one call to start, and the rest are those that batches, frames
and datagrams lead to: two for each event of a batch and three more for the batch, two for
a frame, eight for a datagram, and one for an `epoll_wait` that fails.  A call counts when it
has been completed; one that does not return, as `endpoint_map_add` may not, is not a step. -/
theorem calls_le {M E : Type} (ops : MapOps M E) (env : CreateEnv E) (params : TunnelParams)
    (s₀ s : Sys M) (tr : Trace M E) (hcreate : tunnelCreate ops env params = .created s₀)
    (hrun : Run (Step ops) s₀ tr s) :
    tr.length + s.left ≤ (tr.map fun e => e.act.2.brings).sum + s₀.tunnel.numQueues := by
  have hsteps := fun (e : Event (Sys M) (ℕ × Action E)) (he : e ∈ tr) =>
    hrun.pre_of_mem (I := fun u => u.tunnel.numTapDevs ≤ u.tunnel.tapDevs.length)
      (G := fun _ _ => True) (fun u wa v hu _ hstep => (hstep.stepOf.2.2.extends hu).size)
      (fun _ _ => trivial) (size_of_created hcreate) he
  have hle : tr.length + s.left ≤ (tr.map fun e => e.act.2.brings).sum + s₀.left :=
    Potential.length_le hrun fun e he => (hsteps e he).2.left (hsteps e he).1
  have hstart : s₀.left ≤ s₀.tunnel.numQueues := by
    have hworkers := (tunnelCreate_created hcreate).1
    unfold Sys.left
    split_ifs
    · exact Nat.zero_le _
    · rw [sum_congr rfl fun w _ => by rw [hworkers w]]
      show ∑ w ∈ range _, 1 ≤ _
      rw [sum_const, card_range, Nat.nsmul_eq_mul, mul_one]
  omega

/-! ### Going on -/

/-- A call that brings nothing. -/
def Action.Quiet {E : Type} (a : Action E) : Prop := a.brings = 0

/-- Every worker waits for events or has ended, and nobody holds the lock. -/
def Sys.AtRest {M : Type} (s : Sys M) : Prop :=
  ∀ w < s.tunnel.numQueues,
    ((s.workers w).pc = .epollWait ∨ (s.workers w).pc = .exited) ∧ (s.workers w).lock = .free

/-- A worker that has something to do, and holds the lock or finds it free. -/
def Sys.CanGo {M : Type} (s : Sys M) (w : ℕ) : Prop :=
  w < s.tunnel.numQueues ∧ 0 < (s.workers w).pc.left ∧ ((s.workers w).lock ≠ .free ∨ s.Unlocked)

section Going

variable {M E : Type} {ops : MapOps M E} {s s' : Sys M} {w : ℕ} {a : Action E}

/-- **Somebody can go on**, unless all are at rest. -/
theorem exists_canGo (h : LockInv s) : s.AtRest ∨ ∃ w, s.CanGo w := by
  by_cases hheld : ∃ w < s.tunnel.numQueues, (s.workers w).lock ≠ .free
  · obtain ⟨w, hw, hlock⟩ := hheld
    refine .inr ⟨w, hw, ?_, .inl hlock⟩
    have hholds := h.holds w
    cases hpc : (s.workers w).pc with
    | start | epollWait | exited =>
      rw [hpc] at hholds
      exact absurd hholds hlock
    | rdlock batch =>
      rw [hpc] at hholds
      exact absurd hholds hlock
    | scopeEnd => exact Nat.one_pos
    | handle tev rest p =>
      simp only [Pc.left]
      omega
  · have hfree : s.Unlocked := fun w hw => not_not.1 fun hne => hheld ⟨w, hw, hne⟩
    by_cases hleft : ∃ w < s.tunnel.numQueues, 0 < (s.workers w).pc.left
    · obtain ⟨w, hw, hpos⟩ := hleft
      exact .inr ⟨w, hw, hpos, .inr hfree⟩
    · refine .inl fun w hw => ⟨?_, hfree w hw⟩
      have hzero : (s.workers w).pc.left = 0 := by
        by_contra hne
        exact hleft ⟨w, hw, Nat.pos_of_ne_zero hne⟩
      cases hpc : (s.workers w).pc with
      | epollWait => exact .inl rfl
      | exited => exact .inr rfl
      | start | rdlock batch | handle tev rest p | scopeEnd =>
        rw [hpc] at hzero
        simp only [Pc.left] at hzero
        omega

theorem noWriter_of_unlocked (h : s.Unlocked) : s.NoWriter := fun v hv => by
  rw [h v hv]
  decide

/-- A step of a worker that handles an event. -/
theorem step_of_handle (hcrash : s.crash = none) (hw : w < s.tunnel.numQueues)
    {tev : TunnelEpollEvent} {rest : List TunnelEpollEvent} {p : Point}
    (hpc : (s.workers w).pc = .handle tev rest p) (h : handleEvent ops s w tev rest p a = some s') :
    Step ops s (w, a) s' := by
  show workerThread ops s w a = some s'
  unfold workerThread
  rw [if_neg (by simp [hcrash, hw]), hpc]
  exact h

theorem reads_getD {α : Type} [Inhabited α] (there : Option α) : Reads there (there.getD default) := by
  cases there with
  | none => exact .inl rfl
  | some x => exact .inr rfl

end Going

/-- A call of `tunnel_alloc_new_tap` that fails: there is neither room for a device nor a
device to be had. -/
def failingAlloc : AllocTapEnv :=
  { realloc := none, mallocFds := true, createFds := none, nonblocking := fun _ => true,
    epollAdd := fun _ => true, mallocStats := true }

theorem failingAlloc_cases {M : Type} (t : Tunnel M) (epoll : EpollSets) {e : Endpoint}
    (hport : e.port ≠ 0) : ∃ t', tunnelAllocNewTap failingAlloc t epoll e = .ret none t' epoll := by
  unfold tunnelAllocNewTap
  cases hgrow : growTapDevs failingAlloc t with
  | none => exact ⟨t, rfl⟩
  | some t₁ =>
    dsimp only
    rw [if_neg hport]
    exact ⟨_, rfl⟩

section Steady

variable {s s' : MapSys} {w : ℕ} {a : Action Unit}

/-- A tunnel whose workers can go on: no datagram in hand comes from port 0, on which the
assertion of `tunnel_alloc_new_tap` fails. -/
structure Steady (s : MapSys) : Prop where
  map : MapInv s
  dev : DevInv s
  crash : s.crash = none
  ports : ∀ w d, (s.workers w).pc.datagram = some d → d.src.port ≠ 0

/-- What a worker in the middle of an event calls next, when it gets nothing more. -/
theorem Steady.step_of_point (h : Steady s) (hw : w < s.tunnel.numQueues) {tev : TunnelEpollEvent}
    {rest : List TunnelEpollEvent} {p : Point} (hpc : (s.workers w).pc = .handle tev rest p)
    (hfree : (s.workers w).lock = .free → s.Unlocked) :
    ∃ a s', Step finiteMapOps s (w, a) s' ∧ a.Quiet ∧
      (s.tunnel.numTapDevs < 2 ^ 30 → CleanAlloc s (w, a)) ∧ s'.crash = none ∧
      s'.tunnel.numTapDevs = s.tunnel.numTapDevs := by
  have hcrash := h.crash
  have hstep : ∀ {a : Action Unit} {s' : MapSys},
      handleEvent finiteMapOps s w tev rest p a = some s' → Step finiteMapOps s (w, a) s' :=
    step_of_handle hcrash hw hpc
  have hholds := h.map.agree.locks.holds w
  have hasserts := h.map.agree.asserts w
  rw [hpc] at hholds hasserts
  have hstart : (s.workers w).pc ≠ .start := by simp [hpc]
  cases p with
  | tapRead =>
    exact ⟨.read _ _ none, s.goto w (.handle tev rest .rearm), hstep (if_pos ⟨rfl, reads_getD _⟩), rfl,
      fun _ => nofun, hcrash, rfl⟩
  | tapSend frame =>
    obtain ⟨i, hi, hlt, -⟩ := h.dev.events w tev (by rw [hpc]; exact List.mem_cons_self)
      (h.dev.tap w tev rest _ hpc trivial)
    obtain ⟨t, ht, he⟩ := h.dev.account hi hlt hstart (.afterSend none 0) (.handle tev rest .tapRead)
    refine ⟨.sendto frame _ none 0, _, hstep (if_pos ⟨rfl, reads_getD _⟩), rfl, fun _ => nofun,
      ?_, ?_⟩ <;> rw [he]
    · exact hcrash
    · exact ht.numTapDevs
  | recv => exact ⟨.recvfrom none, _, hstep rfl, rfl, fun _ => nofun, hcrash, rfl⟩
  | lookup d => exact ⟨.lookup (), _, hstep rfl, rfl, fun _ => nofun, hcrash, rfl⟩
  | unlockMiss d => exact ⟨.unlock, _, hstep rfl, rfl, fun _ => nofun, hcrash, rfl⟩
  | wrlock d => exact ⟨.wrlock, _, hstep (if_pos (hfree hholds)), rfl, fun _ => nofun, hcrash, rfl⟩
  | relookup d => exact ⟨.lookup (), _, hstep rfl, rfl, fun _ => nofun, hcrash, rfl⟩
  | unlockHit id d => exact ⟨.unlock, _, hstep rfl, rfl, fun _ => nofun, hcrash, rfl⟩
  | rdlock id d =>
    exact ⟨.rdlock, _, hstep (if_pos (noWriter_of_unlocked (hfree hholds))), rfl, fun _ => nofun, hcrash, rfl⟩
  | alloc d =>
    obtain ⟨t, halloc⟩ := failingAlloc_cases s.tunnel s.epoll (h.ports w d (by rw [hpc]; rfl))
    refine ⟨.allocNewTap failingAlloc, ((s.setTunnel t).setEpoll s.epoll).goto w (.handle tev rest .recv),
      hstep ?_, rfl, ?_, hcrash, (allocNewTap_none h.dev.size halloc).2.2.1⟩
    · unfold handleEvent
      dsimp only
      rw [halloc]
    · intro hroom env henv
      injection henv with henv
      exact ⟨henv ▸ .inr (.inl rfl), hroom⟩
  | add id d => exact ⟨.mapAdd (), _, hstep rfl, rfl, fun _ => nofun, hcrash, rfl⟩
  | write id d =>
    obtain ⟨h₀, hlook⟩ := hasserts
    obtain ⟨i, rfl⟩ := Int.eq_ofNat_of_zero_le h₀
    obtain ⟨hlt, -⟩ := h.map.back d.src i hlook
    obtain ⟨t, ht, he⟩ := h.dev.account rfl hlt hstart (.afterWrite none 0) (.handle tev rest .recv)
    refine ⟨.write _ d.payload none 0, _, hstep (if_pos ⟨rfl, reads_getD _⟩), rfl, fun _ => nofun,
      ?_, ?_⟩ <;> rw [he]
    · exact hcrash
    · exact ht.numTapDevs
  | rearm => exact ⟨.rearm false, _, hstep rfl, rfl, fun _ => nofun, hcrash, rfl⟩

/-- **A worker that can go on has a quiet call to make.** -/
theorem Steady.step_of_canGo (h : Steady s) (hgo : s.CanGo w) :
    ∃ a s', Step finiteMapOps s (w, a) s' ∧ a.Quiet ∧
      (s.tunnel.numTapDevs < 2 ^ 30 → CleanAlloc s (w, a)) ∧ s'.crash = none ∧
      s'.tunnel.numTapDevs = s.tunnel.numTapDevs := by
  obtain ⟨hw, hleft, hlock⟩ := hgo
  have hholds := h.map.agree.locks.holds w
  have hcrash := h.crash
  have hguard : ¬ (s.crash.isSome ∨ s.tunnel.numQueues ≤ w) := by simp [hcrash, hw]
  have hfree : (s.workers w).lock = .free → s.Unlocked := fun hl => hlock.resolve_left fun hne => hne hl
  cases hpc : (s.workers w).pc with
  | start =>
    refine ⟨.start, (s.setTunnel { s.tunnel with queueIds := s.tunnel.queueIds + 1 }).setWorker w
      { queueId := s.tunnel.queueIds % s.tunnel.numQueues, lock := .free, pc := .epollWait }, ?_, rfl,
      fun _ => nofun, hcrash, rfl⟩
    show workerThread finiteMapOps s w .start = some _
    unfold workerThread
    rw [if_neg hguard, hpc]
  | epollWait | exited =>
    rw [hpc] at hleft
    exact absurd hleft (Nat.lt_irrefl 0)
  | rdlock batch =>
    rw [hpc] at hholds
    refine ⟨.rdlock, s.lockGoto w .read (nextEvent batch), ?_, rfl, fun _ => nofun, hcrash, rfl⟩
    show workerThread finiteMapOps s w .rdlock = some _
    unfold workerThread
    rw [if_neg hguard, hpc]
    exact if_pos (noWriter_of_unlocked (hfree hholds))
  | scopeEnd =>
    refine ⟨.unlock, s.lockGoto w .free .epollWait, ?_, rfl, fun _ => nofun, hcrash, rfl⟩
    show workerThread finiteMapOps s w .unlock = some _
    unfold workerThread
    rw [if_neg hguard, hpc]
  | handle tev rest p => exact h.step_of_point hw hpc hfree

/-- A quiet call gives no worker a datagram. -/
theorem ports_of_quiet (hstep : Step finiteMapOps s (w, a) s') (hquiet : a.Quiet)
    (h : ∀ v d, (s.workers v).pc.datagram = some d → d.src.port ≠ 0) :
    ∀ v d, (s'.workers v).pc.datagram = some d → d.src.port ≠ 0 := by
  intro v d hd
  have hs := hstep.stepOf.2.2
  rcases eq_or_ne v w with rfl | hv
  · rcases hs.datagram hd with ⟨d₀, rfl, -⟩ | ⟨-, hd₀⟩
    · cases hquiet
    · exact h v d hd₀
  · rw [hs.workers_ne hv] at hd
    exact h v d hd

/-- **A tunnel whose workers can go on is at rest or gets nearer to it.** -/
theorem Steady.progress (h : Steady s) (hroom : s.tunnel.numTapDevs < 2 ^ 30) :
    s.AtRest ∨ ∃ wa s', Step finiteMapOps s wa s' ∧ (wa.2.Quiet ∧ CleanAlloc s wa) ∧
      (Steady s' ∧ s'.tunnel.numTapDevs < 2 ^ 30) ∧ s'.left < s.left := by
  rcases exists_canGo h.map.agree.locks with hrest | ⟨w, hgo⟩
  · exact .inl hrest
  · obtain ⟨a, s', hstep, hquiet, hclean, hcrash, hnum⟩ := h.step_of_canGo hgo
    refine .inr ⟨(w, a), s', hstep, ⟨hquiet, hclean hroom⟩, ⟨⟨(h.map.step hstep).1,
      h.dev.step hstep (hclean hroom), hcrash, ports_of_quiet hstep hquiet h.ports⟩, hnum ▸ hroom⟩, ?_⟩
    have hleft := hstep.left h.dev.size
    have hzero : a.brings = 0 := hquiet
    omega

/-- What a quiet run keeps. -/
theorem invariants_of_quiet {tr : Trace (Endpoint → Option ℕ) Unit} (hmap : MapInv s) (hdev : DevInv s)
    (hports : ∀ w d, (s.workers w).pc.datagram = some d → d.src.port ≠ 0)
    (hrun : Run (Step finiteMapOps) s tr s') (hquiet : ∀ e ∈ tr, e.act.2.Quiet)
    (hclean : ∀ e ∈ tr, CleanAlloc e.pre e.act) :
    MapInv s' ∧ DevInv s' ∧ ∀ w d, (s'.workers w).pc.datagram = some d → d.src.port ≠ 0 := by
  refine hrun.invariant_of (I := fun u : MapSys => MapInv u ∧ DevInv u ∧
      ∀ w d, (u.workers w).pc.datagram = some d → d.src.port ≠ 0)
    (G := fun u wa => wa.2.Quiet ∧ CleanAlloc u wa) (fun u wa v hu hG hstep => ?_)
    (fun e he => ⟨hquiet e he, hclean e he⟩) ⟨hmap, hdev, hports⟩
  exact ⟨(hu.1.step hstep).1, hu.2.1.step hstep hG.2, ports_of_quiet hstep hG.1 hu.2.2⟩

end Steady

/-- **The tunnel drains.**  From every state that a tunnel with a finite map reaches, when nothing
more arrives (no batch, frame or datagram): no interleaving of the workers goes on for more than
`s.left` calls; one that cannot go on has brought every worker to `epoll_wait` or to its end, with
the lock free; and, unless a worker has a datagram from port 0 in hand, this can be reached
without a crash.  A worker that waits for the lock waits for one that does not wait for it. -/
theorem drains (env : CreateEnv Unit) (params : TunnelParams) (s₀ s : MapSys)
    (tr : Trace (Endpoint → Option ℕ) Unit) (hcreate : tunnelCreate finiteMapOps env params = .created s₀)
    (hrun : Run (Step finiteMapOps) s₀ tr s) (hclean : ∀ e ∈ tr, CleanAlloc e.pre e.act)
    (hcrash : s.crash = none) (hroom : s.tunnel.numTapDevs < 2 ^ 30)
    (hports : ∀ w d, (s.workers w).pc.datagram = some d → d.src.port ≠ 0) :
    (∀ tr' s', Run (Step finiteMapOps) s tr' s' → (∀ e ∈ tr', e.act.2.Quiet) →
      tr'.length ≤ s.left) ∧
    (∀ tr' s', Run (Step finiteMapOps) s tr' s' → (∀ e ∈ tr', e.act.2.Quiet) →
      (∀ e ∈ tr', CleanAlloc e.pre e.act) → s'.crash = none →
      (∀ wa u, Step finiteMapOps s' wa u → ¬ wa.2.Quiet) → s'.AtRest) ∧
    ∃ tr' s', Run (Step finiteMapOps) s tr' s' ∧ (∀ e ∈ tr', e.act.2.Quiet) ∧ s'.crash = none ∧
      s'.AtRest := by
  have hmap : MapInv s := ((mapInv_created hcreate).run hrun).1
  have hdev : DevInv s := hrun.invariant_of (fun _ _ _ hu hG hstep => hu.step hstep hG) hclean
    (devInv_created hcreate)
  refine ⟨fun tr' s' hrun' hquiet => ?_, fun tr' s' hrun' hquiet hclean' hcrash' hstuck => ?_, ?_⟩
  · have hsteps := fun (e : Event MapSys (ℕ × Action Unit)) (he : e ∈ tr') =>
      hrun'.pre_of_mem (I := fun u => u.tunnel.numTapDevs ≤ u.tunnel.tapDevs.length)
        (G := fun _ _ => True) (fun u wa v hu _ hstep => (hstep.stepOf.2.2.extends hu).size)
        (fun _ _ => trivial) hdev.size he
    have hle : tr'.length + s'.left ≤ (tr'.map fun _ => 0).sum + s.left :=
      Potential.length_le hrun' fun e he => by
        have hleft : 1 + e.post.left ≤ e.act.2.brings + e.pre.left :=
          (hsteps e he).2.left (hsteps e he).1
        rwa [(hquiet e he : e.act.2.brings = 0)] at hleft
    have hnothing : (tr'.map fun _ => 0).sum = 0 := by simp
    omega
  · obtain ⟨hmap', hdev', hports'⟩ := invariants_of_quiet hmap hdev hports hrun' hquiet hclean'
    have hsteady : Steady s' := ⟨hmap', hdev', hcrash', hports'⟩
    rcases exists_canGo hmap'.agree.locks with hrest | ⟨w, hgo⟩
    · exact hrest
    · obtain ⟨a, u, hstep, hq, -⟩ := hsteady.step_of_canGo hgo
      exact absurd hq (hstuck _ _ hstep)
  · obtain ⟨tr', s', hrun', hall, hsteady, hrest⟩ := Potential.exists_rest
      (I := fun u => Steady u ∧ u.tunnel.numTapDevs < 2 ^ 30)
      (G := fun e : Event MapSys (ℕ × Action Unit) => e.act.2.Quiet ∧ CleanAlloc e.pre e.act)
      (fun u hu => hu.1.progress hu.2) (⟨⟨hmap, hdev, hcrash, hports⟩, hroom⟩ : Steady s ∧ _)
    exact ⟨tr', s', hrun', fun e he => (hall e he).1, hsteady.1.crash, hrest⟩

/-- A worker waits for the write lock with a datagram in hand, while another has the read
lock. -/
def standoffActions : List (ℕ × Action Unit) :=
  (wakeActions Unit ++ ([.recvfrom (some ⟨true, switchHost 1, []⟩), .lookup (), .unlock] :
      List (Action Unit))).map (0, ·) ++
    ([.start, .epollWait (some [(udpRegistration 11).data]), .rdlock] : List (Action Unit)).map (1, ·)

theorem exists_standoff : ∃ (s₀ s : MapSys) (tr : Trace (Endpoint → Option ℕ) Unit),
    tunnelCreate finiteMapOps (openEnv ()) (openParams 2) = .created s₀ ∧
    Run (Step finiteMapOps) s₀ tr s ∧ tr.map (·.act) = standoffActions ∧
    s.crash = none ∧ s.left = 11 ∧ s.tunnel.numTapDevs = 0 ∧
    ∀ w d, (s.workers w).pc.datagram = some d → d.src.port ≠ 0 := by
  have htest : ∃ s₀ : MapSys,
      tunnelCreate finiteMapOps (openEnv ()) (openParams 2) = .created s₀ ∧
      (exec (sysStep finiteMapOps) s₀ standoffActions).any (fun s => s.crash.isNone && s.left == 11 &&
        s.tunnel.numTapDevs == 0 && s.tunnel.numQueues == 2 &&
        (s.workers 0).pc.datagram == some ⟨true, switchHost 1, []⟩ &&
        (s.workers 1).pc.datagram == none) = true := ⟨_, rfl, by decide +kernel⟩
  obtain ⟨s₀, hcreate, hany⟩ := htest
  obtain ⟨s, hs, htest⟩ := (Option.any_eq_true _ _).1 hany
  obtain ⟨tr, hrun, hacts⟩ := run_of_exec hs
  simp only [Bool.and_eq_true, beq_iff_eq, Option.isNone_iff_eq_none] at htest
  obtain ⟨⟨⟨⟨⟨hcrash, hleft⟩, hdevs⟩, hnum⟩, hzero⟩, hone⟩ := htest
  refine ⟨s₀, s, tr, hcreate, hrun, hacts, hcrash, hleft, hdevs, fun w d hd => ?_⟩
  have hidle := ((mapInv_created hcreate).run hrun).1.agree.locks.idle
  rcases Nat.lt_or_ge w 2 with hw | hw
  · obtain rfl | rfl : w = 0 ∨ w = 1 := by omega
    · rw [hzero] at hd
      obtain rfl := Option.some.inj hd
      decide
    · rw [hone] at hd
      cases hd
  · rw [hidle w (hnum ▸ hw)] at hd
    cases hd

theorem calls_le_standoff : ∃ (s₀ s : MapSys) (tr : Trace (Endpoint → Option ℕ) Unit),
    tunnelCreate finiteMapOps (openEnv ()) (openParams 2) = .created s₀ ∧
    Run (Step finiteMapOps) s₀ tr s ∧ tr.map (·.act) = standoffActions ∧ s.left = 11 ∧
    tr.length + s.left ≤ (tr.map fun e => e.act.2.brings).sum + s₀.tunnel.numQueues := by
  obtain ⟨s₀, s, tr, hcreate, hrun, hacts, -, hleft, -⟩ := exists_standoff
  exact ⟨s₀, s, tr, hcreate, hrun, hacts, hleft,
    calls_le finiteMapOps (openEnv ()) (openParams 2) s₀ s tr hcreate hrun⟩

theorem drains_standoff : ∃ (s₀ s : MapSys) (tr : Trace (Endpoint → Option ℕ) Unit),
    tunnelCreate finiteMapOps (openEnv ()) (openParams 2) = .created s₀ ∧
    Run (Step finiteMapOps) s₀ tr s ∧ s.left = 11 ∧
    ∃ tr' s', Run (Step finiteMapOps) s tr' s' ∧ (∀ e ∈ tr', e.act.2.Quiet) ∧ s'.crash = none ∧
      s'.AtRest := by
  obtain ⟨s₀, s, tr, hcreate, hrun, hacts, hcrash, hleft, hdevs, hports⟩ := exists_standoff
  have hclean : ∀ e ∈ tr, CleanAlloc e.pre e.act := by
    intro e he env henv
    have hmem : (e.act.1, e.act.2) ∈ standoffActions := hacts ▸ List.mem_map_of_mem he
    rw [henv] at hmem
    simp [standoffActions, wakeActions] at hmem
  exact ⟨s₀, s, tr, hcreate, hrun, hleft, (drains (openEnv ()) (openParams 2) s₀ s tr hcreate hrun hclean
    hcrash (by omega) hports).2.2⟩

end UdpEthTunnel
