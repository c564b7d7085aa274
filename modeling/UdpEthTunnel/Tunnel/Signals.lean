/-
# SIGUSR1 and the lock

`print_stats_handler` of `src/main.c` runs `tunnel_print_stats` in whatever thread
SIGUSR1 interrupts, and that takes the read lock with `pthread_rwlock_scope_rdlock`
of `src/util.h`, which unlocks at the end of its scope whether or not the lock call
succeeded.  A thread that holds the lock for writing is refused the read lock, so
the handler then releases the lock of the code it has interrupted.

`tunnel_create` means to keep signals away from the workers, but passes no set to
`pthread_sigmask`; the workers inherit the mask as it was.
-/

import UdpEthTunnel.Tunnel.FiniteMap
import UdpEthTunnel.Tunnel.Trace

namespace UdpEthTunnel

open Tunnel Runs

/-- `sigset_t`. -/
abbrev SigSet := ℕ → Bool

def SIGUSR1 : ℕ := 10

/-- `pthread_sigmask(SIG_BLOCK, set, …)`: the mask it leaves.  Without a set the mask
stays as it is. -/
def pthreadSigmaskBlock (set : Option SigSet) (mask : SigSet) : SigSet :=
  match set with
  | none => mask
  | some set => fun sig => mask sig || set sig

/-- A thread of the process: a worker of the tunnel, or any other. -/
inductive Thread where
  | worker (w : ℕ)
  | other (i : ℕ)
deriving DecidableEq, Repr

/-- Where the handler of SIGUSR1 stands in a thread: it does not run, or it is inside
the scope of the read lock, which it was given or refused. -/
inductive Handler where
  | idle
  | locked
  | refused
deriving DecidableEq, Repr

/-- The process with its signal handlers. -/
structure SigSys (M : Type) where
  sys : Sys M
  mask : Thread → SigSet
  handler : Thread → Handler

/-- How the code that a signal interrupts in a thread holds the lock. -/
def Thread.lock {M : Type} (s : Sys M) : Thread → LockMode
  | .worker w => (s.workers w).lock
  | .other _ => .free

inductive SigAction (E : Type) where
  /-- a call of a worker -/
  | worker (w : ℕ) (a : Action E)
  /-- SIGUSR1 is delivered, and `pthread_rwlock_rdlock` has returned to the handler -/
  | interrupt (th : Thread)
  /-- the handler has printed; `pthread_rwlock_unlock`, and the thread goes on -/
  | handlerUnlock (th : Thread)

namespace SigSys

variable {M : Type}

/-- The process as `tunnel_create` leaves it, called under the given mask. -/
def start (s : Sys M) (mask : SigSet) : SigSys M :=
  { sys := s, mask := fun _ => pthreadSigmaskBlock none mask, handler := fun _ => .idle }

def setHandler (s : SigSys M) (th : Thread) (h : Handler) : SigSys M :=
  { s with handler := Function.update s.handler th h }

/-- How many times a thread holds the lock. -/
def held (s : SigSys M) (th : Thread) : ℕ :=
  (if th.lock s.sys = .free then 0 else 1) + if s.handler th = .locked then 1 else 0

end SigSys

/-- The lock of a worker is released under its feet. -/
def Sys.dropLock {M : Type} (s : Sys M) (w : ℕ) : Sys M :=
  s.setWorker w { s.workers w with lock := .free }

/-- **A step of the process with its signal handlers.** -/
inductive SigStep {M E : Type} (ops : MapOps M E) (s : SigSys M) :
    SigAction E → SigSys M → Prop
  | worker (w : ℕ) (a : Action E) (sys : Sys M) :
      s.handler (.worker w) = .idle → (a = .wrlock → ∀ th, s.handler th ≠ .locked) →
      Step ops s.sys (w, a) sys → SigStep ops s (.worker w a) { s with sys := sys }
  | interrupt (th : Thread) :
      s.sys.crash = none → s.mask th SIGUSR1 = false → s.handler th = .idle →
      th.lock s.sys ≠ .write → s.sys.NoWriter →
      SigStep ops s (.interrupt th) (s.setHandler th .locked)
  -- `EDEADLK`: the thread holds the lock for writing
  | refused (th : Thread) :
      s.sys.crash = none → s.mask th SIGUSR1 = false → s.handler th = .idle →
      th.lock s.sys = .write →
      SigStep ops s (.interrupt th) (s.setHandler th .refused)
  | handlerUnlock (th : Thread) :
      s.sys.crash = none → s.handler th = .locked →
      SigStep ops s (.handlerUnlock th) (s.setHandler th .idle)
  -- there is no lock of the handler to release, so it is that of the worker
  | unlockWorker (w : ℕ) :
      s.sys.crash = none → s.handler (.worker w) = .refused →
      SigStep ops s (.handlerUnlock (.worker w))
        ({ s with sys := s.sys.dropLock w }.setHandler (.worker w) .idle)

/-- The points at which a worker reads or changes the map or the table of devices. -/
def Point.UsesTables : Point → Prop
  | .tapRead | .tapSend _ | .lookup _ | .relookup _ | .alloc _ | .add _ _ | .write _ _ => True
  | .recv | .unlockMiss _ | .wrlock _ | .unlockHit _ _ | .rdlock _ _ | .rearm => False

/-- The points at which a worker is inside `tunnel_alloc_new_tap` or
`endpoint_map_add`. -/
def Point.Grows : Point → Prop
  | .alloc _ | .add _ _ => True
  | _ => False

/-- A worker is about to unlock. -/
def Pc.Unlocks : Pc → Prop
  | .scopeEnd | .handle _ _ (.unlockMiss _) | .handle _ _ (.unlockHit _ _) => True
  | _ => False

/-- **The discipline of the lock.** -/
structure Disciplined {M : Type} (s : SigSys M) : Prop where
  /-- what a worker unlocks it has locked -/
  matched : ∀ w, (s.sys.workers w).pc.Unlocks → (s.sys.workers w).lock ≠ .free
  /-- and so for the unlock that ends a run of the handler -/
  handlers : ∀ th, s.handler th ≠ .refused
  once : ∀ w p, (s.sys.workers w).pc.point = some p → p.UsesTables →
    s.handler (.worker w) = .idle → s.held (.worker w) = 1
  alone : ∀ w p, (s.sys.workers w).pc.point = some p → p.Grows →
    (s.sys.workers w).lock = .write ∧ ∀ th, th ≠ .worker w → s.held th = 0

/-- A step that does not deliver SIGUSR1 to a worker that holds the write lock. -/
def Undisturbed {M E : Type} (s : SigSys M) (a : SigAction E) : Prop :=
  ∀ w, a = .interrupt (.worker w) → (s.sys.workers w).lock ≠ .write

/-- A handler that holds the lock was given it while no worker wrote, and keeps
writers out. -/
structure SigInv {M : Type} (s : SigSys M) : Prop where
  lock : LockInv s.sys
  size : s.sys.tunnel.numTapDevs ≤ s.sys.tunnel.tapDevs.length
  handlers : ∀ th, s.handler th ≠ .refused
  readers : ∀ th, s.handler th = .locked → ∀ v, (s.sys.workers v).lock ≠ .write

section Signals

variable {M E : Type} {ops : MapOps M E} {s s' : SigSys M} {a : SigAction E}

@[simp] theorem SigSys.sys_setHandler (th : Thread) (h : Handler) :
    (s.setHandler th h).sys = s.sys := rfl

theorem SigSys.handler_setHandler (th th' : Thread) (h : Handler) :
    (s.setHandler th h).handler th' = if th' = th then h else s.handler th' :=
  Function.update_apply ..

/-- **The attempt to keep signals away from the workers does nothing.** -/
theorem mask_start (s : Sys M) (mask : SigSet) (th : Thread) :
    (SigSys.start s mask).mask th = mask := rfl

theorem point_eq_some {pc : Pc} {p : Point} :
    pc.point = some p ↔ ∃ tev rest, pc = .handle tev rest p := by
  cases pc <;> simp [Pc.point]

theorem ne_free_of_write {l : LockMode} (h : l = .write) : l ≠ .free := by
  rw [h]
  decide

/-- Where a worker uses the map or the table of devices it holds the lock. -/
theorem ne_free_of_uses {tev : TunnelEpollEvent} {rest : List TunnelEpollEvent} {p : Point}
    {l : LockMode} (h : (Pc.handle tev rest p).Holds l) (hp : p.UsesTables) : l ≠ .free := by
  cases p with
  | relookup | alloc | add => exact ne_free_of_write h
  | tapRead | tapSend | lookup | write => exact h
  | _ => exact hp.elim

/-- Where a worker unlocks it holds the lock. -/
theorem ne_free_of_unlocks {pc : Pc} {l : LockMode} (h : pc.Holds l) (hu : pc.Unlocks) :
    l ≠ .free := by
  cases pc with
  | scopeEnd => exact h
  | handle tev rest p =>
    cases p with
    | unlockMiss => exact h
    | unlockHit => exact ne_free_of_write h
    | _ => exact hu.elim
  | _ => exact hu.elim

theorem writer_of_grows {p : Point} (h : p.Grows) : p.Writer := by
  cases p with
  | alloc | add => trivial
  | _ => exact h.elim

/-- A worker comes to hold the write lock only by asking for it. -/
theorem StepOf.lock_write {u u' : Sys M} {w : ℕ} {a : Action E} (h : StepOf ops u w a u')
    (hl : (u'.workers w).lock = .write) : (u.workers w).lock = .write ∨ a = .wrlock := by
  have haccount : ∀ {id f pc}, ((u.account w id f pc).workers w).lock = .write →
      (u.workers w).lock = .write := by
    intro id f pc hl
    rcases u.account_cases w id f pc with he | ⟨t, -, he⟩ <;> rw [he] at hl
    · exact hl
    · rwa [Sys.workers_goto, if_pos rfl] at hl
  cases h with
  | sendto => exact .inl (haccount hl)
  | write => exact .inl (haccount hl)
  | wrlock => exact .inr rfl
  | start => simp [Sys.workers_setWorker] at hl
  | rdlockBatch | scopeEnd | unlockMiss | unlockHit | rdlockHit =>
    rw [Sys.workers_lockGoto, if_pos rfl] at hl
    cases hl
  | dieInMap | dieInAlloc => exact .inl hl
  | _ =>
    rw [Sys.workers_goto, if_pos rfl] at hl
    exact .inl hl

/-- A step of a worker that leaves the lock to its readers. -/
theorem SigInv.worker (h : SigInv s) {w : ℕ} {a : Action E} {sys : Sys M}
    (hwrlock : a = .wrlock → ∀ th, s.handler th ≠ .locked) (hstep : Step ops s.sys (w, a) sys) :
    SigInv { s with sys := sys } := by
  obtain ⟨-, -, hs⟩ := hstep.stepOf
  refine ⟨h.lock.step h.size hstep, (hs.extends h.size).size, h.handlers, fun th hth v hv => ?_⟩
  rcases eq_or_ne v w with rfl | hne
  · rcases hs.lock_write hv with hl | ha
    · exact h.readers th hth v hl
    · exact hwrlock ha th hth
  · have hv' : (sys.workers v).lock = .write := hv
    rw [hs.workers_ne hne] at hv'
    exact h.readers th hth v hv'

/-- A handler that the lock allows to start, or that ends. -/
theorem SigInv.setHandler (h : SigInv s) {th : Thread} {x : Handler} (hx : x ≠ .refused)
    (hlocked : x = .locked → s.sys.NoWriter) : SigInv (s.setHandler th x) := by
  refine ⟨h.lock, h.size, fun th' => ?_, fun th' hth' => ?_⟩
  · rw [SigSys.handler_setHandler]
    split_ifs
    · exact hx
    · exact h.handlers th'
  · rw [SigSys.handler_setHandler] at hth'
    split_ifs at hth' with heq
    · exact h.lock.ne_write_of_noWriter (hlocked hth')
    · exact h.readers th' hth'

/-- The handler is refused the read lock in a worker that holds the write lock. -/
theorem SigStep.refused_of_write {w : ℕ} (h : SigStep ops s (.interrupt (.worker w)) s')
    (hl : (s.sys.workers w).lock = .write) : s'.handler (.worker w) = .refused := by
  cases h with
  | interrupt _ _ _ _ hne => exact absurd hl hne
  | refused => rw [SigSys.handler_setHandler, if_pos rfl]

/-- **Every undisturbed step keeps the invariant.** -/
theorem SigInv.step (h : SigInv s) (hu : Undisturbed s a) (hstep : SigStep ops s a s') :
    SigInv s' := by
  cases hstep with
  | worker w a sys hidle hwrlock hstep => exact h.worker hwrlock hstep
  | interrupt th _ _ _ _ hno => exact h.setHandler nofun fun _ => hno
  | refused th _ _ _ hl =>
    cases th with
    | worker w => exact absurd hl (hu w rfl)
    | other i => cases hl
  | handlerUnlock th _ _ => exact h.setHandler nofun nofun
  | unlockWorker w _ hrefused => exact absurd hrefused (h.handlers _)

/-- **The invariant is the discipline.** -/
theorem SigInv.disciplined (h : SigInv s) : Disciplined s := by
  refine ⟨fun w => ne_free_of_unlocks (h.lock.holds w), h.handlers,
    fun w p hp huses hidle => ?_, fun w p hp hgrows => ?_⟩
  · obtain ⟨tev, rest, hpc⟩ := point_eq_some.1 hp
    have hl := h.lock.holds w
    rw [hpc] at hl
    have hne : (Thread.worker w).lock s.sys ≠ .free := ne_free_of_uses hl huses
    unfold SigSys.held
    rw [if_neg hne, if_neg (by rw [hidle]; decide)]
  · obtain ⟨tev, rest, hpc⟩ := point_eq_some.1 hp
    have hwrite := h.lock.write_of_point hpc (writer_of_grows hgrows)
    refine ⟨hwrite, fun th hth => ?_⟩
    have hlocked : s.handler th ≠ .locked := fun hl => h.readers th hl w hwrite
    have hfree : th.lock s.sys = .free := by
      cases th with
      | worker v => exact h.lock.excl w v (fun heq => hth (heq ▸ rfl)) hwrite
      | other => rfl
    unfold SigSys.held
    rw [if_pos hfree, if_neg hlocked]

theorem sigInv_start {env : CreateEnv E} {params : TunnelParams} {s₀ : Sys M} (mask : SigSet)
    (hcreate : tunnelCreate ops env params = .created s₀) : SigInv (SigSys.start s₀ mask) := by
  obtain ⟨hidle, -⟩ := tunnelCreate_created hcreate
  have hlock : ∀ v, (s₀.workers v).lock = .free := fun v => by rw [hidle v]
  refine ⟨⟨fun _ w _ _ => hlock w, fun w => ?_, fun w _ => hidle w⟩, size_of_created hcreate,
    nofun, nofun⟩
  show (s₀.workers w).pc.Holds (s₀.workers w).lock
  rw [hidle w]
  rfl

end Signals

/-- **The discipline of the lock holds along a run if and only if no worker is
interrupted while it holds the write lock.**  `print_stats_handler` asks for the read lock in
the thread that SIGUSR1 has interrupted.  A thread that holds the lock for writing is refused
it, and `scope_rdlock` releases the lock all the same, at the end of its scope: the write
lock, under which the worker still changes the map. -/
theorem disciplined_iff {M E : Type} (ops : MapOps M E) (env : CreateEnv E) (params : TunnelParams)
    (mask : SigSet) (s₀ : Sys M) (s : SigSys M) (tr : List (Event (SigSys M) (SigAction E)))
    (hcreate : tunnelCreate ops env params = .created s₀)
    (hrun : Run (SigStep ops) (SigSys.start s₀ mask) tr s) :
    (Disciplined (SigSys.start s₀ mask) ∧ ∀ e ∈ tr, Disciplined e.post) ↔
      ∀ e ∈ tr, Undisturbed e.pre e.act := by
  have hstart := sigInv_start mask hcreate
  constructor
  · rintro ⟨-, hpost⟩ e he w hact hl
    obtain ⟨tr₁, tr₂, rfl⟩ := List.append_of_mem he
    obtain ⟨-, hstep, -⟩ := hrun.cut
    rw [hact] at hstep
    exact (hpost e he).handlers _ (hstep.refused_of_write hl)
  · intro hu
    refine ⟨hstart.disciplined, fun e he => ?_⟩
    obtain ⟨hpre, hstep⟩ := hrun.pre_of_mem (I := SigInv) (G := Undisturbed)
      (fun _ _ _ h hu hstep => h.step hu hstep) hu hstart he
    exact (hpre.step (hu e he) hstep).disciplined

/-- A run without signals. -/
theorem sigRun_of_run {M E : Type} {ops : MapOps M E} {s s' : Sys M} {tr : Trace M E}
    (mask : SigSet) (hrun : Run (Step ops) s tr s') :
    ∃ tr', Run (SigStep ops) (SigSys.start s mask) tr' (SigSys.start s' mask) ∧
      ∀ e ∈ tr', Undisturbed e.pre e.act := by
  induction hrun with
  | nil => exact ⟨[], .nil _, fun _ he => absurd he List.not_mem_nil⟩
  | @snoc u v tr wa hrun hstep ih =>
    obtain ⟨tr', hrun', hu⟩ := ih
    have hstep' : SigStep ops (SigSys.start u mask) (.worker wa.1 wa.2) (SigSys.start v mask) :=
      .worker wa.1 wa.2 v rfl (fun _ => nofun) hstep
    refine ⟨_, hrun'.snoc hstep', fun e he => ?_⟩
    rcases List.mem_append.1 he with he | he
    · exact hu e he
    · obtain rfl := List.mem_singleton.1 he
      exact nofun

/-- A worker that holds the lock for reading is interrupted, and holds it twice. -/
theorem disciplined_reader : ∃ s₀ s tr,
    tunnelCreate finiteMapOps (openEnv ()) (openParams 2) = .created s₀ ∧
      Run (SigStep finiteMapOps) (SigSys.start s₀ fun _ => false) tr s ∧ s.held (.worker 0) = 2 ∧
      Disciplined (SigSys.start s₀ fun _ => false) ∧ ∀ e ∈ tr, Disciplined e.post := by
  have hreplay : ∃ s₀, tunnelCreate finiteMapOps (openEnv ()) (openParams 2) = .created s₀ ∧
      ∃ s, replay finiteMapOps s₀ 0 (wakeActions Unit) = some s ∧
        s.crash = none ∧ (s.workers 0).lock = .read ∧ s.NoWriter :=
    ⟨_, rfl, _, rfl, rfl, rfl, by decide⟩
  obtain ⟨s₀, hcreate, s, hexec, hcrash, hread, hno⟩ := hreplay
  obtain ⟨tr, hbase, -⟩ := run_of_exec hexec
  obtain ⟨tr', hrun, hu⟩ := sigRun_of_run (fun _ => false) hbase
  have hne : (s.workers 0).lock ≠ .write := by
    rw [hread]
    decide
  have hrun' := hrun.snoc (.interrupt (.worker 0) hcrash rfl rfl hne hno)
  refine ⟨s₀, _, _, hcreate, hrun', ?_,
    (disciplined_iff finiteMapOps _ _ _ s₀ _ _ hcreate hrun').2 fun e he => ?_⟩
  · show (if (s.workers 0).lock = .free then 0 else 1) + 1 = 2
    rw [if_neg (by rw [hread]; decide)]
  · rcases List.mem_append.1 he with he | he
    · exact hu e he
    · obtain rfl := List.mem_singleton.1 he
      intro w hw
      obtain rfl : 0 = w := by
        injection hw with hw
        injection hw
      exact hne

/-- A worker receives a datagram from a new endpoint and gets as far as the call of
`tunnel_alloc_new_tap`. -/
def missActions (src : Endpoint) : List (Action Unit) :=
  List.append (wakeActions Unit)
    [.recvfrom (some ⟨true, src, []⟩), .lookup (), .unlock, .wrlock, .lookup ()]

/-- **A signal takes the write lock away**: a worker that is interrupted before it
calls `tunnel_alloc_new_tap` makes that call without the lock. -/
theorem disciplined_fails : ¬ ∀ (env : CreateEnv Unit) (params : TunnelParams) (mask : SigSet)
    (s₀ : Sys (Endpoint → Option ℕ)) (s : SigSys (Endpoint → Option ℕ))
    (tr : List (Event (SigSys (Endpoint → Option ℕ)) (SigAction Unit))),
    tunnelCreate finiteMapOps env params = .created s₀ →
      Run (SigStep finiteMapOps) (SigSys.start s₀ mask) tr s → Disciplined s := by
  intro h
  have hreplay : ∃ s₀, tunnelCreate finiteMapOps (openEnv ()) (openParams 2) = .created s₀ ∧
      ∃ s, replay finiteMapOps s₀ 0 (missActions (switchHost 2)) = some s ∧
        s.crash = none ∧ (s.workers 0).lock = .write ∧
        (s.workers 0).pc.point = some (.alloc ⟨true, switchHost 2, []⟩) :=
    ⟨_, rfl, _, rfl, rfl, rfl, rfl⟩
  obtain ⟨s₀, hcreate, s, hexec, hcrash, hwrite, hpoint⟩ := hreplay
  obtain ⟨tr, hbase, -⟩ := run_of_exec hexec
  obtain ⟨tr', hrun, -⟩ := sigRun_of_run (fun _ => false) hbase
  have hrun' := (hrun.snoc (.refused (.worker 0) hcrash rfl rfl hwrite)).snoc
    (.unlockWorker 0 hcrash rfl)
  have hpoint' : (((s.dropLock 0).workers 0).pc).point = some (.alloc ⟨true, switchHost 2, []⟩) := by
    unfold Sys.dropLock
    rwa [Sys.workers_setWorker, if_pos rfl]
  have hlock := ((h _ _ _ s₀ _ _ hcreate hrun').alone 0 _ hpoint' trivial).1
  have hfree : ((s.dropLock 0).workers 0).lock = .free := by
    unfold Sys.dropLock
    rw [Sys.workers_setWorker, if_pos rfl]
  exact absurd (hfree.symm.trans hlock) nofun

end UdpEthTunnel
