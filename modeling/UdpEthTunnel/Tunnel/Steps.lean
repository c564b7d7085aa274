/-
# What a step of a worker does

`workerThread` read backwards, once for all the invariants: `StepOf` has a
constructor for each way a step can go, with the guard it passed and the state it
leaves, and `Step.stepOf` says that there are no others.  The lock invariant and
the facts about what a step leaves alone follow by cases on it.
-/

import UdpEthTunnel.Tunnel.Worker

namespace UdpEthTunnel

section Simp

variable {M : Type} (s : Sys M) (w v : ℕ) (pc : Pc) (l : LockMode) (t : Tunnel M) (x : Worker)

namespace Sys

@[simp] theorem tunnel_goto : (s.goto w pc).tunnel = s.tunnel := rfl
@[simp] theorem epoll_goto : (s.goto w pc).epoll = s.epoll := rfl
@[simp] theorem crash_goto : (s.goto w pc).crash = s.crash := rfl
@[simp] theorem tunnel_lockGoto : (s.lockGoto w l pc).tunnel = s.tunnel := rfl
@[simp] theorem epoll_lockGoto : (s.lockGoto w l pc).epoll = s.epoll := rfl
@[simp] theorem crash_lockGoto : (s.lockGoto w l pc).crash = s.crash := rfl
@[simp] theorem tunnel_setWorker : (s.setWorker w x).tunnel = s.tunnel := rfl
@[simp] theorem epoll_setWorker : (s.setWorker w x).epoll = s.epoll := rfl
@[simp] theorem crash_setWorker : (s.setWorker w x).crash = s.crash := rfl
@[simp] theorem tunnel_setTunnel : (s.setTunnel t).tunnel = t := rfl
@[simp] theorem epoll_setTunnel : (s.setTunnel t).epoll = s.epoll := rfl
@[simp] theorem workers_setTunnel : (s.setTunnel t).workers = s.workers := rfl
@[simp] theorem crash_setTunnel : (s.setTunnel t).crash = s.crash := rfl
@[simp] theorem tunnel_setEpoll (e : EpollSets) : (s.setEpoll e).tunnel = s.tunnel := rfl
@[simp] theorem epoll_setEpoll (e : EpollSets) : (s.setEpoll e).epoll = e := rfl
@[simp] theorem workers_setEpoll (e : EpollSets) : (s.setEpoll e).workers = s.workers := rfl
@[simp] theorem crash_setEpoll (e : EpollSets) : (s.setEpoll e).crash = s.crash := rfl
@[simp] theorem tunnel_arm (f : Registration → Bool) : (s.arm w f).tunnel = s.tunnel := rfl
@[simp] theorem workers_arm (f : Registration → Bool) : (s.arm w f).workers = s.workers := rfl
@[simp] theorem crash_arm (f : Registration → Bool) : (s.arm w f).crash = s.crash := rfl
@[simp] theorem tunnel_die (c : Crash) : (s.die c).tunnel = s.tunnel := rfl
@[simp] theorem epoll_die (c : Crash) : (s.die c).epoll = s.epoll := rfl
@[simp] theorem workers_die (c : Crash) : (s.die c).workers = s.workers := rfl
@[simp] theorem crash_die (c : Crash) : (s.die c).crash = some c := rfl

theorem workers_setWorker :
    (s.setWorker w x).workers v = if v = w then x else s.workers v := Function.update_apply ..

theorem workers_goto :
    (s.goto w pc).workers v = if v = w then { s.workers w with pc := pc } else s.workers v :=
  Function.update_apply ..

theorem workers_lockGoto : (s.lockGoto w l pc).workers v =
    if v = w then { s.workers w with lock := l, pc := pc } else s.workers v :=
  Function.update_apply ..

theorem epoll_arm (q : ℕ) (f : Registration → Bool) : (s.arm w f).epoll q =
    if q = w then (s.epoll q).map fun r => { r with armed := f r } else s.epoll q := by
  show Function.update s.epoll w _ q = _
  rw [Function.update_apply]
  split_ifs with h
  · rw [h]
  · rfl

end Sys

end Simp

/-- The ways a step of worker `w` can go. -/
inductive StepOf {M E : Type} (ops : MapOps M E) (s : Sys M) (w : ℕ) : Action E → Sys M → Prop
  | start (hpc : (s.workers w).pc = .start) :
      StepOf ops s w .start
        ((s.setTunnel { s.tunnel with queueIds := s.tunnel.queueIds + 1 }).setWorker w
          { queueId := s.tunnel.queueIds % s.tunnel.numQueues, lock := .free, pc := .epollWait })
  | epollFail (hpc : (s.workers w).pc = .epollWait) :
      StepOf ops s w (.epollWait none) (s.goto w .exited)
  | epollWait (batch : List TunnelEpollEvent) (hpc : (s.workers w).pc = .epollWait)
      (hbatch : IsBatch (s.epoll (s.workers w).queueId) batch) :
      StepOf ops s w (.epollWait (some batch))
        ((s.arm (s.workers w).queueId fun reg => reg.armed && !batch.contains reg.data).goto w
          (.rdlock batch))
  | rdlockBatch (batch : List TunnelEpollEvent) (hpc : (s.workers w).pc = .rdlock batch)
      (hlock : s.NoWriter) :
      StepOf ops s w .rdlock (s.lockGoto w .read (nextEvent batch))
  | scopeEnd (hpc : (s.workers w).pc = .scopeEnd) :
      StepOf ops s w .unlock (s.lockGoto w .free .epollWait)
  | read (tev : TunnelEpollEvent) (rest : List TunnelEpollEvent) (fd : Fd) (r : Option Bytes)
      (hpc : (s.workers w).pc = .handle tev rest .tapRead)
      (hfd : Reads (s.tunnel.tapFd tev.tapId.toInt (s.workers w).queueId) fd) :
      StepOf ops s w (.read tev.tapId.toInt fd r)
        (s.goto w (.handle tev rest (r.elim .rearm fun frame =>
          .tapSend (frame.take (2 * s.tunnel.mtu)))))
  | sendto (tev : TunnelEpollEvent) (rest : List TunnelEpollEvent) (frame : Bytes) (dst : Endpoint)
      (r : Option ℕ) (now : Int) (hpc : (s.workers w).pc = .handle tev rest (.tapSend frame))
      (hdst : Reads (s.tunnel.remote tev.tapId.toInt) dst) :
      StepOf ops s w (.sendto frame dst r now)
        (s.account w tev.tapId.toInt (.afterSend r now) (.handle tev rest .tapRead))
  | recvfrom (tev : TunnelEpollEvent) (rest : List TunnelEpollEvent) (r : Option Datagram)
      (hpc : (s.workers w).pc = .handle tev rest .recv) :
      StepOf ops s w (.recvfrom r) (s.goto w (.handle tev rest (afterRecv s.tunnel.mtu r)))
  | lookup (tev : TunnelEpollEvent) (rest : List TunnelEpollEvent) (d : Datagram) (env : E)
      (tapId : Int) (hpc : (s.workers w).pc = .handle tev rest (.lookup d))
      (hlookup : ops.lookup env s.tunnel.map d.src = .ret tapId) :
      StepOf ops s w (.lookup env)
        (s.goto w (.handle tev rest (afterLookup (s.tunnel.allows d.src.addr) tapId d)))
  | unlockMiss (tev : TunnelEpollEvent) (rest : List TunnelEpollEvent) (d : Datagram)
      (hpc : (s.workers w).pc = .handle tev rest (.unlockMiss d)) :
      StepOf ops s w .unlock (s.lockGoto w .free (.handle tev rest (.wrlock d)))
  | wrlock (tev : TunnelEpollEvent) (rest : List TunnelEpollEvent) (d : Datagram)
      (hpc : (s.workers w).pc = .handle tev rest (.wrlock d)) (hlock : s.Unlocked) :
      StepOf ops s w .wrlock (s.lockGoto w .write (.handle tev rest (.relookup d)))
  | relookup (tev : TunnelEpollEvent) (rest : List TunnelEpollEvent) (d : Datagram) (env : E)
      (tapId : Int) (hpc : (s.workers w).pc = .handle tev rest (.relookup d))
      (hlookup : ops.lookup env s.tunnel.map d.src = .ret tapId) :
      StepOf ops s w (.lookup env) (s.goto w (.handle tev rest (afterRelookup tapId d)))
  | unlockHit (tev : TunnelEpollEvent) (rest : List TunnelEpollEvent) (id : Int) (d : Datagram)
      (hpc : (s.workers w).pc = .handle tev rest (.unlockHit id d)) :
      StepOf ops s w .unlock (s.lockGoto w .free (.handle tev rest (.rdlock id d)))
  | rdlockHit (tev : TunnelEpollEvent) (rest : List TunnelEpollEvent) (id : Int) (d : Datagram)
      (hpc : (s.workers w).pc = .handle tev rest (.rdlock id d)) (hlock : s.NoWriter) :
      StepOf ops s w .rdlock (s.lockGoto w .read (.handle tev rest (.write id d)))
  | allocFail (tev : TunnelEpollEvent) (rest : List TunnelEpollEvent) (d : Datagram)
      (env : AllocTapEnv) (t : Tunnel M) (epoll : EpollSets)
      (hpc : (s.workers w).pc = .handle tev rest (.alloc d))
      (halloc : tunnelAllocNewTap env s.tunnel s.epoll d.src = .ret none t epoll) :
      StepOf ops s w (.allocNewTap env)
        (((s.setTunnel t).setEpoll epoll).goto w (.handle tev rest .recv))
  | alloc (tev : TunnelEpollEvent) (rest : List TunnelEpollEvent) (d : Datagram)
      (env : AllocTapEnv) (id : ℕ) (t : Tunnel M) (epoll : EpollSets)
      (hpc : (s.workers w).pc = .handle tev rest (.alloc d))
      (halloc : tunnelAllocNewTap env s.tunnel s.epoll d.src = .ret (some id) t epoll) :
      StepOf ops s w (.allocNewTap env)
        (((s.setTunnel t).setEpoll epoll).goto w (.handle tev rest (.add id d)))
  | add (tev : TunnelEpollEvent) (rest : List TunnelEpollEvent) (id : ℕ) (d : Datagram) (env : E)
      (map : M) (hpc : (s.workers w).pc = .handle tev rest (.add id d))
      (hadd : ops.add env s.tunnel.map d.src id = .ret map) :
      StepOf ops s w (.mapAdd env)
        ((s.setTunnel { s.tunnel with map := map }).goto w (.handle tev rest (.write id d)))
  | write (tev : TunnelEpollEvent) (rest : List TunnelEpollEvent) (id : Int) (d : Datagram)
      (fd : Fd) (r : Option ℕ) (now : Int)
      (hpc : (s.workers w).pc = .handle tev rest (.write id d))
      (hfd : Reads (s.tunnel.tapFd id (s.workers w).queueId) fd) :
      StepOf ops s w (.write fd d.payload r now)
        (s.account w id (.afterWrite r now) (.handle tev rest .recv))
  | rearm (tev : TunnelEpollEvent) (rest : List TunnelEpollEvent)
      (hpc : (s.workers w).pc = .handle tev rest .rearm) :
      StepOf ops s w (.rearm true)
        ((s.arm (s.workers w).queueId fun reg => reg.armed || reg.data.fd == tev.fd).goto w
          (nextEvent rest))
  | rearmFail (tev : TunnelEpollEvent) (rest : List TunnelEpollEvent)
      (hpc : (s.workers w).pc = .handle tev rest .rearm) :
      StepOf ops s w (.rearm false) (s.goto w .scopeEnd)
  | dieInMap (tev : TunnelEpollEvent) (rest : List TunnelEpollEvent) (p : Point) (a : Action E)
      (hpc : (s.workers w).pc = .handle tev rest p)
      (ha : (∃ env e, a = .lookup env ∧ ops.lookup env s.tunnel.map e = .crash) ∨
        ∃ env e id, a = .mapAdd env ∧ ops.add env s.tunnel.map e id = .crash) :
      StepOf ops s w a (s.die .wildAccess)
  | dieInAlloc (tev : TunnelEpollEvent) (rest : List TunnelEpollEvent) (d : Datagram)
      (env : AllocTapEnv) (c : Crash) (hpc : (s.workers w).pc = .handle tev rest (.alloc d))
      (halloc : tunnelAllocNewTap env s.tunnel s.epoll d.src = .crash c) :
      StepOf ops s w (.allocNewTap env) (s.die c)

section Inversion

variable {M E : Type} {ops : MapOps M E} {s s' : Sys M} {w : ℕ} {a : Action E}

theorem stepOf_handleEvent {tev : TunnelEpollEvent} {rest : List TunnelEpollEvent} {p : Point}
    (hpc : (s.workers w).pc = .handle tev rest p)
    (h : handleEvent ops s w tev rest p a = some s') : StepOf ops s w a s' := by
  unfold handleEvent at h
  dsimp only at h
  split at h
  case h_1 id fd r =>
    split_ifs at h with hg
    obtain ⟨rfl, hfd⟩ := hg
    cases r <;> (obtain rfl := Option.some.inj h; exact .read tev rest fd _ hpc hfd)
  case h_2 frame frame' dst r now =>
    split_ifs at h with hg
    obtain ⟨rfl, hdst⟩ := hg
    obtain rfl := Option.some.inj h
    exact .sendto tev rest _ dst r now hpc hdst
  case h_3 r =>
    obtain rfl := Option.some.inj h
    exact .recvfrom tev rest r hpc
  case h_4 d env =>
    split at h
    · cases h
    · obtain rfl := Option.some.inj h
      exact .dieInMap tev rest _ _ hpc (.inl ⟨env, d.src, rfl, ‹_›⟩)
    · obtain rfl := Option.some.inj h
      exact .lookup tev rest d env _ hpc ‹_›
  case h_5 d =>
    obtain rfl := Option.some.inj h
    exact .unlockMiss tev rest d hpc
  case h_6 d =>
    split_ifs at h with hlock
    obtain rfl := Option.some.inj h
    exact .wrlock tev rest d hpc hlock
  case h_7 d env =>
    split at h
    · cases h
    · obtain rfl := Option.some.inj h
      exact .dieInMap tev rest _ _ hpc (.inl ⟨env, d.src, rfl, ‹_›⟩)
    · obtain rfl := Option.some.inj h
      exact .relookup tev rest d env _ hpc ‹_›
  case h_8 id d =>
    obtain rfl := Option.some.inj h
    exact .unlockHit tev rest id d hpc
  case h_9 id d =>
    split_ifs at h with hlock
    obtain rfl := Option.some.inj h
    exact .rdlockHit tev rest id d hpc hlock
  case h_10 d env =>
    split at h
    · obtain rfl := Option.some.inj h
      exact .dieInAlloc tev rest d env _ hpc ‹_›
    · obtain rfl := Option.some.inj h
      exact .allocFail tev rest d env _ _ hpc ‹_›
    · obtain rfl := Option.some.inj h
      exact .alloc tev rest d env _ _ _ hpc ‹_›
  case h_11 id d env =>
    split at h
    · cases h
    · obtain rfl := Option.some.inj h
      exact .dieInMap tev rest _ _ hpc (.inr ⟨env, d.src, id, rfl, ‹_›⟩)
    · obtain rfl := Option.some.inj h
      exact .add tev rest id d env _ hpc ‹_›
  case h_12 id d fd bytes r now =>
    split_ifs at h with hg
    obtain ⟨rfl, hfd⟩ := hg
    obtain rfl := Option.some.inj h
    exact .write tev rest id d fd r now hpc hfd
  case h_13 ok =>
    split_ifs at h with hok
    · obtain rfl := Option.some.inj h
      exact hok ▸ .rearm tev rest hpc
    · obtain rfl := Option.some.inj h
      obtain rfl : ok = false := by simpa using hok
      exact .rearmFail tev rest hpc
  case h_14 => cases h

/-- **There are no other steps.** -/
theorem Step.stepOf (h : Step ops s (w, a) s') :
    s.crash = none ∧ w < s.tunnel.numQueues ∧ StepOf ops s w a s' := by
  change workerThread ops s w a = some s' at h
  unfold workerThread at h
  have hrun : ¬ (s.crash.isSome ∨ s.tunnel.numQueues ≤ w) := fun hr => by
    rw [if_pos hr] at h
    cases h
  rw [if_neg hrun] at h
  rw [not_or, Option.not_isSome_iff_eq_none, Nat.not_le] at hrun
  refine ⟨hrun.1, hrun.2, ?_⟩
  split at h
  case h_1 hpc =>
    obtain rfl := Option.some.inj h
    exact .start hpc
  case h_2 hpc =>
    obtain rfl := Option.some.inj h
    exact .epollFail hpc
  case h_3 batch hpc =>
    split_ifs at h with hbatch
    obtain rfl := Option.some.inj h
    exact .epollWait batch hpc hbatch
  case h_4 batch hpc =>
    split_ifs at h with hlock
    obtain rfl := Option.some.inj h
    exact .rdlockBatch batch hpc hlock
  case h_5 tev rest p a hpc => exact stepOf_handleEvent hpc h
  case h_6 hpc =>
    obtain rfl := Option.some.inj h
    exact .scopeEnd hpc
  case h_7 => cases h

end Inversion

/-! ### Steps of the data path -/

section DataPath

variable {M E : Type} {ops : MapOps M E} {s s' : Sys M} {w : ℕ} {tev : TunnelEpollEvent}
  {rest : List TunnelEpollEvent}

theorem step_of_handleEvent {p : Point} {a : Action E} (hcrash : s.crash = none)
    (hw : w < s.tunnel.numQueues) (hpc : (s.workers w).pc = .handle tev rest p)
    (h : handleEvent ops s w tev rest p a = some s') : Step ops s (w, a) s' := by
  have hrun : ¬ (s.crash.isSome ∨ s.tunnel.numQueues ≤ w) := by
    rw [hcrash]
    simp [hw]
  show workerThread ops s w a = some s'
  unfold workerThread
  rw [if_neg hrun, hpc]
  exact h

theorem step_read (hcrash : s.crash = none) (hw : w < s.tunnel.numQueues)
    (hpc : (s.workers w).pc = .handle tev rest .tapRead) {fd : Fd}
    (hfd : s.tunnel.tapFd tev.tapId.toInt (s.workers w).queueId = some fd) (frame : Bytes) :
    Step ops s (w, .read tev.tapId.toInt fd (some frame))
      (s.goto w (.handle tev rest (.tapSend (frame.take (2 * s.tunnel.mtu))))) := by
  refine step_of_handleEvent hcrash hw hpc ?_
  show (if _ then _ else _) = _
  exact if_pos ⟨rfl, .inr hfd⟩

theorem step_sendto (hcrash : s.crash = none) (hw : w < s.tunnel.numQueues) {frame : Bytes}
    (hpc : (s.workers w).pc = .handle tev rest (.tapSend frame)) {dst : Endpoint}
    (hdst : s.tunnel.remote tev.tapId.toInt = some dst) (r : Option ℕ) (now : Int) :
    Step ops s (w, .sendto frame dst r now)
      (s.account w tev.tapId.toInt (.afterSend r now) (.handle tev rest .tapRead)) := by
  refine step_of_handleEvent hcrash hw hpc ?_
  show (if _ then _ else _) = _
  exact if_pos ⟨rfl, .inr hdst⟩

theorem step_recvfrom (hcrash : s.crash = none) (hw : w < s.tunnel.numQueues)
    (hpc : (s.workers w).pc = .handle tev rest .recv) (r : Option Datagram) :
    Step ops s (w, .recvfrom r) (s.goto w (.handle tev rest (afterRecv s.tunnel.mtu r))) :=
  step_of_handleEvent hcrash hw hpc rfl

theorem step_lookup (hcrash : s.crash = none) (hw : w < s.tunnel.numQueues) {d : Datagram}
    (hpc : (s.workers w).pc = .handle tev rest (.lookup d)) {env : E} {tapId : Int}
    (hlookup : ops.lookup env s.tunnel.map d.src = .ret tapId) :
    Step ops s (w, .lookup env)
      (s.goto w (.handle tev rest (afterLookup (s.tunnel.allows d.src.addr) tapId d))) := by
  refine step_of_handleEvent hcrash hw hpc ?_
  unfold handleEvent
  dsimp only
  rw [hlookup]

theorem step_write (hcrash : s.crash = none) (hw : w < s.tunnel.numQueues) {d : Datagram} {id : Int}
    (hpc : (s.workers w).pc = .handle tev rest (.write id d)) {fd : Fd}
    (hfd : s.tunnel.tapFd id (s.workers w).queueId = some fd) (r : Option ℕ) (now : Int) :
    Step ops s (w, .write fd d.payload r now)
      (s.account w id (.afterWrite r now) (.handle tev rest .recv)) := by
  refine step_of_handleEvent hcrash hw hpc ?_
  show (if _ then _ else _) = _
  exact if_pos ⟨rfl, .inr hfd⟩

end DataPath

end UdpEthTunnel
