/-
# The worker threads

`worker_thread` of `src/tunnel.c`, cut at every call whose result or effect other
threads or the outside can see: a step of a worker is one such call with the
plain code up to the next one (`workerThread`).  What the call is and what it
returned is the action of the step; what the kernel, the C library or the network
decides is part of the action.

The workers share the tunnel under one `pthread_rwlock`.  A worker takes the read
lock for a batch of events; on a datagram from an unknown endpoint that is allowed
in, it drops it, takes the write lock, looks again and allocates a device, and
then keeps the write lock for the rest of the batch.
-/

import UdpEthTunnel.Lib.Runs
import UdpEthTunnel.Tunnel.Basic

namespace UdpEthTunnel

/-- A datagram as `recvfrom` delivers it. -/
structure Datagram where
  /-- `sin6_family` is `AF_INET6` -/
  inet6 : Bool
  src : Endpoint
  payload : Bytes
deriving DecidableEq, Repr, Inhabited

/-- What fits the buffer of `2 * mtu` bytes; the rest is discarded. -/
def Datagram.cut (d : Datagram) (mtu : ℕ) : Datagram :=
  { d with payload := d.payload.take (2 * mtu) }

/-- Where a worker stands in the handling of one event. -/
inductive Point where
  | tapRead
  | tapSend (frame : Bytes)
  | recv
  | lookup (d : Datagram)
  /-- the endpoint is unknown and allowed in: about to drop the lock -/
  | unlockMiss (d : Datagram)
  | wrlock (d : Datagram)
  | relookup (d : Datagram)
  /-- another worker was faster: about to drop the write lock -/
  | unlockHit (id : Int) (d : Datagram)
  | rdlock (id : Int) (d : Datagram)
  | alloc (d : Datagram)
  | add (id : ℕ) (d : Datagram)
  | write (id : Int) (d : Datagram)
  | rearm
deriving DecidableEq, Repr

/-- Where a worker stands. -/
inductive Pc where
  | start
  | epollWait
  /-- `epoll_wait` has returned a batch -/
  | rdlock (batch : List TunnelEpollEvent)
  /-- handling `tev`, with `rest` of the batch still to come -/
  | handle (tev : TunnelEpollEvent) (rest : List TunnelEpollEvent) (p : Point)
  /-- the end of the scope of the lock -/
  | scopeEnd
  | exited
deriving DecidableEq, Repr

/-- How a thread holds the lock. -/
inductive LockMode where
  | free
  | read
  | write
deriving DecidableEq, Repr

/-- The local state of a worker thread. -/
structure Worker where
  queueId : ℕ := 0
  lock : LockMode := .free
  pc : Pc := .start

/-- The calls of a worker, with what they returned. -/
inductive Action (E : Type) where
  /-- `atomic_fetch_add(&t->queue_ids, 1)` -/
  | start
  /-- `none` when it returns nothing, for an error -/
  | epollWait (r : Option (List TunnelEpollEvent))
  | rdlock
  | wrlock
  | unlock
  /-- `read` from the descriptor of a tap device; `none` for an error -/
  | read (id : Int) (fd : Fd) (r : Option Bytes)
  | sendto (frame : Bytes) (dst : Endpoint) (r : Option ℕ) (now : Int)
  | recvfrom (r : Option Datagram)
  | lookup (env : E)
  | allocNewTap (env : AllocTapEnv)
  | mapAdd (env : E)
  | write (fd : Fd) (bytes : Bytes) (r : Option ℕ) (now : Int)
  /-- `epoll_ctl(EPOLL_CTL_MOD)` -/
  | rearm (ok : Bool)

/-- The process: the tunnel, the epoll sets in the kernel and the workers. -/
structure Sys (M : Type) where
  tunnel : Tunnel M
  epoll : EpollSets
  workers : ℕ → Worker
  crash : Option Crash

/-- `x` is what a read gives: what is there, or anything where nothing is. -/
def Reads {α : Type} (there : Option α) (x : α) : Prop := there = none ∨ there = some x

instance {α : Type} [DecidableEq α] (there : Option α) (x : α) : Decidable (Reads there x) :=
  inferInstanceAs (Decidable (_ ∨ _))

/-- `stats->txc += sent_len` and the time, or the error after a failed `sendto`. -/
def TunnelStats.afterSend (r : Option ℕ) (now : Int) (x : TunnelStats) : TunnelStats :=
  match r with
  | some n => { x with txc := x.txc + .ofNat 64 n, lastSendTime := now }
  | none => { x with errorc := x.errorc + 1, lastErrorTime := now }

/-- `stats->rxc += sent_len` and the time, or the error after a failed `write`. -/
def TunnelStats.afterWrite (r : Option ℕ) (now : Int) (x : TunnelStats) : TunnelStats :=
  match r with
  | some n => { x with rxc := x.rxc + .ofNat 64 n, lastRecvTime := now }
  | none => { x with errorc := x.errorc + 1, lastErrorTime := now }

/-- The head of the loop over the batch. -/
def nextEvent : List TunnelEpollEvent → Pc
  | [] => .scopeEnd
  | tev :: rest => .handle tev rest (if tev.isTap then .tapRead else .recv)

/-- What follows `recvfrom`: a datagram that is not `AF_INET6` is skipped. -/
def afterRecv (mtu : ℕ) : Option Datagram → Point
  | none => .rearm
  | some d => if d.inet6 then .lookup (d.cut mtu) else .recv

/-- What follows the first lookup: the device is known, the endpoint is allowed in,
or the datagram is refused. -/
def afterLookup (allowed : Bool) (tapId : Int) (d : Datagram) : Point :=
  if tapId < 0 then if allowed then .unlockMiss d else .recv else .write tapId d

/-- What follows the lookup under the write lock. -/
def afterRelookup (tapId : Int) (d : Datagram) : Point :=
  if tapId ≥ 0 then .unlockHit tapId d else .alloc d

namespace Sys

variable {M : Type}

def setWorker (s : Sys M) (w : ℕ) (x : Worker) : Sys M :=
  { s with workers := Function.update s.workers w x }

/-- The worker goes on at `pc`. -/
def goto (s : Sys M) (w : ℕ) (pc : Pc) : Sys M :=
  s.setWorker w { s.workers w with pc := pc }

/-- The worker has locked or unlocked, and goes on at `pc`. -/
def lockGoto (s : Sys M) (w : ℕ) (lock : LockMode) (pc : Pc) : Sys M :=
  s.setWorker w { s.workers w with lock := lock, pc := pc }

def setTunnel (s : Sys M) (t : Tunnel M) : Sys M := { s with tunnel := t }

def setEpoll (s : Sys M) (epoll : EpollSets) : Sys M := { s with epoll := epoll }

def die (s : Sys M) (c : Crash) : Sys M := { s with crash := some c }

/-- No thread holds the write lock. -/
def NoWriter (s : Sys M) : Prop := ∀ v < s.tunnel.numQueues, (s.workers v).lock ≠ .write

/-- No thread holds the lock. -/
def Unlocked (s : Sys M) : Prop := ∀ v < s.tunnel.numQueues, (s.workers v).lock = .free

instance (s : Sys M) : Decidable s.NoWriter := inferInstanceAs (Decidable (∀ _ < _, _))
instance (s : Sys M) : Decidable s.Unlocked := inferInstanceAs (Decidable (∀ _ < _, _))

/-- The worker updates the statistics of a device and goes on. -/
def account (s : Sys M) (w : ℕ) (id : Int) (f : TunnelStats → TunnelStats) (pc : Pc) : Sys M :=
  match s.tunnel.updateStats id (s.workers w).queueId f with
  | none => s.die .wildAccess
  | some t => (s.setTunnel t).goto w pc

/-- The registrations of a queue, armed or disarmed by `f`. -/
def arm (s : Sys M) (q : ℕ) (f : Registration → Bool) : Sys M :=
  s.setEpoll (Function.update s.epoll q ((s.epoll q).map fun r => { r with armed := f r }))

end Sys

/-- A batch that `epoll_wait` may return: at most `EPOLL_MAX_EVENTS` of the armed
registrations, each once. -/
def IsBatch (regs : List Registration) (batch : List TunnelEpollEvent) : Prop :=
  batch ≠ [] ∧ batch.length ≤ 64 ∧ batch.Nodup ∧ ∀ tev ∈ batch, ⟨tev, true⟩ ∈ regs

instance (regs : List Registration) (batch : List TunnelEpollEvent) :
    Decidable (IsBatch regs batch) := inferInstanceAs (Decidable (_ ∧ _))

section Steps

variable {M E : Type}

/-- A step of a worker inside the handling of `tev`. -/
def handleEvent (ops : MapOps M E) (s : Sys M) (w : ℕ) (tev : TunnelEpollEvent)
    (rest : List TunnelEpollEvent) (p : Point) (a : Action E) : Option (Sys M) :=
  let t := s.tunnel
  let q := (s.workers w).queueId
  let here (p : Point) : Pc := .handle tev rest p
  match p, a with
  | .tapRead, .read id fd r =>
    if id = tev.tapId.toInt ∧ Reads (t.tapFd id q) fd then
      match r with
      | none => some (s.goto w (here .rearm))
      | some frame => some (s.goto w (here (.tapSend (frame.take (2 * t.mtu)))))
    else none
  | .tapSend frame, .sendto frame' dst r now =>
    if frame' = frame ∧ Reads (t.remote tev.tapId.toInt) dst then
      some (s.account w tev.tapId.toInt (.afterSend r now) (here .tapRead))
    else none
  | .recv, .recvfrom r => some (s.goto w (here (afterRecv t.mtu r)))
  | .lookup d, .lookup env =>
    match ops.lookup env t.map d.src with
    | .stuck => none
    | .crash => some (s.die .wildAccess)
    | .ret tapId => some (s.goto w (here (afterLookup (t.allows d.src.addr) tapId d)))
  | .unlockMiss d, .unlock => some (s.lockGoto w .free (here (.wrlock d)))
  | .wrlock d, .wrlock =>
    if s.Unlocked then some (s.lockGoto w .write (here (.relookup d))) else none
  | .relookup d, .lookup env =>
    match ops.lookup env t.map d.src with
    | .stuck => none
    | .crash => some (s.die .wildAccess)
    | .ret tapId => some (s.goto w (here (afterRelookup tapId d)))
  | .unlockHit id d, .unlock => some (s.lockGoto w .free (here (.rdlock id d)))
  | .rdlock id d, .rdlock =>
    if s.NoWriter then some (s.lockGoto w .read (here (.write id d))) else none
  | .alloc d, .allocNewTap env =>
    match tunnelAllocNewTap env t s.epoll d.src with
    | .crash c => some (s.die c)
    | .ret none t epoll => some (((s.setTunnel t).setEpoll epoll).goto w (here .recv))
    | .ret (some id) t epoll => some (((s.setTunnel t).setEpoll epoll).goto w (here (.add id d)))
  | .add id d, .mapAdd env =>
    match ops.add env t.map d.src id with
    | .stuck => none
    | .crash => some (s.die .wildAccess)
    | .ret map => some ((s.setTunnel { t with map := map }).goto w (here (.write id d)))
  | .write id d, .write fd bytes r now =>
    if bytes = d.payload ∧ Reads (t.tapFd id q) fd then
      some (s.account w id (.afterWrite r now) (here .recv))
    else none
  | .rearm, .rearm ok =>
    if ok then
      some ((s.arm q fun reg => reg.armed || reg.data.fd == tev.fd).goto w (nextEvent rest))
    else some (s.goto w .scopeEnd)
  | _, _ => none

/-- **A step of `worker_thread`.**  Worker `w` makes the call `a`; `none` when it
is not there to make it or the call does not return. -/
def workerThread (ops : MapOps M E) (s : Sys M) (w : ℕ) (a : Action E) : Option (Sys M) :=
  let t := s.tunnel
  let q := (s.workers w).queueId
  if s.crash.isSome ∨ t.numQueues ≤ w then none
  else
    match (s.workers w).pc, a with
    | .start, .start =>
      some ((s.setTunnel { t with queueIds := t.queueIds + 1 }).setWorker w
        { queueId := t.queueIds % t.numQueues, lock := .free, pc := .epollWait })
    | .epollWait, .epollWait none => some (s.goto w .exited)
    | .epollWait, .epollWait (some batch) =>
      if IsBatch (s.epoll q) batch then
        some ((s.arm q fun reg => reg.armed && !batch.contains reg.data).goto w (.rdlock batch))
      else none
    | .rdlock batch, .rdlock =>
      if s.NoWriter then some (s.lockGoto w .read (nextEvent batch)) else none
    | .handle tev rest p, a => handleEvent ops s w tev rest p a
    | .scopeEnd, .unlock => some (s.lockGoto w .free .epollWait)
    | _, _ => none

/-- A step of the process: the worker that makes it and its call. -/
def sysStep (ops : MapOps M E) (s : Sys M) (wa : ℕ × Action E) : Option (Sys M) :=
  workerThread ops s wa.1 wa.2

/-- The steps of the workers, in any order. -/
def Step (ops : MapOps M E) (s : Sys M) (wa : ℕ × Action E) (s' : Sys M) : Prop :=
  sysStep ops s wa = some s'

/-- Replay the calls of one worker. -/
def replay (ops : MapOps M E) (s : Sys M) (w : ℕ) (acts : List (Action E)) : Option (Sys M) :=
  Runs.exec (sysStep ops) s (acts.map (w, ·))

end Steps

end UdpEthTunnel
