/-
# What the creation of a tunnel acquires

`tunnel_create` of `src/tunnel.c` once more, with what it acquires and releases on the
way (`tunnelCreateLog`).  It can fail in three parts: before there is anything that
`tunnel_delete` could delete (`newTunnel`); while the tunnel is built up, where every
failure is followed by `tunnel_delete` (`buildTunnel`); and when a thread cannot be
started (`startWorkers`).

The descriptors of tap devices are left out; the control socket that sets a device up, and
the listing that its name is chosen from, are not.  A call of `strdup` or `asprintf` that gets
no memory ends the process.
-/

import UdpEthTunnel.Config.Basic
import UdpEthTunnel.Lib.Ledger
import UdpEthTunnel.Net
import UdpEthTunnel.Tunnel.AllOrNothing
import UdpEthTunnel.Tunnel.Delete
import UdpEthTunnel.Tunnel.Heap

namespace UdpEthTunnel

open Tunnel Ledger

/-- What is acquired while a tunnel is created. -/
inductive Resource where
  | block (b : Block)
  /-- the text that `must_asprintf` makes -/
  | bridgeText
  /-- the socket for the `ioctl`s of `net_create_udp_sock_fds` -/
  | ctl (fd : Fd)
  | udp (q : ℕ) (fd : Fd)
  | epoll (q : ℕ) (fd : Fd)
  /-- `/proc/net/dev`, which `net_create_tap_mq_fds` reads -/
  | netDev
  /-- the socket for the `ioctl`s of `net_create_tap_mq_fds` -/
  | tapCtl (fd : Fd)
  | thread (w : ℕ)
deriving DecidableEq, Repr

/-- What the world outside does during a call of `tunnel_create`, down to the calls for
the sockets and for a tap device: `sock` and `ctlFd` stand for `env.udpSocks`, and `tap` for
`env.alloc.createFds`. -/
structure CreateCalls where
  env : CreateEnv HeapEnv
  ctlFd : Option Fd
  sock : SockEnv
  tap : TapMqEnv
  /-- a `pthread_create` that fails may leave something in `*thread` -/
  staleThread : ℕ → Bool
  /-- what `tunnel_delete` reads outside the arrays of a device -/
  garbage : ℕ → ℕ → Fd

/-- A tunnel while it is built: the fields set so far, the blocks its pointers name, and
the workers whose entry in `t->workers` is not 0. -/
structure Build where
  log : List (Entry Resource)
  tunnel : Tunnel MapHeap
  epoll : EpollSets
  blocks : List Block
  threads : List ℕ

/-- What `tunnel_delete` does with a resource, except for the descriptors of devices. -/
def DeleteOp.entry : DeleteOp → Option (Entry Resource)
  | .cancel w => some (.use (.thread w))
  | .join w => some (.release (.thread w))
  | .closeUdp q fd => some (.release (.udp q fd))
  | .closeEpoll q fd => some (.release (.epoll q fd))
  | .readTapFd i _ => some (.use (.block (.tapFds i)))
  | .closeTap .. => none
  | .free b => some (.release (.block b))

namespace Build

/-- `memset(t, 0, sizeof(tunnel))`. -/
def empty : Build where
  log := []
  tunnel :=
    { queueIds := 0, numQueues := 0, numTapDevs := 0,
      map := { blocks := [], map := none, returned := none }, allowedAddrList := none,
      tapDevs := [], udpFds := [], epollFds := [], mtu := 0 }
  epoll := fun _ => []
  blocks := []
  threads := []

def put (b : Build) (entries : List (Entry Resource)) : Build := { b with log := b.log ++ entries }

/-- A field is set to a block that has been acquired. -/
def alloc (b : Build) (x : Block) : Build :=
  { b with log := b.log ++ [.acquire (.block x)], blocks := b.blocks ++ [x] }

def setTunnel (b : Build) (t : Tunnel MapHeap) : Build := { b with tunnel := t }

/-- `tunnel_delete`, of a tunnel that may lack any part. -/
def deleteOps (garbage : ℕ → ℕ → Fd) (b : Build) : List DeleteOp :=
  b.threads.map .cancel ++ b.threads.map .join ++
    closeAll .closeUdp b.tunnel.udpFds b.tunnel.numQueues ++ deleteTapDevs garbage b.tunnel ++
    closeAll .closeEpoll b.tunnel.epollFds b.tunnel.numQueues ++
    (ownBlocks.filter (· ∈ b.blocks)).map .free

def delete (garbage : ℕ → ℕ → Fd) (b : Build) : Build :=
  b.put ((b.deleteOps garbage).filterMap DeleteOp.entry)

end Build

/-- `if (!…) { tunnel_delete(t); return NULL; }`. -/
def Reply.orDelete (garbage : ℕ → ℕ → Fd) (r : Reply Build) : Reply Build :=
  if r.ending = .ret false then ⟨.ret false, r.state.delete garbage⟩ else r

section Create

variable (c : CreateCalls) (params : TunnelParams)

/-- `num_queues` of `tunnel_create`. -/
def CreateCalls.numQueues : Int :=
  if params.numQueues = 0 then c.env.nprocs else params.numQueues

/-- The first part of `tunnel_create`, which does without `tunnel_delete`. -/
def newTunnel : Reply Build :=
  if c.env.malloc = false then ⟨.ret false, .empty⟩
  else
    let b := Build.empty.alloc .tunnel
    if params.tunnelName = none then ⟨.crash .wildAccess, b⟩
    else
      let b := b.alloc .name
      let numQueues := c.numQueues params
      if 0 ≤ numQueues ∧ c.env.callocUdpFds = true then
        ⟨.ret true, (b.setTunnel { b.tunnel with numQueues := numQueues.toNat }).alloc .udpFds⟩
      else ⟨.ret false, b.put [.release (.block .tunnel)]⟩

/-- A loop that opens a descriptor for each of `n` queues, from queue `q` on, and stops at
one that is not made ready: the entries, the descriptors that stand in the array, and
whether there is one for each queue.  `keep` is whether the one that is not ready stands
there; else it is closed. -/
def openEach (create : ℕ → Option Fd) (ready : ℕ → Bool) (res : ℕ → Fd → Resource) (keep : Bool)
    (q : ℕ) : ℕ → List (Entry Resource) × List Fd × Bool
  | 0 => ([], [], true)
  | n + 1 =>
    match create q with
    | none => ([], [], false)
    | some fd =>
      if ready q then
        let (log, fds, ok) := openEach create ready res keep (q + 1) n
        (.acquire (res q fd) :: log, fd :: fds, ok)
      else if keep then ([.acquire (res q fd)], [fd], false)
      else ([.acquire (res q fd), .release (res q fd)], [], false)

/-- `setsockopt` and `bind` succeed. -/
def SockEnv.ready (env : SockEnv) (q : ℕ) : Bool := env.reusePort q && (env.bind q).isSome

/-- `net_create_udp_sock_fds`.  The control socket is closed where its scope ends, if it is
positive. -/
def openUdpSocks (b : Build) : Reply Build :=
  if params.bindIface = none then ⟨.crash .wildAccess, b⟩
  else
    match c.ctlFd with
    | none => ⟨.ret false, b⟩
    | some ctl =>
      let closed : List (Entry Resource) := if ctl > 0 then [.release (.ctl ctl)] else []
      if c.sock.ifAddr = none ∨ c.sock.ifMtu = false then
        ⟨.ret false, b.put (.acquire (.ctl ctl) :: closed)⟩
      else
        let (log, fds, ok) := openEach c.sock.socket c.sock.ready .udp false 0 b.tunnel.numQueues
        ⟨.ret ok, (b.put (.acquire (.ctl ctl) :: (log ++ closed))).setTunnel
          { b.tunnel with udpFds := fds }⟩

/-- The mtu and the names.  `must_asprintf` does not store the text in the field. -/
def setNames (b : Build) : Reply Build :=
  let b := b.setTunnel { b.tunnel with mtu := if params.mtu > 0 then params.mtu.toNat else 1500 }
  let b := if params.tapBaseName.isSome then b.alloc .tapBaseName else b
  if params.bridgeName.isSome then ⟨.ret true, b.alloc .bridgeName⟩
  else ⟨.ret true, b.put [.acquire .bridgeText]⟩

/-- `net_set_nonblocking` and `epoll_ctl` succeed. -/
def CreateCalls.epollReady (q : ℕ) : Bool := c.env.nonblocking q && c.env.epollAdd q

/-- `setup_epoll_fds`. -/
def openEpollFds (b : Build) : Reply Build :=
  if c.env.callocEpollFds = false then ⟨.ret false, b⟩
  else
    let b := b.alloc .epollFds
    let (log, fds, ok) := openEach c.env.epollCreate c.epollReady .epoll true 0 b.tunnel.numQueues
    ⟨.ret ok, { b.put log with tunnel := { b.tunnel with epollFds := fds },
                               epoll := udpEpoll b.tunnel.udpFds }⟩

/-- There are hosts to talk to. -/
def checkHosts (b : Build) : Reply Build :=
  ⟨.ret (params.allowedRemoteHosts.isSome || params.defaultRemoteHost.isSome), b⟩

/-- The allow list, if one is configured. -/
def addAllowed (b : Build) : Reply Build :=
  match params.allowedRemoteHosts with
  | none => ⟨.ret true, b⟩
  | some text =>
    match c.env.cidrList text with
    | none => ⟨.ret false, b⟩
    | some list =>
      ⟨.ret true, (b.setTunnel { b.tunnel with allowedAddrList := some list }).alloc .allowedAddrList⟩

/-- `t->map = endpoint_map_create()`. -/
def addMap (b : Build) : Reply Build :=
  let b := b.setTunnel { b.tunnel with map := heapOps.create c.env.mapCreate }
  ⟨.ret true, if c.env.mapCreate.calloc then b.alloc .map else b⟩

/-- `net_create_tap_mq_fds`, for a device of this tunnel. -/
def CreateCalls.tapMq (t : Tunnel MapHeap) : TapMqResult :=
  netCreateTapMqFds c.tap params.tapBaseName t.numQueues t.mtu params.bridgeName

/-- What `net_create_tap_mq_fds` acquires and releases beside the descriptors of the device.
The control socket is closed where its scope ends, if it is positive. -/
def CreateCalls.tapEntries (t : Tunnel MapHeap) : List (Entry Resource) :=
  let netDev : List (Entry Resource) :=
    if c.tap.procNetDev.isSome then [.acquire .netDev, .release .netDev] else []
  match (c.tapMq params t).ctl with
  | none => netDev
  | some ctl =>
    netDev ++ .acquire (.tapCtl ctl) :: if ctl > 0 then [.release (.tapCtl ctl)] else []

/-- What `tunnel_alloc_new_tap` meets with. -/
def CreateCalls.allocEnv (t : Tunnel MapHeap) : AllocTapEnv :=
  { c.env.alloc with createFds := (c.tapMq params t).createFds }

/-- A call of `tunnel_alloc_new_tap`: the table, and the arrays of the device, which are
released where it fails. -/
def allocTap (b : Build) (e : Endpoint) : Reply Build :=
  let env := c.allocEnv params b.tunnel
  let grown := growTapDevs env b.tunnel
  let table := if grown.isSome then b.alloc .tapDevs else b
  let id := b.tunnel.numTapDevs
  let tap := c.tapEntries params b.tunnel
  match tunnelAllocNewTap env b.tunnel b.epoll e with
  | .crash x => ⟨.crash x, table⟩
  | .ret none t epoll =>
    let fds := if grown.isSome then
      table.put (.acquire (.block (.tapFds id)) :: (tap ++ [.release (.block (.tapFds id))]))
      else table
    ⟨.ret false, { fds with tunnel := t, epoll := epoll }⟩
  | .ret (some _) t epoll =>
    ⟨.ret true,
      { ((table.alloc (.tapFds id)).put tap).alloc (.stats id) with tunnel := t, epoll := epoll }⟩

/-- The default endpoint, if one is configured.  The new map has room for it, so the block
it is in stays. -/
def addDefaultTap (b : Build) : Reply Build :=
  match params.defaultRemoteHost with
  | none => ⟨.ret true, b⟩
  | some host =>
    match c.env.lookupHost host with
    | none => ⟨.ret false, b⟩
    | some addr =>
      let e : Endpoint := ⟨addr, params.remotePort⟩
      match heapOps.addAssign c.env.mapAdd b.tunnel.map e 0 with
      | .stuck => ⟨.stuck, b⟩
      | .crash => ⟨.crash .wildAccess, b⟩
      | .ret none => ⟨.ret false, b⟩
      | .ret (some map) => allocTap c params (b.setTunnel { b.tunnel with map := map }) e

/-- The array of the workers. -/
def addWorkers (b : Build) : Reply Build :=
  if c.env.mallocWorkers then ⟨.ret true, b.alloc .workers⟩ else ⟨.ret false, b⟩

/-- The part of `tunnel_create` in which every failure is followed by `tunnel_delete`. -/
def buildTunnel (b : Build) : Reply Build :=
  (openUdpSocks c params b).andThen fun b =>
  (setNames params b).andThen fun b =>
  (openEpollFds c b).andThen fun b =>
  (checkHosts params b).andThen fun b =>
  (addAllowed c params b).andThen fun b =>
  (addMap c b).andThen fun b =>
  (addDefaultTap c params b).andThen fun b =>
  addWorkers c b

/-- `pthread_cancel(t->workers[j])`, for the workers before worker `i`. -/
def cancelWorkers (i : ℕ) : List (Entry Resource) :=
  (List.range i).flatMap fun j => [.use (.block .tunnel), .use (.block .workers), .use (.thread j)]

/-- The loop that starts `n` workers, from worker `i` on. -/
def startWorkers (i : ℕ) : ℕ → Build → Reply Build
  | 0, b => ⟨.ret true, b⟩
  | n + 1, b =>
    if c.env.pthreadCreate i then
      startWorkers (i + 1) n { b.put [.acquire (.thread i)] with threads := b.threads ++ [i] }
    else
      let stale := if c.staleThread i then { b with threads := b.threads ++ [i] } else b
      ⟨.ret false, (stale.delete c.garbage).put (cancelWorkers i)⟩

/-- **`tunnel_create`**, with what it acquires and releases. -/
def tunnelCreateLog : Reply Build :=
  (newTunnel c params).andThen fun b =>
  ((buildTunnel c params b).orDelete c.garbage).andThen fun b =>
  startWorkers c 0 b.tunnel.numQueues b

end Create

end UdpEthTunnel
