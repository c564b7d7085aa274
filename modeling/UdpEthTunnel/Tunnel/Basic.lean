/-
# The tunnel and its tap devices

`src/tunnel.c`: the state the workers of a tunnel share, and
`tunnel_alloc_new_tap`, which adds a tap device for a remote endpoint.

Every tap device has one descriptor and one block of statistics for each queue,
and each of its descriptors is registered with the epoll set of its queue.  The
table of devices grows by `realloc`; `tapDevs` is the whole block, of which the
first `numTapDevs` entries are in use.

What the C library and the kernel decide is an argument (`AllocTapEnv`).  The
names of the tunnel, of its bridge and of its devices are only printed or handed
to the kernel and are left out; so is the number of devices that would overflow
an `int`.  Tap ids do go through the 31-bit field of the epoll data.
-/

import Mathlib.Logic.Function.Basic
import UdpEthTunnel.EndpointMap.Basic

namespace UdpEthTunnel

/-- A file descriptor. -/
abbrev Fd := ℕ

abbrev Bytes := List U8

/-- `tunnel_stats`. -/
structure TunnelStats where
  txc : U64 := 0
  rxc : U64 := 0
  errorc : U64 := 0
  lastRecvTime : Int := 0
  lastSendTime : Int := 0
  lastErrorTime : Int := 0
deriving DecidableEq, Repr, Inhabited

/-- `tap_dev`.  `tapFds` is `none` once the array has been released, `stats` is
`none` for `NULL`. -/
structure TapDev where
  remote : Endpoint
  tapFds : Option (List Fd)
  stats : Option (List TunnelStats)
deriving DecidableEq, Repr, Inhabited

/-- `tunnel_epoll_event`, the data of an epoll registration. -/
structure TunnelEpollEvent where
  isTap : Bool
  tapId : BitVec 31
  fd : Fd
deriving DecidableEq, Repr, Inhabited

/-- A descriptor in an epoll set.  Registrations are one-shot: delivering an event
disarms them. -/
structure Registration where
  data : TunnelEpollEvent
  armed : Bool
deriving DecidableEq, Repr, Inhabited

/-- The epoll sets of the workers, by queue. -/
abbrev EpollSets := ℕ → List Registration

/-- `struct tunnel`, over the type `M` of what `t->map` points to. -/
structure Tunnel (M : Type) where
  queueIds : ℕ
  numQueues : ℕ
  numTapDevs : ℕ
  map : M
  allowedAddrList : Option IpAddrCidrList
  tapDevs : List TapDev
  udpFds : List Fd
  epollFds : List Fd
  mtu : ℕ

/-- How the process can die. -/
inductive Crash where
  /-- `assert(remote_port > 0)` -/
  | assertRemotePort
  /-- an access through `NULL` or outside an array -/
  | wildAccess
deriving DecidableEq, Repr

namespace Tunnel

variable {M : Type}

/-- `tap_devs_allocated`. -/
def tapDevsAllocated (t : Tunnel M) : ℕ := t.tapDevs.length

/-- `t->tap_devs[id]`, when the index is inside the block. -/
def dev (t : Tunnel M) : Int → Option TapDev
  | .ofNat id => t.tapDevs[id]?
  | .negSucc _ => none

/-- `remote_ip` and `remote_port` of a device. -/
def remote (t : Tunnel M) (id : Int) : Option Endpoint := (t.dev id).map (·.remote)

/-- `t->tap_devs[id].tap_fds[q]`, when that reads an array that is there. -/
def tapFd (t : Tunnel M) (id : Int) (q : ℕ) : Option Fd :=
  (t.dev id).bind fun d => d.tapFds.bind (·[q]?)

def setDev (t : Tunnel M) (id : ℕ) (d : TapDev) : Tunnel M :=
  { t with tapDevs := t.tapDevs.set id d }

/-- Update `t->tap_devs[id].stats[q]`; `none` when there are no statistics there. -/
def updateStats (t : Tunnel M) (id : Int) (q : ℕ) (f : TunnelStats → TunnelStats) :
    Option (Tunnel M) :=
  (t.dev id).bind fun d => d.stats.bind fun stats => stats[q]?.map fun x =>
    t.setDev id.toNat { d with stats := some (stats.set q (f x)) }

/-- `t->allowed_addr_list && ip_addr_cidr_list_match(t->allowed_addr_list, &addr)`. -/
def allows (t : Tunnel M) (a : IpAddr) : Bool :=
  match t.allowedAddrList with
  | none => false
  | some l => ipAddrCidrListMatch l a

end Tunnel

/-- What the C library and the kernel do during one call of `tunnel_alloc_new_tap`. -/
structure AllocTapEnv where
  /-- `realloc` of the table: it fails, or appends these entries -/
  realloc : Option (ℕ → TapDev)
  /-- `malloc` of the array of descriptors -/
  mallocFds : Bool
  /-- `net_create_tap_mq_fds`: it fails, or opens these descriptors -/
  createFds : Option (ℕ → Fd)
  /-- `net_set_nonblocking`, for each queue -/
  nonblocking : ℕ → Bool
  /-- `epoll_ctl(EPOLL_CTL_ADD)`, for each queue -/
  epollAdd : ℕ → Bool
  /-- `malloc` of the statistics -/
  mallocStats : Bool

/-- How a call of `tunnel_alloc_new_tap` ends: it returns a tap id, or `none` for
`-1`, with the tunnel and the epoll sets it leaves behind. -/
inductive AllocTapOutcome (M : Type) where
  | crash (c : Crash)
  | ret (tapId : Option ℕ) (t : Tunnel M) (epoll : EpollSets)

section AllocNewTap

variable {M : Type}

/-- `new_size`. -/
def newTapDevsSize (allocated : ℕ) : ℕ := if allocated * 2 = 0 then 1 else allocated * 2

/-- The first part of `tunnel_alloc_new_tap`: room for one more device.  `none` is
the failure of `realloc`. -/
def growTapDevs (env : AllocTapEnv) (t : Tunnel M) : Option (Tunnel M) :=
  if t.numTapDevs ≥ t.tapDevsAllocated then
    env.realloc.map fun tail =>
      { t with tapDevs := t.tapDevs ++
          (List.range (newTapDevsSize t.tapDevsAllocated - t.tapDevsAllocated)).map tail }
  else some t

/-- The loop that registers the descriptors of a device, from queue `i` on; the
answer is whether all of them were registered. -/
def registerTapFds (env : AllocTapEnv) (tapId i : ℕ) (epoll : EpollSets) :
    List Fd → EpollSets × Bool
  | [] => (epoll, true)
  | fd :: fds =>
    if env.nonblocking i = false then (epoll, false)
    else if env.epollAdd i = false then (epoll, false)
    else
      let tev : TunnelEpollEvent := { isTap := true, tapId := .ofNat 31 tapId, fd := fd }
      registerTapFds env tapId (i + 1)
        (Function.update epoll i (epoll i ++ [{ data := tev, armed := true }])) fds

/-- `tunnel_alloc_new_tap`.  The array of descriptors is released on every failure
after its allocation; the descriptors already registered stay registered. -/
def tunnelAllocNewTap (env : AllocTapEnv) (t : Tunnel M) (epoll : EpollSets) (e : Endpoint) :
    AllocTapOutcome M :=
  match growTapDevs env t with
  | none => .ret none t epoll
  | some t =>
    let tapId := t.numTapDevs
    let released : TapDev := { remote := e, tapFds := none, stats := none }
    if e.port = 0 then .crash .assertRemotePort
    else if env.mallocFds = false then .crash .wildAccess
    else
      match env.createFds with
      | none => .ret none (t.setDev tapId released) epoll
      | some fds =>
        let tapFds := (List.range t.numQueues).map fds
        match registerTapFds env tapId 0 epoll tapFds with
        | (epoll, false) => .ret none (t.setDev tapId released) epoll
        | (epoll, true) =>
          if env.mallocStats = false then .crash .wildAccess
          else
            let tdev : TapDev := { remote := e, tapFds := some tapFds,
                                   stats := some (List.replicate t.numQueues {}) }
            .ret (some tapId) { t.setDev tapId tdev with numTapDevs := t.numTapDevs + 1 } epoll

end AllocNewTap

/-- How a call into the endpoint map ends. -/
inductive MapCall (α : Type) where
  /-- it does not return -/
  | stuck
  /-- it reads through `NULL` -/
  | crash
  | ret (a : α)

/-- The endpoint map as the tunnel uses it.  `M` is what `t->map` stands for, `E`
what the C library does during a call. -/
structure MapOps (M E : Type) where
  /-- `t->map = endpoint_map_create()` -/
  create : E → M
  /-- `endpoint_map_lookup(t->map, &addr, port)` -/
  lookup : E → M → Endpoint → MapCall Int
  /-- `t->map = endpoint_map_add(t->map, &addr, port, tap_id)` of `tunnel_create`;
  `none` for `NULL` -/
  addAssign : E → M → Endpoint → ℕ → MapCall (Option M)
  /-- `endpoint_map_add(t->map, &addr, port, tap_id)` of `worker_thread`, which drops
  the pointer it returns -/
  add : E → M → Endpoint → ℕ → MapCall M

end UdpEthTunnel
