/-
# Creating a tunnel

`tunnel_create` of `src/tunnel.c`: sockets and epoll sets for every queue, the
allow list, the endpoint map, the device of the default endpoint if one is
configured, and the worker threads.  The endpoint is entered in the map before its
device exists, under the tap id 0.

The calls into the C library, the kernel, the resolver and the parser of allow
lists are arguments (`CreateEnv`); nothing here depends on what the parser makes of
the text.
-/

import UdpEthTunnel.Address.List
import UdpEthTunnel.Tunnel.Locks

namespace UdpEthTunnel

/-- `tunnel_params`; `none` is `NULL`. -/
structure TunnelParams where
  numQueues : Int := 0
  defaultRemoteHost : Option CStr := none
  defaultRemotePort : Int := 0
  allowedRemoteHosts : Option CStr := none
  bindIface : Option CStr := none
  bindPort : Int := 0
  mtu : Int := 0
  tunnelName : Option CStr := none
  tapBaseName : Option CStr := none
  bridgeName : Option CStr := none
  postExec : Option CStr := none
deriving DecidableEq, Repr

/-- What the world outside does during a call of `tunnel_create`. -/
structure CreateEnv (E : Type) where
  /-- `malloc` of the tunnel -/
  malloc : Bool
  /-- `sysconf(_SC_NPROCESSORS_ONLN)` -/
  nprocs : Int
  callocUdpFds : Bool
  /-- `net_create_udp_sock_fds` -/
  udpSocks : Option (ℕ → Fd)
  callocEpollFds : Bool
  /-- `epoll_create1`, `net_set_nonblocking` and `epoll_ctl`, for each queue -/
  epollCreate : ℕ → Option Fd
  nonblocking : ℕ → Bool
  epollAdd : ℕ → Bool
  /-- `ip_addr_cidr_list_create_from_str` -/
  cidrList : CStr → Option IpAddrCidrList
  /-- during `endpoint_map_create` -/
  mapCreate : E
  /-- `net_lookup_remote_host` -/
  lookupHost : CStr → Option IpAddr
  /-- during `endpoint_map_add` -/
  mapAdd : E
  alloc : AllocTapEnv
  mallocWorkers : Bool
  /-- `pthread_create`, for each worker -/
  pthreadCreate : ℕ → Bool

/-- How a call of `tunnel_create` ends. -/
inductive CreateOutcome (α : Type) where
  /-- returns `NULL` -/
  | null
  | crash (c : Crash)
  | stuck
  | created (a : α)

namespace CreateOutcome

variable {α β : Type}

def bind (x : CreateOutcome α) (f : α → CreateOutcome β) : CreateOutcome β :=
  match x with
  | null => null
  | crash c => crash c
  | stuck => stuck
  | created a => f a

instance : Monad CreateOutcome where
  pure := created
  bind := bind

/-- What a call returned, or `NULL` from `tunnel_create` when it failed. -/
def ofOption : Option α → CreateOutcome α
  | none => null
  | some a => created a

/-- A call that copies a string: `strdup` or `strncpy` reads through `NULL` if there is none. -/
def readStr : Option CStr → CreateOutcome Unit
  | none => crash .wildAccess
  | some _ => created ()

def check (ok : Bool) : CreateOutcome Unit := if ok then created () else null

def ofMapCall : MapCall α → CreateOutcome α
  | .stuck => stuck
  | .crash => crash .wildAccess
  | .ret a => created a

/-- What has been created, if anything. -/
def toOption : CreateOutcome α → Option α
  | created a => some a
  | _ => none

end CreateOutcome

section Create

variable {M E : Type}

/-- `setup_epoll_fds`. -/
def setupEpollFds (env : CreateEnv E) (numQueues : ℕ) : CreateOutcome (List Fd) := do
  .check env.callocEpollFds
  (List.range numQueues).mapM fun i => do
    let epollFd ← .ofOption (env.epollCreate i)
    .check (env.nonblocking i)
    .check (env.epollAdd i)
    pure epollFd

/-- The registration of a UDP socket. -/
def udpRegistration (fd : Fd) : Registration :=
  { data := { isTap := false, tapId := 0, fd := fd }, armed := true }

/-- The epoll sets of a tunnel without devices: that of a queue watches its socket. -/
def udpEpoll (udpFds : List Fd) : EpollSets := fun q => (udpFds[q]?.map udpRegistration).toList

/-- The allow list, if one is configured. -/
def createAllowed (env : CreateEnv E) (params : TunnelParams) :
    CreateOutcome (Option IpAddrCidrList) :=
  match params.allowedRemoteHosts with
  | none => pure none
  | some text => do
    let list ← .ofOption (env.cidrList text)
    pure (some list)

/-- `u16 port = params->default_remote_port; port = htons(port);` -/
def TunnelParams.remotePort (params : TunnelParams) : U16 :=
  htons (.ofInt 16 params.defaultRemotePort)

/-- The part of `tunnel_create` for the default endpoint. -/
def createDefaultTap (ops : MapOps M E) (env : CreateEnv E) (params : TunnelParams)
    (t : Tunnel M) (epoll : EpollSets) : CreateOutcome (Tunnel M × EpollSets) :=
  match params.defaultRemoteHost with
  | none => pure (t, epoll)
  | some host => do
    let addr ← .ofOption (env.lookupHost host)
    let e : Endpoint := ⟨addr, params.remotePort⟩
    let newMap ← .ofMapCall (ops.addAssign env.mapAdd t.map e 0)
    let map ← .ofOption newMap
    match tunnelAllocNewTap env.alloc { t with map := map } epoll e with
    | .crash c => .crash c
    | .ret none _ _ => .null
    | .ret (some _) t epoll => pure (t, epoll)

/-- `tunnel_create`. -/
def tunnelCreate (ops : MapOps M E) (env : CreateEnv E) (params : TunnelParams) :
    CreateOutcome (Sys M) := do
  .check env.malloc
  -- `must_strdup`
  .readStr params.tunnelName
  let numQueues := if params.numQueues = 0 then env.nprocs else params.numQueues
  -- a negative count asks `calloc` for more than there is
  .check (decide (0 ≤ numQueues) && env.callocUdpFds)
  -- `net_create_udp_sock_fds` copies the name of the interface first
  .readStr params.bindIface
  let fds ← .ofOption env.udpSocks
  let udpFds := (List.range numQueues.toNat).map fds
  let mtu := if params.mtu > 0 then params.mtu.toNat else 1500
  let epollFds ← setupEpollFds env numQueues.toNat
  .check (params.allowedRemoteHosts.isSome || params.defaultRemoteHost.isSome)
  let allowed ← createAllowed env params
  let t : Tunnel M :=
    { queueIds := 0, numQueues := numQueues.toNat, numTapDevs := 0, map := ops.create env.mapCreate,
      allowedAddrList := allowed, tapDevs := [], udpFds := udpFds, epollFds := epollFds, mtu := mtu }
  let (t, epoll) ← createDefaultTap ops env params t (udpEpoll udpFds)
  .check (env.mallocWorkers && (List.range numQueues.toNat).all env.pthreadCreate)
  pure { tunnel := t, epoll := epoll, workers := fun _ => {}, crash := none }

end Create

namespace CreateOutcome

variable {α β : Type}

/-- A sequence creates something when each of its parts does. -/
theorem bind_eq_created {x : CreateOutcome α} {f : α → CreateOutcome β} {b : β} :
    (x >>= f) = created b ↔ ∃ a, x = created a ∧ f a = created b := by
  show x.bind f = created b ↔ _
  cases x <;> simp [bind]

theorem pure_eq_created {a b : α} : (pure a : CreateOutcome α) = created b ↔ a = b :=
  ⟨fun h => by injection h, fun h => h ▸ rfl⟩

theorem check_eq_created {ok : Bool} {u : Unit} : check ok = created u ↔ ok = true := by
  cases ok <;> simp [check]

theorem readStr_eq_created {s : Option CStr} {u : Unit} : readStr s = created u ↔ s ≠ none := by
  cases s <;> simp [readStr]

theorem ofOption_eq_created {x : Option α} {a : α} : ofOption x = created a ↔ x = some a := by
  cases x <;> simp [ofOption]

theorem toOption_eq_some {x : CreateOutcome α} {a : α} : x.toOption = some a ↔ x = created a := by
  cases x <;> simp [toOption]

theorem ofMapCall_eq_created {x : MapCall α} {a : α} : ofMapCall x = created a ↔ x = .ret a := by
  cases x <;> simp [ofMapCall]

instance : LawfulMonad CreateOutcome := by
  refine LawfulMonad.mk' CreateOutcome (fun x => ?_) (fun a f => rfl) fun x f g => ?_
  · cases x <;> rfl
  · cases x <;> rfl

/-- A loop that creates something in each round creates as much as there are rounds. -/
theorem length_of_mapM {f : α → CreateOutcome β} {xs : List α} {ys : List β}
    (h : xs.mapM f = created ys) : ys.length = xs.length := by
  induction xs generalizing ys with
  | nil =>
    obtain rfl := pure_eq_created.1 h
    rfl
  | cons x xs ih =>
    rw [List.mapM_cons] at h
    obtain ⟨y, -, h⟩ := bind_eq_created.1 h
    obtain ⟨ys', hrest, h⟩ := bind_eq_created.1 h
    obtain rfl := pure_eq_created.1 h
    rw [List.length_cons, List.length_cons, ih hrest]

end CreateOutcome

open CreateOutcome

section Created

variable {M E : Type} {ops : MapOps M E} {env : CreateEnv E} {params : TunnelParams}
  {s : Sys M}

/-- A tunnel as `tunnel_create` sets it up before the default endpoint. -/
structure Bare (ops : MapOps M E) (env : CreateEnv E) (params : TunnelParams) (t : Tunnel M) :
    Prop where
  numTapDevs : t.numTapDevs = 0
  tapDevs : t.tapDevs = []
  map : t.map = ops.create env.mapCreate
  queueIds : t.queueIds = 0
  udpFds : t.udpFds.length = t.numQueues
  epollFds : t.epollFds.length = t.numQueues
  mtu : t.mtu = if params.mtu > 0 then params.mtu.toNat else 1500
  allowed : match params.allowedRemoteHosts with
    | none => t.allowedAddrList = none
    | some text => t.allowedAddrList = env.cidrList text ∧ t.allowedAddrList ≠ none

/-- The device of the default endpoint is made of a bare tunnel whose map has been
told of it. -/
structure DefaultTap (ops : MapOps M E) (env : CreateEnv E) (params : TunnelParams)
    (e : Endpoint) (t : Tunnel M) (s : Sys M) : Prop where
  host : ∃ host, params.defaultRemoteHost = some host ∧ env.lookupHost host = some e.addr
  port : e.port = params.remotePort
  add : ∃ map, ops.addAssign env.mapAdd t.map e 0 = .ret (some map) ∧
    NewTap { t with map := map } (udpEpoll t.udpFds) e 0 s.tunnel s.epoll

/-- The two ways the default endpoint can be dealt with. -/
theorem createDefaultTap_created {t t' : Tunnel M} {epoll' : EpollSets}
    (ht₀ : t.numTapDevs = 0)
    (h : createDefaultTap ops env params t (udpEpoll t.udpFds) = .created (t', epoll')) :
    (params.defaultRemoteHost = none ∧ t' = t ∧ epoll' = udpEpoll t.udpFds) ∨
      ∃ e, DefaultTap ops env params e t
        { tunnel := t', epoll := epoll', workers := fun _ => {}, crash := none } := by
  unfold createDefaultTap at h
  split at h
  case h_1 hnone =>
    obtain ⟨rfl, rfl⟩ := Prod.mk.inj (pure_eq_created.1 h)
    exact .inl ⟨hnone, rfl, rfl⟩
  case h_2 host hsome =>
    simp only [bind_eq_created, ofOption_eq_created, ofMapCall_eq_created] at h
    obtain ⟨addr, haddr, _, hadd, map, rfl, hret⟩ := h
    split at hret
    · cases hret
    · cases hret
    case h_3 id t₁ epoll₁ halloc =>
      obtain ⟨rfl, rfl⟩ := Prod.mk.inj (pure_eq_created.1 hret)
      have hle : t.numTapDevs ≤ t.tapDevs.length := by
        rw [ht₀]
        exact Nat.zero_le _
      have hnew := allocNewTap_some (t := { t with map := map }) hle halloc
      obtain rfl : id = 0 := hnew.id_eq.trans ht₀
      exact .inr ⟨⟨addr, params.remotePort⟩, ⟨host, hsome, haddr⟩, rfl, map, hadd, hnew⟩

theorem length_of_setupEpollFds {numQueues : ℕ} {fds : List Fd}
    (h : setupEpollFds env numQueues = .created fds) : fds.length = numQueues := by
  obtain ⟨_, -, hloop⟩ := bind_eq_created.1 h
  rw [length_of_mapM hloop, List.length_range]

/-- **What `tunnel_create` returns**: idle workers, and the bare tunnel, with the
device of the default endpoint if one is configured; without one there is an allow
list. -/
theorem tunnelCreate_created (h : tunnelCreate ops env params = .created s) :
    (∀ w, s.workers w = {}) ∧ s.crash = none ∧ ∃ t, Bare ops env params t ∧
      ((params.defaultRemoteHost = none ∧ params.allowedRemoteHosts ≠ none ∧
          s.tunnel = t ∧ s.epoll = udpEpoll t.udpFds) ∨
        ∃ e, DefaultTap ops env params e t s) := by
  unfold tunnelCreate at h
  simp only [bind_eq_created, check_eq_created, readStr_eq_created, ofOption_eq_created,
    pure_eq_created] at h
  obtain ⟨_, -, _, -, _, -, _, -, fds, -, epollFds, hepoll, _, hhosts, allowed, hallowed, ⟨t, epoll⟩, hdef, _,
    -, rfl⟩ := h
  have hlen := length_of_setupEpollFds hepoll
  have hcases := createDefaultTap_created rfl hdef
  refine ⟨fun _ => rfl, rfl, _, ⟨rfl, rfl, rfl, rfl, by simp, hlen, rfl, ?_⟩,
    hcases.imp_left ?_⟩
  · unfold createAllowed at hallowed
    split at hallowed
    case h_1 hnone => exact (pure_eq_created.1 hallowed).symm
    case h_2 text hsome =>
      simp only [bind_eq_created, ofOption_eq_created, pure_eq_created] at hallowed
      obtain ⟨list, hlist, rfl⟩ := hallowed
      exact ⟨hlist.symm, nofun⟩
  · rintro ⟨hnone, rfl, rfl⟩
    refine ⟨hnone, fun hn => ?_, rfl, rfl⟩
    simp [hn, hnone] at hhosts

theorem createDefaultTap_alloc {t t' : Tunnel M} {epoll epoll' : EpollSets}
    (h : createDefaultTap ops env params t epoll = .created (t', epoll')) :
    t' = t ∨ ∃ map e id,
      tunnelAllocNewTap env.alloc { t with map := map } epoll e = .ret (some id) t' epoll' := by
  unfold createDefaultTap at h
  split at h
  case h_1 => exact .inl (Prod.mk.inj (pure_eq_created.1 h)).1.symm
  case h_2 host hsome =>
    simp only [bind_eq_created, ofOption_eq_created, ofMapCall_eq_created] at h
    obtain ⟨addr, -, _, -, map, -, hret⟩ := h
    split at hret
    · cases hret
    · cases hret
    case h_3 id t₁ epoll₁ halloc =>
      obtain ⟨rfl, rfl⟩ := Prod.mk.inj (pure_eq_created.1 hret)
      exact .inr ⟨map, _, id, halloc⟩

/-- The only call of `tunnel_alloc_new_tap` that `tunnel_create` makes. -/
theorem alloc_of_created (h : tunnelCreate ops env params = .created s) :
    ∃ t : Tunnel M, t.queueIds = 0 ∧ t.numTapDevs = 0 ∧ (s.tunnel = t ∨ ∃ epoll e id,
      tunnelAllocNewTap env.alloc t epoll e = .ret (some id) s.tunnel s.epoll) := by
  unfold tunnelCreate at h
  simp only [bind_eq_created, check_eq_created, readStr_eq_created, ofOption_eq_created,
    pure_eq_created] at h
  obtain ⟨_, -, _, -, _, -, _, -, fds, -, epollFds, -, _, -, allowed, -, ⟨t, epoll⟩, hdef, _, -, rfl⟩ := h
  rcases createDefaultTap_alloc hdef with rfl | ⟨map, e, id, halloc⟩
  · exact ⟨_, rfl, rfl, .inl rfl⟩
  · exact ⟨_, rfl, rfl, .inr ⟨_, e, id, halloc⟩⟩

theorem size_of_created (h : tunnelCreate ops env params = .created s) :
    s.tunnel.numTapDevs ≤ s.tunnel.tapDevs.length := by
  obtain ⟨-, -, t, hbare, ⟨-, -, ht, -⟩ | ⟨e, hdef⟩⟩ := tunnelCreate_created h
  · rw [ht, hbare.numTapDevs]
    exact Nat.zero_le _
  · obtain ⟨map, -, hnew⟩ := hdef.add
    exact hnew.ext.size

theorem mtu_of_created (h : tunnelCreate ops env params = .created s) :
    s.tunnel.mtu = if params.mtu > 0 then params.mtu.toNat else 1500 := by
  obtain ⟨-, -, t, hbare, ⟨-, -, ht, -⟩ | ⟨e, hdef⟩⟩ := tunnelCreate_created h
  · rw [ht]
    exact hbare.mtu
  · obtain ⟨map, -, hnew⟩ := hdef.add
    rw [hnew.ext.mtu]
    exact hbare.mtu

end Created

/-! ### A tunnel to try things on -/

/-- A call of `tunnel_alloc_new_tap` in which everything succeeds. -/
def quietAlloc (fds : ℕ → Fd) : AllocTapEnv :=
  { realloc := some fun _ => default, mallocFds := true, createFds := some fds,
    nonblocking := fun _ => true, epollAdd := fun _ => true, mallocStats := true }

/-- A call of `tunnel_create` in which everything succeeds; every name is that of the host
10.10.10.1. -/
def openEnv {E : Type} (env : E) : CreateEnv E :=
  { malloc := true, nprocs := 1, callocUdpFds := true, udpSocks := some (10 + ·),
    callocEpollFds := true, epollCreate := fun q => some (20 + q), nonblocking := fun _ => true,
    epollAdd := fun _ => true,
    cidrList := fun hosts => (ipAddrCidrListCreateFromStr plentyEnv hostsPton hosts).ret none,
    mapCreate := env, lookupHost := fun _ => some (.v4Mapped 10 10 10 1), mapAdd := env,
    alloc := quietAlloc (30 + ·), mallocWorkers := true, pthreadCreate := fun _ => true }

/-- A tunnel without a default endpoint. -/
def openParams (numQueues : Int) : TunnelParams :=
  { numQueues := numQueues, allowedRemoteHosts := some hostsText, bindIface := some "eth0".toList,
    tunnelName := some "tunnel".toList }

/-- Worker 0 starts and finds its socket readable. -/
def wakeActions (E : Type) : List (Action E) :=
  [.start, .epollWait (some [(udpRegistration 10).data]), .rdlock]

/-- A worker receives a datagram from an endpoint that is allowed in, and admits it as
the device with the descriptors `fds`. -/
def admitActions {E : Type} (env : E) (src : Endpoint) (fds : ℕ → Fd) (fd : Fd) : List (Action E) :=
  [.recvfrom (some ⟨true, src, []⟩), .lookup env, .unlock, .wrlock, .lookup env,
    .allocNewTap (quietAlloc fds), .mapAdd env, .write fd [] (some 0) 0]

end UdpEthTunnel
