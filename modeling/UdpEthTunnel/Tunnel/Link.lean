/-
# Two tunnels

A tunnel `a` sends to a tunnel `b`.  Each worker of `a` sends through the socket of its
own queue (`udp_tx_fd` in `worker_thread`), so the datagrams come from as many endpoints
as the sockets have names; and `b` makes a device for each endpoint it hears from.

What `b` receives is a datagram that `a` has sent to it, any number of times and in any
order, or one that comes from elsewhere.  Nothing is assumed of what `a` receives.
-/

import UdpEthTunnel.Net
import UdpEthTunnel.Tunnel.CurrentMap
import UdpEthTunnel.Tunnel.FiniteMap

namespace UdpEthTunnel

open Tunnel Runs

/-- `num_queues` of `tunnel_create`. -/
def CreateEnv.numQueues {E : Type} (env : CreateEnv E) (params : TunnelParams) : ℕ :=
  (if params.numQueues = 0 then env.nprocs else params.numQueues).toNat

/-- `tunnel_create`, with the sockets it gets from `net_create_udp_sock_fds`. -/
def tunnelCreateOn {M E : Type} (ops : MapOps M E) (env : CreateEnv E) (net : SockEnv)
    (params : TunnelParams) : CreateOutcome (List UdpSocket × Sys M) := do
  let socks ← .ofOption (netCreateUdpSockFds net params.bindPort (env.numQueues params))
  let fds : ℕ → Fd := fun q => (socks[q]?.map (·.fd)).getD 0
  let s ← tunnelCreate ops { env with udpSocks := some fds } params
  pure (socks, s)

/-- A datagram on its way. -/
structure Packet where
  src : Endpoint
  dst : Endpoint
  payload : Bytes
deriving DecidableEq, Repr

/-- Two tunnels, and every datagram the first has sent. -/
structure Link (M N : Type) where
  a : Sys M
  b : Sys N
  wire : List Packet

/-- A call of a worker of the one or the other. -/
inductive LinkAction (E F : Type) where
  | a (w : ℕ) (act : Action E)
  | b (w : ℕ) (act : Action F)

section Link

variable {M N E F : Type}

/-- Where the datagrams that a worker sends come from: the name of the socket
`t->udp_fds[queue_id]`. -/
def Sys.source (s : Sys M) (socks : List UdpSocket) (w : ℕ) : Option Endpoint :=
  s.tunnel.udpFds[(s.workers w).queueId]?.bind fun fd =>
    (socks.find? fun x => x.fd == fd).map (·.name)

/-- What a call of a worker sends. -/
def Sys.packets (s : Sys M) (socks : List UdpSocket) (w : ℕ) : Action E → List Packet
  | .sendto frame dst (some _) _ => (s.source socks w).toList.map fun src => ⟨src, dst, frame⟩
  | _ => []

/-- A call that receives a datagram of `a` receives one that `a` has sent to a socket
of `b`. -/
def FromWire (socksA socksB : List UdpSocket) (wire : List Packet) : Action F → Prop
  | .recvfrom (some d) => d.inet6 = true → d.src ∈ socksA.map (·.name) →
      ∃ p ∈ wire, p.src = d.src ∧ p.payload = d.payload ∧ p.dst ∈ socksB.map (·.name)
  | _ => True

instance (socksA socksB : List UdpSocket) (wire : List Packet) (act : Action F) :
    Decidable (FromWire socksA socksB wire act) := by
  unfold FromWire
  split <;> infer_instance

/-- A step of one of the tunnels. -/
def linkStep (opsA : MapOps M E) (opsB : MapOps N F) (socksA socksB : List UdpSocket)
    (s : Link M N) : LinkAction E F → Option (Link M N)
  | .a w act => (workerThread opsA s.a w act).map fun a =>
      { s with a := a, wire := s.wire ++ s.a.packets socksA w act }
  | .b w act =>
    if FromWire socksA socksB s.wire act then
      (workerThread opsB s.b w act).map fun b => { s with b := b }
    else none

/-- A run of the two tunnels. -/
abbrev LinkRun (opsA : MapOps M E) (opsB : MapOps N F) (socksA socksB : List UdpSocket) :
    Link M N → List (Event (Link M N) (LinkAction E F)) → Link M N → Prop :=
  Run fun s x s' => linkStep opsA opsB socksA socksB s x = some s'

/-- The device `i` of `b` is there on account of what `a` has sent. -/
def Link.Made (s : Link M N) (i : ℕ) : Prop :=
  i < s.b.tunnel.numTapDevs ∧ ∃ p ∈ s.wire, s.b.tunnel.remote i = some p.src

/-- **The first tunnel looks like one endpoint to the second.** -/
structure Link.OneEndpoint (s : Link M N) : Prop where
  source : ∀ p ∈ s.wire, ∀ q ∈ s.wire, p.src = q.src
  device : ∀ i j, s.Made i → s.Made j → i = j

instance (s : Link M N) (i : ℕ) : Decidable (s.Made i) := inferInstanceAs (Decidable (_ ∧ _))

variable {opsA : MapOps M E} {opsB : MapOps N F} {socksA socksB : List UdpSocket}
  {s₀ s : Link M N} {tr : List (Event (Link M N) (LinkAction E F))}

theorem Sys.source_eq_some {a : Sys M} {w : ℕ} {src : Endpoint}
    (h : a.source socksA w = some src) : ∃ x ∈ socksA, x.name = src := by
  obtain ⟨fd, -, hfind⟩ := Option.bind_eq_some_iff.1 h
  obtain ⟨x, hx, rfl⟩ := Option.map_eq_some_iff.1 hfind
  exact ⟨x, List.mem_of_find?_eq_some hx, rfl⟩

/-- Every datagram comes from a socket. -/
theorem Sys.mem_packets {a : Sys M} {w : ℕ} {act : Action E} {p : Packet}
    (hp : p ∈ a.packets socksA w act) : ∃ x ∈ socksA, x.name = p.src := by
  unfold Sys.packets at hp
  split at hp
  · obtain ⟨src, hsrc, rfl⟩ := List.mem_map.1 hp
    exact Sys.source_eq_some (Option.mem_toList.1 hsrc)
  · cases hp

/-- What a step can do. -/
theorem linkStep_cases {x : LinkAction E F} {s' : Link M N}
    (h : linkStep opsA opsB socksA socksB s x = some s') :
    (∃ w act a, x = .a w act ∧ Step opsA s.a (w, act) a ∧
        s' = { s with a := a, wire := s.wire ++ s.a.packets socksA w act }) ∨
      ∃ w act b, x = .b w act ∧ FromWire socksA socksB s.wire act ∧
        Step opsB s.b (w, act) b ∧ s' = { s with b := b } := by
  cases x with
  | a w act =>
    obtain ⟨a, ha, rfl⟩ := Option.map_eq_some_iff.1 h
    exact .inl ⟨w, act, a, rfl, ha, rfl⟩
  | b w act =>
    simp only [linkStep] at h
    split_ifs at h with hwire
    obtain ⟨b, hb, rfl⟩ := Option.map_eq_some_iff.1 h
    exact .inr ⟨w, act, b, rfl, hwire, hb, rfl⟩

/-- Every datagram on the wire comes from a socket of the first tunnel. -/
theorem wire_sources (hrun : LinkRun opsA opsB socksA socksB s₀ tr s) (hwire : s₀.wire = []) :
    ∀ p ∈ s.wire, ∃ x ∈ socksA, x.name = p.src := by
  refine hrun.invariant (I := fun u => ∀ p ∈ u.wire, ∃ x ∈ socksA, x.name = p.src)
    (fun u x v hu hstep => ?_) ?_
  · rcases linkStep_cases hstep with ⟨w, act, a, -, -, rfl⟩ | ⟨w, act, b, -, -, -, rfl⟩
    · intro p hp
      rcases List.mem_append.1 hp with hp | hp
      · exact hu p hp
      · exact Sys.mem_packets hp
    · exact hu
  · rw [hwire]
    exact fun _ hp => absurd hp List.not_mem_nil

/-- The call of the second tunnel that a step is. -/
def LinkAction.ofB : LinkAction E F → Option (ℕ × Action F)
  | .a _ _ => none
  | .b w act => some (w, act)

/-- **The second tunnel runs as it does alone.** -/
theorem run_b (hrun : LinkRun opsA opsB socksA socksB s₀ tr s) :
    ∃ tr' : Trace N F, Run (Step opsB) s₀.b tr' s.b ∧
      ∀ e ∈ tr', ∃ e₀ ∈ tr, e₀.pre.b = e.pre ∧ e₀.act.ofB = some e.act := by
  refine hrun.project Link.b LinkAction.ofB fun u x v hstep => ?_
  rcases linkStep_cases hstep with ⟨w, act, a, -, -, rfl⟩ | ⟨w, act, b, rfl, -, hb, rfl⟩
  · exact .inr rfl
  · exact .inl ⟨(w, act), rfl, hb⟩

/-- The second tunnel only gets more devices. -/
theorem extends_b (hrun : LinkRun opsA opsB socksA socksB s₀ tr s)
    (hle : s₀.b.tunnel.numTapDevs ≤ s₀.b.tunnel.tapDevs.length)
    {e : Event (Link M N) (LinkAction E F)} (he : e ∈ tr) :
    Extends e.pre.b.tunnel s.b.tunnel := by
  obtain ⟨tr₁, tr₂, rfl⟩ := List.append_of_mem he
  obtain ⟨hpre, hstep, hpost⟩ := hrun.cut
  obtain ⟨tr', hrun', -⟩ := run_b hpre
  obtain ⟨tr'', hrun'', -⟩ := run_b (Run.cons hstep hpost)
  exact extends_of_run hrun'' (extends_of_run hrun' hle).size

end Link

section Heap

variable {env : CreateEnv HeapEnv} {params : TunnelParams} {s₀ s : Sys MapHeap}
  {tr : Trace MapHeap HeapEnv}

/-- Without a table there are no calls to answer. -/
theorem agreeInv_null (hnull : (heapOps.create env.mapCreate).map = none)
    (hcreate : tunnelCreate heapOps env params = .created s₀)
    (hrun : Run (Step heapOps) s₀ tr s) : AgreeInv (fun h : MapHeap => h.map = none) (fun _ _ => none) s := by
  refine hrun.invariant (I := AgreeInv (fun h : MapHeap => h.map = none) fun _ _ => none)
    (fun u wa v hu hstep => ?_) (agreeInv_created hnull (fun m e hadd => ?_) hcreate)
  · refine hu.step (fun env h e i hmap hret => ?_) hstep fun env id d m' _ _ _ hret => ?_
    · simp only [heapOps, hmap] at hret
      cases hret
    · simp only [heapOps, heapAdd, hu.good] at hret
      cases hret
  · simp only [heapOps, heapAdd] at hnull hadd
    rw [hnull] at hadd
    cases hadd

/-- **No two devices have one remote endpoint**, where the calls of `endpoint_map_add`
are sound. -/
theorem remote_injective_heap (hcreate : tunnelCreate heapOps env params = .created s₀)
    (hrun : Run (Step heapOps) s₀ tr s) (hadds : ∀ e ∈ tr, SoundAdds e.pre e.act) {i j : ℕ}
    {e : Endpoint} (hi : i < s.tunnel.numTapDevs) (hj : j < s.tunnel.numTapDevs)
    (hri : s.tunnel.remote i = some e) (hrj : s.tunnel.remote j = some e) : i = j := by
  cases hcalloc : env.mapCreate.calloc with
  | true => exact (agreeInv_heap hcalloc hcreate hrun hadds).remote_injective hi hj hri hrj
  | false =>
    rcases heapCreate_cases env.mapCreate with ⟨-, hnull⟩ | ⟨m, hm, -⟩
    · exact (agreeInv_null hnull hcreate hrun).remote_injective hi hj hri hrj
    · rw [hcalloc] at hm
      cases hm

end Heap

section OneEndpoint

variable {M E : Type} {ops : MapOps M E}

theorem tunnelCreateOn_created {env : CreateEnv E} {net : SockEnv} {params : TunnelParams}
    {socks : List UdpSocket} {s : Sys M}
    (h : tunnelCreateOn ops env net params = .created (socks, s)) :
    netCreateUdpSockFds net params.bindPort (env.numQueues params) = some socks ∧
      ∃ fds, tunnelCreate ops { env with udpSocks := some fds } params = .created s := by
  unfold tunnelCreateOn at h
  simp only [CreateOutcome.bind_eq_created, CreateOutcome.ofOption_eq_created,
    CreateOutcome.pure_eq_created] at h
  obtain ⟨socks', hsocks, s', hs, heq⟩ := h
  obtain ⟨rfl, rfl⟩ := Prod.mk.inj heq
  exact ⟨hsocks, _, hs⟩

end OneEndpoint

/-- **A tunnel looks like one endpoint to another** if it has a configured port, or one queue.
A worker sends through the socket of its own queue, and `net_create_udp_sock_fds` binds each
to `bind_port`; where that is 0 the kernel gives each socket a port of its own.  The tunnel
that receives has calls of `endpoint_map_add` that are sound, so it makes no second device
for an endpoint it knows. -/
theorem oneEndpoint {M E : Type} (ops : MapOps M E) (envA : CreateEnv E) (envB : CreateEnv HeapEnv)
    (netA netB : SockEnv) (paramsA paramsB : TunnelParams) (socksA socksB : List UdpSocket)
    (a : Sys M) (b : Sys MapHeap) (s : Link M MapHeap)
    (tr : List (Event (Link M MapHeap) (LinkAction E HeapEnv)))
    (ha : tunnelCreateOn ops envA netA paramsA = .created (socksA, a))
    (hb : tunnelCreateOn heapOps envB netB paramsB = .created (socksB, b))
    (hrun : LinkRun ops heapOps socksA socksB ⟨a, b, []⟩ tr s)
    (hport : ¬ (65536 : Int) ∣ paramsA.bindPort ∨ envA.numQueues paramsA ≤ 1)
    (hadds : ∀ e ∈ tr, ∀ x, e.act.ofB = some x → SoundAdds e.pre.b x) : s.OneEndpoint := by
  obtain ⟨hsocks, -⟩ := tunnelCreateOn_created ha
  obtain ⟨-, fds, hcreate⟩ := tunnelCreateOn_created hb
  have hone := (oneName_iff _ _).2 hport netA socksA hsocks
  have hwire := wire_sources hrun rfl
  have hsource : ∀ p ∈ s.wire, ∀ q ∈ s.wire, p.src = q.src := by
    intro p hp q hq
    obtain ⟨x, hx, hxp⟩ := hwire p hp
    obtain ⟨y, hy, hyq⟩ := hwire q hq
    rw [← hxp, ← hyq]
    exact hone x hx y hy
  obtain ⟨trB, hrunB, htrB⟩ := run_b hrun
  refine ⟨hsource, ?_⟩
  rintro i j ⟨hi, p, hp, hri⟩ ⟨hj, q, hq, hrj⟩
  rw [hsource q hq p hp] at hrj
  refine remote_injective_heap hcreate hrunB (fun e he => ?_) hi hj hri hrj
  obtain ⟨e₀, he₀, hpre, hact⟩ := htrB e he
  rw [← hpre]
  exact hadds e₀ he₀ e.act hact

/-! ### A link to try things on -/

/-- A tunnel with two queues to the host 10.10.10.1. -/
def twoQueues (bindPort : Int) : TunnelParams :=
  { numQueues := 2, defaultRemoteHost := some "peer".toList, defaultRemotePort := 1234,
    bindPort := bindPort, bindIface := some "eth0".toList, tunnelName := some "tunnel".toList }

/-- The kernel of that host. -/
def peerSocks : SockEnv := { countingPorts with ifAddr := some (10, 10, 10, 1) }

/-- A worker starts, finds the device readable and sends an empty frame. -/
def sendActions (fd : Fd) : List (Action Unit) :=
  [.start, .epollWait (some [(tapRegistration 0 fd).data]), .rdlock, .read 0 fd (some []),
    .sendto [] (switchHost 1) (some 0) 0]

/-- The calls of the memory of the second tunnel. -/
def linkHeapEnv : HeapEnv := heapEnv (.inPlace fun _ => {})

/-- Two workers send, and the second tunnel does the given. -/
def linkActions (acts : List (Action HeapEnv)) : List (LinkAction Unit HeapEnv) :=
  (sendActions 30).map (.a 0) ++ (sendActions 31).map (.a 1) ++ acts.map (.b 0)

/-- A test of the link after those calls, when they can be made. -/
def linkAfter (bindPort : Int) (acts : List (Action HeapEnv))
    (test : Link (Endpoint → Option ℕ) MapHeap → Bool) : Bool :=
  (tunnelCreateOn finiteMapOps (openEnv ()) countingPorts (twoQueues bindPort)).toOption.any
    fun (socksA, a) => (tunnelCreateOn heapOps (openEnv linkHeapEnv) peerSocks
        { openParams 1 with bindPort := 1234 }).toOption.any
      fun (socksB, b) => (exec (linkStep finiteMapOps heapOps socksA socksB) ⟨a, b, []⟩
        (linkActions acts)).any test

theorem exists_of_linkAfter {bindPort : Int} {acts : List (Action HeapEnv)}
    {test : Link (Endpoint → Option ℕ) MapHeap → Bool} (h : linkAfter bindPort acts test = true) :
    ∃ socksA a socksB b s tr,
      tunnelCreateOn finiteMapOps (openEnv ()) countingPorts (twoQueues bindPort) =
        .created (socksA, a) ∧
      tunnelCreateOn heapOps (openEnv linkHeapEnv) peerSocks { openParams 1 with bindPort := 1234 } =
        .created (socksB, b) ∧
      LinkRun finiteMapOps heapOps socksA socksB ⟨a, b, []⟩ tr s ∧
      tr.map (·.act) = linkActions acts ∧ test s = true := by
  obtain ⟨⟨socksA, a⟩, ha, h⟩ := (Option.any_eq_true _ _).1 h
  obtain ⟨⟨socksB, b⟩, hb, h⟩ := (Option.any_eq_true _ _).1 h
  obtain ⟨s, hs, h⟩ := (Option.any_eq_true _ _).1 h
  obtain ⟨tr, hrun, hacts⟩ := run_of_exec hs
  exact ⟨socksA, a, socksB, b, s, tr, CreateOutcome.toOption_eq_some.1 ha,
    CreateOutcome.toOption_eq_some.1 hb, hrun, hacts, h⟩

/-- The second tunnel admits an endpoint as the device with the descriptors from `fd` on. -/
def admitSrc (src : Endpoint) (fd : Fd) : List (Action HeapEnv) :=
  admitActions linkHeapEnv src (fd + ·) fd

/-- A socket of the first tunnel. -/
def firstSocket (port : U16) : Endpoint := ⟨.v4Mapped 10 10 10 2, htons port⟩

/-- With the port 4000 the datagrams of both workers arrive at one device. -/
theorem oneEndpoint_port : ∃ socksA a socksB b s tr,
    tunnelCreateOn finiteMapOps (openEnv ()) countingPorts (twoQueues 4000) =
      .created (socksA, a) ∧
    tunnelCreateOn heapOps (openEnv linkHeapEnv) peerSocks { openParams 1 with bindPort := 1234 } =
      .created (socksB, b) ∧
    LinkRun finiteMapOps heapOps socksA socksB ⟨a, b, []⟩ tr s ∧
    s.wire.length = 2 ∧ s.Made 0 ∧ s.OneEndpoint := by
  have htest : linkAfter 4000 (wakeActions HeapEnv ++ admitSrc (firstSocket 4000) 40 ++
      [.recvfrom (some ⟨true, firstSocket 4000, []⟩), .lookup linkHeapEnv,
        .write 40 [] (some 0) 0])
      (fun s => s.wire.length == 2 && s.Made 0 && s.b.tunnel.numTapDevs == 1) = true := by
    decide +kernel
  obtain ⟨socksA, a, socksB, b, s, tr, ha, hb, hrun, hacts, hs⟩ := exists_of_linkAfter htest
  simp only [Bool.and_eq_true, beq_iff_eq, decide_eq_true_eq] at hs
  obtain ⟨⟨hwire, hmade⟩, hnum⟩ := hs
  obtain ⟨-, fds, hcreate⟩ := tunnelCreateOn_created hb
  refine ⟨socksA, a, socksB, b, s, tr, ha, hb, hrun, hwire, hmade,
    oneEndpoint _ _ _ _ _ _ _ socksA socksB a b s tr ha hb hrun (.inl (by decide)) ?_⟩
  rintro e he ⟨w, act⟩ hact env m id d rfl - -
  have hext := extends_b hrun (size_of_created hcreate) he
  have hmem : e.act ∈ linkActions _ := hacts ▸ List.mem_map_of_mem he
  obtain ⟨u, x, v⟩ := e
  cases x with
  | a w' act' => cases hact
  | b w' act' =>
    obtain ⟨rfl, rfl⟩ := Prod.mk.inj (Option.some.inj hact)
    obtain ⟨-, rfl⟩ : w' = 0 ∧ env = linkHeapEnv := by
      simpa [linkActions, sendActions, wakeActions, admitSrc, admitActions, eq_comm] using hmem
    have hle := hext.numTapDevs
    exact ⟨by omega, soundAdd_zeroed m d.src id⟩

/-- **Without a configured port every socket gets a port of its own**, and a peer makes
a device for each. -/
theorem oneEndpoint_fails : ¬ ∀ (envA : CreateEnv Unit) (envB : CreateEnv HeapEnv)
    (netA netB : SockEnv) (paramsA paramsB : TunnelParams) (socksA socksB : List UdpSocket)
    (a : Sys (Endpoint → Option ℕ)) (b : Sys MapHeap) (s : Link (Endpoint → Option ℕ) MapHeap)
    (tr : List (Event (Link (Endpoint → Option ℕ) MapHeap) (LinkAction Unit HeapEnv))),
    tunnelCreateOn finiteMapOps envA netA paramsA = .created (socksA, a) →
    tunnelCreateOn heapOps envB netB paramsB = .created (socksB, b) →
    LinkRun finiteMapOps heapOps socksA socksB ⟨a, b, []⟩ tr s → s.OneEndpoint := by
  intro h
  have htest : linkAfter 0 (wakeActions HeapEnv ++ admitSrc (firstSocket 1) 40 ++
      admitSrc (firstSocket 2) 42) (fun s => s.Made 0 && s.Made 1) = true := by
    decide +kernel
  obtain ⟨socksA, a, socksB, b, s, tr, ha, hb, hrun, -, hs⟩ := exists_of_linkAfter htest
  simp only [Bool.and_eq_true, decide_eq_true_eq] at hs
  exact absurd ((h _ _ _ _ _ _ socksA socksB a b s tr ha hb hrun).device 0 1 hs.1 hs.2) (by decide)

end UdpEthTunnel
