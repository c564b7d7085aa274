/-
# Frames between two tunnels

A tunnel `a` sends to a tunnel `b` over a network that may lose datagrams and deliver them
in any order, but delivers none twice.  A frame that `a` reads from a device of `b` has one
fate: `b` writes it to its device for `a`, or it is lost at a place that can be named, or it
is on its way (`frames_accounted`).  The frame is cut to the buffers of both tunnels.

If both have one queue and the network keeps the order, so do the tunnels
(`frames_in_order`).
-/

import Mathlib.Data.Multiset.AddSub
import Mathlib.Tactic.Abel
import UdpEthTunnel.Lib.Flow
import UdpEthTunnel.Tunnel.Hands
import UdpEthTunnel.Tunnel.Link

namespace UdpEthTunnel

open Tunnel Runs Finset

/-- Two tunnels, and the datagrams of the first that are on their way. -/
structure Conduit (M N : Type) where
  a : Sys M
  b : Sys N
  inFlight : List Packet

inductive ConduitAction (E F : Type) where
  | a (w : ℕ) (act : Action E)
  /-- a call of `b`, which receives nothing that claims to be from `a` -/
  | b (w : ℕ) (act : Action F)
  /-- `recvfrom` of a worker of `b` gets the datagram `i` of those on their way -/
  | deliver (w i : ℕ)
  | lose (i : ℕ)

/-- What becomes of a frame. -/
inductive Fate where
  | delivered
  /-- `sendto` fails -/
  | unsent
  /-- on the network -/
  | lost
  /-- its source is not allowed in, or its device cannot be made -/
  | refused
  /-- `write` fails -/
  | rejected
deriving DecidableEq, Repr

/-- One of the sockets has this name. -/
def isName (socks : List UdpSocket) (e : Endpoint) : Bool := (socks.map (·.name)).contains e

/-- What `recvfrom` makes of a packet. -/
def Packet.datagram (p : Packet) : Datagram := ⟨true, p.src, p.payload⟩

/-- The frame that a call fails to send. -/
def Action.unsent {E : Type} (P : Endpoint → Bool) : Action E → List Bytes
  | .sendto frame dst none _ => if P dst then [frame] else []
  | _ => []

section Conduit

variable {M N E F : Type}

/-- A step of one of the tunnels, or of the network. -/
def conduitStep (opsA : MapOps M E) (opsB : MapOps N F) (socksA socksB : List UdpSocket)
    (s : Conduit M N) : ConduitAction E F → Option (Conduit M N)
  | .a w act => (workerThread opsA s.a w act).map fun a =>
      { s with a := a, inFlight := s.inFlight ++ s.a.packets socksA w act }
  | .b w act =>
    if act.received.any fun d => d.inet6 && isName socksA d.src then none
    else (workerThread opsB s.b w act).map fun b => { s with b := b }
  | .deliver w i => (s.inFlight[i]?).bind fun p =>
    if isName socksB p.dst then
      (workerThread opsB s.b w (.recvfrom (some p.datagram))).map fun b =>
        { s with b := b, inFlight := s.inFlight.eraseIdx i }
    else none
  | .lose i =>
    if i < s.inFlight.length then some { s with inFlight := s.inFlight.eraseIdx i } else none

/-- A run of the two tunnels and the network. -/
abbrev ConduitRun (opsA : MapOps M E) (opsB : MapOps N F) (socksA socksB : List UdpSocket) :
    Conduit M N → List (Event (Conduit M N) (ConduitAction E F)) → Conduit M N → Prop :=
  Run fun s x s' => conduitStep opsA opsB socksA socksB s x = some s'

/-- A step that leaves no registration without a device. -/
def CleanConduit (s : Conduit M N) : ConduitAction E F → Prop
  | .a w act => CleanAlloc s.a (w, act)
  | .b w act => CleanAlloc s.b (w, act)
  | .deliver _ _ | .lose _ => True

variable (socksA socksB : List UdpSocket)

/-- What is left of a frame in the buffer of `b`. -/
def Conduit.cut (s : Conduit M N) (frame : Bytes) : Bytes := frame.take (2 * s.b.tunnel.mtu)

/-- The frames on the network that are for `b`. -/
def Conduit.onTheWire (s : Conduit M N) : List Bytes :=
  (s.inFlight.filter fun p => isName socksB p.dst).map fun p => s.cut p.payload

/-- The frame for `b` that a step reads. -/
def frameTaken (e : Event (Conduit M N) (ConduitAction E F)) : List Bytes :=
  match e.act with
  | .a _ act => (e.pre.a.frameRead (isName socksB) act).map e.pre.cut
  | _ => []

/-- What a call of `b` does to the payload in hand. -/
def payloadFate (s s' : Sys N) (w : ℕ) (act : Action F) : List (Fate × Bytes) :=
  (s.payloadWritten (isName socksA) w act true).map (.delivered, ·) ++
    (s.payloadWritten (isName socksA) w act false).map (.rejected, ·) ++
    (s.payloadRefused (isName socksA) s' w act).map (.refused, ·)

/-- The frames that meet their fate in a step. -/
def fates (e : Event (Conduit M N) (ConduitAction E F)) : List (Fate × Bytes) :=
  match e.act with
  | .a _ act => (act.unsent (isName socksB)).map fun frame => (.unsent, e.pre.cut frame)
  | .b w act => payloadFate socksA e.pre.b e.post.b w act
  | .deliver _ _ => []
  | .lose i => ((e.pre.inFlight[i]?.filter fun p => isName socksB p.dst).map fun p =>
      (.lost, e.pre.cut p.payload)).toList

/-- The frames for `b` that the workers of `a` have in hand. -/
def Conduit.inHandsA (s : Conduit M N) : Multiset Bytes :=
  ∑ w ∈ range s.a.tunnel.numQueues, ((s.a.frameInHand (isName socksB) w).map s.cut : Multiset Bytes)

/-- The payloads of `a` that the workers of `b` have in hand. -/
def Conduit.inHandsB (s : Conduit M N) : Multiset Bytes :=
  ∑ w ∈ range s.b.tunnel.numQueues, (s.b.payloadInHand (isName socksA) w : Multiset Bytes)

/-- The frames on their way from `a` to `b`. -/
def Conduit.inTransit (s : Conduit M N) : Multiset Bytes :=
  s.inHandsA socksB + s.onTheWire socksB + s.inHandsB socksA

/-- The sockets of a tunnel are those it has been given. -/
def HasSockets (s : Sys M) (socks : List UdpSocket) : Prop :=
  ∀ q < s.tunnel.numQueues, ∃ fd, s.tunnel.udpFds[q]? = some fd ∧ ∃ x ∈ socks, x.fd = fd

end Conduit

/-! ### Sockets -/

section Sockets

variable {M E : Type} {ops : MapOps M E} {s s' : Sys M} {w : ℕ} {socks : List UdpSocket}

/-- A tunnel has a descriptor for each of its queues. -/
theorem queues_created {env : CreateEnv E} {net : SockEnv} {params : TunnelParams}
    (h : tunnelCreateOn ops env net params = .created (socks, s)) :
    socks.length = env.numQueues params ∧ s.tunnel.numQueues = env.numQueues params ∧
      s.tunnel.udpFds = (List.range (env.numQueues params)).map
        fun q => (socks[q]?.map (·.fd)).getD 0 := by
  unfold tunnelCreateOn at h
  simp only [CreateOutcome.bind_eq_created, CreateOutcome.ofOption_eq_created,
    CreateOutcome.pure_eq_created] at h
  obtain ⟨socks', hsocks, s', hcreate, heq⟩ := h
  obtain ⟨rfl, rfl⟩ := Prod.mk.inj heq
  refine ⟨length_socks hsocks, ?_⟩
  unfold tunnelCreate at hcreate
  simp only [CreateOutcome.bind_eq_created, CreateOutcome.check_eq_created,
    CreateOutcome.readStr_eq_created, CreateOutcome.ofOption_eq_created,
    CreateOutcome.pure_eq_created] at hcreate
  obtain ⟨_, -, _, -, _, -, _, -, fds, hfds, epollFds, -, _, -, allowed, -, ⟨t, epoll⟩, hdef, _, -,
    rfl⟩ := hcreate
  obtain rfl := Option.some.inj hfds
  -- the device of the default endpoint changes neither
  rcases createDefaultTap_created rfl hdef with ⟨-, rfl, -⟩ | ⟨e, htap⟩
  · exact ⟨rfl, rfl⟩
  · obtain ⟨map, -, hnew⟩ := htap.add
    exact ⟨hnew.ext.numQueues, hnew.ext.udpFds⟩

/-- A tunnel has the sockets it is created with. -/
theorem hasSockets_created {env : CreateEnv E} {net : SockEnv} {params : TunnelParams}
    (h : tunnelCreateOn ops env net params = .created (socks, s)) : HasSockets s socks := by
  obtain ⟨hlen, hnum, hudp⟩ := queues_created h
  intro q hq
  rw [hnum] at hq
  have hget : socks[q]? = some socks[q] := List.getElem?_eq_getElem (by omega)
  refine ⟨socks[q].fd, ?_, socks[q], List.getElem_mem _, rfl⟩
  rw [hudp, List.getElem?_map, List.getElem?_range hq]
  simp [hget]

theorem HasSockets.extends (h : HasSockets s socks) (hext : Extends s.tunnel s'.tunnel) :
    HasSockets s' socks := by
  intro q hq
  rw [hext.numQueues] at hq
  rw [hext.udpFds]
  exact h q hq

/-- Where a worker sends from. -/
theorem HasSockets.source (h : HasSockets s socks) (hq : (s.workers w).queueId < s.tunnel.numQueues) :
    ∃ src, s.source socks w = some src := by
  obtain ⟨fd, hfd, x, hx, hxfd⟩ := h _ hq
  unfold Sys.source
  rw [hfd, Option.bind_some]
  cases hfind : socks.find? fun x => x.fd == fd with
  | none =>
    have hnot := List.find?_eq_none.1 hfind x hx
    rw [hxfd, beq_self_eq_true] at hnot
    exact absurd rfl hnot
  | some y => exact ⟨y.name, rfl⟩

/-- **A frame is sent or it is not.** -/
theorem packets_balance (h : HasSockets s socks) (hdev : DevInv s) {a : Action E}
    (hstep : Step ops s (w, a) s') (P : Endpoint → Bool) :
    ((s.packets socks w a).filter fun p => P p.dst).map (·.payload) ++ a.unsent P = a.frameSent P := by
  have hs := hstep.stepOf.2.2
  cases hs with
  | sendto tev rest frame dst r now hpc =>
    cases r with
    | none =>
      show [] ++ (if P dst then [frame] else []) = _
      unfold Action.frameSent
      simp only [Action.sent, Option.filter_some]
      split_ifs <;> rfl
    | some n =>
      obtain ⟨src, hsrc⟩ := h.source (hdev.queue w (by simp [hpc]))
      unfold Sys.packets Action.frameSent
      simp only [Action.sent, Option.filter_some, hsrc, Option.toList_some, List.map_cons,
        List.map_nil, List.filter_cons, List.filter_nil]
      show _ ++ [] = _
      split_ifs <;> rfl
  | dieInMap tev rest p a hpc ha =>
    rcases ha with ⟨env, e, rfl, -⟩ | ⟨env, e, id, rfl, -⟩ <;> rfl
  | _ => rfl

end Sockets

/-! ### Steps -/

section Steps

variable {M E : Type} {opsA : MapOps M E} {socksA socksB : List UdpSocket}
  {s s' : Conduit M (Endpoint → Option ℕ)} {x : ConduitAction E Unit}

/-- What a step can do. -/
theorem conduitStep_cases (h : conduitStep opsA finiteMapOps socksA socksB s x = some s') :
    (∃ w act a, x = .a w act ∧ Step opsA s.a (w, act) a ∧
        s' = { s with a := a, inFlight := s.inFlight ++ s.a.packets socksA w act }) ∨
      (∃ w act b, x = .b w act ∧ s.b.payloadReceived (isName socksA) act = [] ∧
        Step finiteMapOps s.b (w, act) b ∧ s' = { s with b := b }) ∨
      (∃ w i p b, x = .deliver w i ∧ s.inFlight[i]? = some p ∧ isName socksB p.dst = true ∧
        Step finiteMapOps s.b (w, .recvfrom (some p.datagram)) b ∧
        s' = { s with b := b, inFlight := s.inFlight.eraseIdx i }) ∨
      ∃ i p, x = .lose i ∧ s.inFlight[i]? = some p ∧
        s' = { s with inFlight := s.inFlight.eraseIdx i } := by
  cases x with
  | a w act =>
    obtain ⟨a, ha, rfl⟩ := Option.map_eq_some_iff.1 h
    exact .inl ⟨w, act, a, rfl, ha, rfl⟩
  | b w act =>
    simp only [conduitStep] at h
    split_ifs at h with hpeer
    obtain ⟨b, hb, rfl⟩ := Option.map_eq_some_iff.1 h
    refine .inr (.inl ⟨w, act, b, rfl, ?_, hb, rfl⟩)
    unfold Sys.payloadReceived
    cases hrecv : act.received with
    | none => rfl
    | some d =>
      rw [hrecv, Option.any_some] at hpeer
      rw [Option.filter_some, if_neg hpeer]
      rfl
  | deliver w i =>
    obtain ⟨p, hp, h⟩ := Option.bind_eq_some_iff.1 h
    split_ifs at h with hdst
    obtain ⟨b, hb, rfl⟩ := Option.map_eq_some_iff.1 h
    exact .inr (.inr (.inl ⟨w, i, p, b, rfl, hp, hdst, hb, rfl⟩))
  | lose i =>
    simp only [conduitStep] at h
    split_ifs at h with hi
    obtain rfl := Option.some.inj h
    exact .inr (.inr (.inr ⟨i, s.inFlight[i], rfl, List.getElem?_eq_getElem hi, rfl⟩))

/-- The invariant of the two tunnels. -/
structure ConduitInv (socksA : List UdpSocket) (s : Conduit M (Endpoint → Option ℕ)) : Prop where
  devA : DevInv s.a
  socks : HasSockets s.a socksA
  mapB : MapInv s.b
  devB : DevInv s.b
  sources : ∀ p ∈ s.inFlight, isName socksA p.src = true

theorem isName_eq_true {socks : List UdpSocket} {e : Endpoint} :
    isName socks e = true ↔ ∃ x ∈ socks, x.name = e := by
  unfold isName
  rw [List.contains_iff_mem, List.mem_map]

/-- **Every clean step keeps the invariant.** -/
theorem ConduitInv.step (h : ConduitInv socksA s)
    (hstep : conduitStep opsA finiteMapOps socksA socksB s x = some s') (hclean : CleanConduit s x) :
    ConduitInv socksA s' := by
  rcases conduitStep_cases hstep with ⟨w, act, a, rfl, ha, rfl⟩ | ⟨w, act, b, rfl, -, hb, rfl⟩ |
    ⟨w, i, p, b, rfl, -, -, hb, rfl⟩ | ⟨i, p, rfl, -, rfl⟩
  · refine ⟨h.devA.step ha hclean, h.socks.extends (ha.stepOf.2.2.extends h.devA.size), h.mapB, h.devB,
      fun p hp => ?_⟩
    rcases List.mem_append.1 hp with hp | hp
    · exact h.sources p hp
    · exact isName_eq_true.2 (Sys.mem_packets hp)
  · exact ⟨h.devA, h.socks, (h.mapB.step hb).1, h.devB.step hb hclean, h.sources⟩
  · refine ⟨h.devA, h.socks, (h.mapB.step hb).1, h.devB.step hb nofun, fun p hp => ?_⟩
    exact h.sources p (List.mem_of_mem_eraseIdx hp)
  · exact ⟨h.devA, h.socks, h.mapB, h.devB, fun p hp => h.sources p (List.mem_of_mem_eraseIdx hp)⟩

/-- The frames of `a` that are for `b`. -/
theorem onTheWire_append (s : Conduit M (Endpoint → Option ℕ)) (a : Sys M) (ps : List Packet) :
    Conduit.onTheWire socksB { s with a := a, inFlight := s.inFlight ++ ps } =
      s.onTheWire socksB ++ ((ps.filter fun p => isName socksB p.dst).map (·.payload)).map s.cut := by
  unfold Conduit.onTheWire
  rw [List.filter_append, List.map_append, List.map_map]
  rfl

/-- A call of a worker of `b` does not change its buffer. -/
theorem cut_of_step {w : ℕ} {act : Action Unit} {b : Sys (Endpoint → Option ℕ)} {ps : List Packet}
    (h : ConduitInv socksA s) (hb : Step finiteMapOps s.b (w, act) b) :
    Conduit.cut { s with b := b, inFlight := ps } = s.cut := by
  have hmtu := (hb.stepOf.2.2.extends h.devB.size).mtu
  funext frame
  unfold Conduit.cut
  rw [hmtu]

/-- The frames of `a`, where `b` makes a step. -/
theorem inHandsA_of_step (socksB : List UdpSocket) {w : ℕ} {act : Action Unit}
    {b : Sys (Endpoint → Option ℕ)} (ps : List Packet) (h : ConduitInv socksA s) (hb : Step finiteMapOps s.b (w, act) b) :
    Conduit.inHandsA socksB { s with b := b, inFlight := ps } = s.inHandsA socksB ∧
      Conduit.onTheWire socksB { s with b := b, inFlight := ps } =
        Conduit.onTheWire socksB { s with inFlight := ps } := by
  unfold Conduit.inHandsA Conduit.onTheWire
  rw [cut_of_step h hb]
  exact ⟨rfl, rfl⟩

/-- What a datagram gives the worker that receives it. -/
theorem payloadReceived_datagram {p : Packet} (hsrc : isName socksA p.src = true) :
    s.b.payloadReceived (isName socksA) (.recvfrom (some p.datagram) : Action Unit) = [s.cut p.payload] := by
  unfold Sys.payloadReceived
  simp only [Action.received, Option.filter_some, Packet.datagram, hsrc, Bool.true_and, if_true]
  rfl

/-- What the network gives up or hands over is no longer on the wire. -/
theorem onTheWire_erase {i : ℕ} {p : Packet} (hp : s.inFlight[i]? = some p) :
    (s.onTheWire socksB : Multiset Bytes) =
      (((some p).filter fun p => isName socksB p.dst).map fun p => s.cut p.payload).toList +
        (Conduit.onTheWire socksB { s with inFlight := s.inFlight.eraseIdx i } : Multiset Bytes) := by
  obtain ⟨hi, rfl⟩ := List.getElem?_eq_some_iff.1 hp
  have hperm := (List.getElem_cons_eraseIdx_perm hi).symm
  have hwire := (hperm.filter fun p => isName socksB p.dst).map fun p => s.cut p.payload
  unfold Conduit.onTheWire
  rw [Multiset.coe_eq_coe.2 hwire, List.filter_cons, Option.filter_some]
  split_ifs
  · rfl
  · exact (zero_add _).symm

/-- The books of the workers of `a`. -/
theorem inHandsA_balance (socksB : List UdpSocket) (h : ConduitInv socksA s) {w : ℕ} {act : Action E} {a : Sys M}
    (ha : Step opsA s.a (w, act) a) (ps : List Packet) :
    s.inHandsA socksB + ((s.a.frameRead (isName socksB) act).map s.cut : Multiset Bytes) =
      ((((s.a.packets socksA w act).filter fun p => isName socksB p.dst).map (·.payload)).map s.cut +
          (act.unsent (isName socksB)).map s.cut : Multiset Bytes) +
        Conduit.inHandsA socksB { s with a := a, inFlight := ps } := by
  have hnum := (ha.stepOf.2.2.extends h.devA.size).numQueues
  have hown := congrArg (fun l : List Bytes => (l.map s.cut : Multiset Bytes))
    (ha.frames_balance (P := isName socksB) h.devA)
  rw [← packets_balance h.socks h.devA ha (isName socksB)] at hown
  simp only [List.map_append, ← Multiset.coe_add] at hown
  unfold Conduit.inHandsA
  rw [hnum]
  exact Flow.sum_move ha.stepOf.2.1
    (fun v hv => by rw [ha.frameInHand_ne h.devA hv]; rfl) hown

/-- The books of the workers of `b`. -/
theorem inHandsB_balance (h : ConduitInv socksA s) {w : ℕ} {act : Action Unit}
    {b : Sys (Endpoint → Option ℕ)} (hb : Step finiteMapOps s.b (w, act) b) (ps : List Packet) :
    s.inHandsB socksA + (s.b.payloadReceived (isName socksA) act : Multiset Bytes) =
      ((payloadFate socksA s.b b w act).map (·.2) : Multiset Bytes) +
        Conduit.inHandsB socksA { s with b := b, inFlight := ps } := by
  have hnum := (hb.stepOf.2.2.extends h.devB.size).numQueues
  have hfate : (payloadFate socksA s.b b w act).map (·.2) =
      s.b.payloadWritten (isName socksA) w act true ++ s.b.payloadWritten (isName socksA) w act false ++
        s.b.payloadRefused (isName socksA) b w act := by
    simp [payloadFate, Function.comp_def]
  have hown := congrArg (fun l : List Bytes => (l : Multiset Bytes))
    (hb.payloads_balance (P := isName socksA) h.mapB h.devB)
  rw [← hfate] at hown
  simp only [← Multiset.coe_add] at hown
  unfold Conduit.inHandsB
  rw [hnum]
  exact Flow.sum_move hb.stepOf.2.1 (fun v hv => by rw [hb.payloadInHand_ne hv]) hown

/-- A datagram that is delivered is in hand. -/
theorem inHandsB_deliver {w : ℕ} {p : Packet} {b : Sys (Endpoint → Option ℕ)}
    (hsrc : isName socksA p.src = true)
    (hb : Step finiteMapOps s.b (w, .recvfrom (some p.datagram)) b) (h : ConduitInv socksA s)
    (ps : List Packet) :
    s.inHandsB socksA + ([s.cut p.payload] : Multiset Bytes) =
      Conduit.inHandsB socksA { s with b := b, inFlight := ps } := by
  have hnum := (hb.stepOf.2.2.extends h.devB.size).numQueues
  have hown := congrArg (fun l : List Bytes => (l : Multiset Bytes))
    (hb.received_balance (P := isName socksA))
  rw [payloadReceived_datagram hsrc] at hown
  simp only [← Multiset.coe_add] at hown
  rw [← zero_add (b.payloadInHand (isName socksA) w : Multiset Bytes)] at hown
  unfold Conduit.inHandsB
  rw [hnum]
  exact (Flow.sum_move hb.stepOf.2.1 (fun v hv => by rw [hb.payloadInHand_ne hv]) hown).trans
    (zero_add _)

/-- **The books of a step.** -/
theorem conduit_balance (h : ConduitInv socksA s)
    (hstep : conduitStep opsA finiteMapOps socksA socksB s x = some s') :
    s.inTransit socksA socksB + (frameTaken socksB ⟨s, x, s'⟩ : Multiset Bytes) =
      ((fates socksA socksB ⟨s, x, s'⟩).map (·.2) : Multiset Bytes) + s'.inTransit socksA socksB := by
  unfold Conduit.inTransit
  rcases conduitStep_cases hstep with ⟨w, act, a, rfl, ha, rfl⟩ | ⟨w, act, b, rfl, hrecv, hb, rfl⟩ |
    ⟨w, i, p, b, rfl, hp, hdst, hb, rfl⟩ | ⟨i, p, rfl, hp, rfl⟩
  · have hstage := inHandsA_balance socksB h ha (s.inFlight ++ s.a.packets socksA w act)
    have hfates : ((act.unsent (isName socksB)).map fun frame => (Fate.unsent, s.cut frame)).map (·.2) =
        (act.unsent (isName socksB)).map s.cut := by
      rw [List.map_map]
      rfl
    show _ + ((s.a.frameRead (isName socksB) act).map s.cut : Multiset Bytes) =
      (((act.unsent (isName socksB)).map fun frame => (Fate.unsent, s.cut frame)).map (·.2) :
        Multiset Bytes) + (_ + _ + s.inHandsB socksA)
    rw [hfates, onTheWire_append, ← Multiset.coe_add, add_right_comm, add_right_comm (s.inHandsA socksB),
      hstage]
    abel
  · have hstage := inHandsB_balance h hb s.inFlight
    obtain ⟨hhands, hwire⟩ := inHandsA_of_step socksB s.inFlight h hb
    rw [hrecv] at hstage
    rw [hhands, hwire]
    refine (add_assoc _ _ _).trans ((congrArg (_ + ·) hstage).trans ?_)
    show _ = ((payloadFate socksA s.b b w act).map (·.2) : Multiset Bytes) + _
    abel
  · have hstage := inHandsB_deliver (h.sources p (List.mem_of_getElem? hp)) hb h (s.inFlight.eraseIdx i)
    obtain ⟨hhands, hwire⟩ := inHandsA_of_step socksB (s.inFlight.eraseIdx i) h hb
    rw [hhands, hwire, ← hstage, onTheWire_erase hp, Option.filter_some, if_pos hdst]
    show _ + (([s.cut p.payload] : Multiset Bytes) + _) + _ + 0 = 0 + _
    abel
  · rw [onTheWire_erase hp]
    have hfates : ((((some p).filter fun p => isName socksB p.dst).map fun p =>
        (Fate.lost, s.cut p.payload)).toList).map (·.2) =
          (((some p).filter fun p => isName socksB p.dst).map fun p => s.cut p.payload).toList := by
      rw [Option.filter_some]
      split_ifs <;> rfl
    show _ + 0 = ((((s.inFlight[i]?).filter fun p => isName socksB p.dst).map fun p =>
      (Fate.lost, s.cut p.payload)).toList.map (·.2) : Multiset Bytes) +
        (s.inHandsA socksB + _ + s.inHandsB socksA)
    rw [hp, hfates]
    abel

/-- The invariant holds along a run, and the books of each step balance. -/
theorem conduit_run {s₀ : Conduit M (Endpoint → Option ℕ)}
    {tr : List (Event (Conduit M (Endpoint → Option ℕ)) (ConduitAction E Unit))}
    (h : ConduitInv socksA s₀) (hrun : ConduitRun opsA finiteMapOps socksA socksB s₀ tr s)
    (hclean : ∀ e ∈ tr, CleanConduit e.pre e.act) :
    ∀ e ∈ tr, ConduitInv socksA e.pre ∧
      conduitStep opsA finiteMapOps socksA socksB e.pre e.act = some e.post :=
  fun _ he => hrun.pre_of_mem (fun _ _ _ hu hG hstep => hu.step hstep hG) hclean h he

/-- Two tunnels that have been created. -/
theorem conduitInv_created {envA : CreateEnv E} {envB : CreateEnv Unit} {netA netB : SockEnv}
    {paramsA paramsB : TunnelParams} {a : Sys M} {b : Sys (Endpoint → Option ℕ)}
    (ha : tunnelCreateOn opsA envA netA paramsA = .created (socksA, a))
    (hb : tunnelCreateOn finiteMapOps envB netB paramsB = .created (socksB, b)) :
    ConduitInv socksA ⟨a, b, []⟩ := by
  obtain ⟨-, fdsA, hcreateA⟩ := tunnelCreateOn_created ha
  obtain ⟨-, fdsB, hcreateB⟩ := tunnelCreateOn_created hb
  exact ⟨devInv_created hcreateA, hasSockets_created ha, mapInv_created hcreateB,
    devInv_created hcreateB, nofun⟩

/-- Workers that have not started have nothing in hand. -/
theorem inHand_created {envA : CreateEnv E} {envB : CreateEnv Unit} {netA netB : SockEnv}
    {paramsA paramsB : TunnelParams} {a : Sys M} {b : Sys (Endpoint → Option ℕ)}
    (ha : tunnelCreateOn opsA envA netA paramsA = .created (socksA, a))
    (hb : tunnelCreateOn finiteMapOps envB netB paramsB = .created (socksB, b)) :
    (∀ w, a.frameInHand (isName socksB) w = []) ∧ ∀ w, b.payloadInHand (isName socksA) w = [] := by
  obtain ⟨-, fdsA, hcreateA⟩ := tunnelCreateOn_created ha
  obtain ⟨-, fdsB, hcreateB⟩ := tunnelCreateOn_created hb
  have hA := (tunnelCreate_created hcreateA).1
  have hB := (tunnelCreate_created hcreateB).1
  refine ⟨fun w => ?_, fun w => ?_⟩
  · unfold Sys.frameInHand
    rw [hA w]
    rfl
  · unfold Sys.payloadInHand
    rw [hB w]
    rfl

end Steps

/-! ### Runs -/

/-- **Every frame is accounted for.**  In every run of two tunnels, the second one with a finite
map, over a network that may lose and reorder but not duplicate, in which no call of
`tunnel_alloc_new_tap` fails after it has registered a descriptor: the frames that the first
tunnel has read from its devices for the second, each cut to the buffers of both, are those
that have met a fate and those in transit. -/
theorem frames_accounted {M E : Type} (opsA : MapOps M E) (envA : CreateEnv E) (envB : CreateEnv Unit)
    (netA netB : SockEnv) (paramsA paramsB : TunnelParams) (socksA socksB : List UdpSocket) (a : Sys M)
    (b : Sys (Endpoint → Option ℕ)) (s : Conduit M (Endpoint → Option ℕ))
    (tr : List (Event (Conduit M (Endpoint → Option ℕ)) (ConduitAction E Unit)))
    (ha : tunnelCreateOn opsA envA netA paramsA = .created (socksA, a))
    (hb : tunnelCreateOn finiteMapOps envB netB paramsB = .created (socksB, b))
    (hrun : ConduitRun opsA finiteMapOps socksA socksB ⟨a, b, []⟩ tr s)
    (hclean : ∀ e ∈ tr, CleanConduit e.pre e.act) :
    (tr.flatMap (frameTaken socksB) : Multiset Bytes) =
      ((tr.flatMap (fates socksA socksB)).map (·.2) : Multiset Bytes) + s.inTransit socksA socksB := by
  have hsteps := conduit_run (conduitInv_created ha hb) hrun hclean
  have hbalance : ∀ e ∈ tr, e.pre.inTransit socksA socksB + (frameTaken socksB e : Multiset Bytes) =
      ((fates socksA socksB e).map (·.2) : Multiset Bytes) + e.post.inTransit socksA socksB :=
    fun e he => conduit_balance (hsteps e he).1 (hsteps e he).2
  have hbooks := Flow.balance hrun hbalance
  have hstart : Conduit.inTransit socksA socksB ⟨a, b, []⟩ = 0 := by
    obtain ⟨hA, hB⟩ := inHand_created ha hb
    unfold Conduit.inTransit Conduit.inHandsA Conduit.inHandsB
    rw [sum_eq_zero fun w _ => by rw [hA w]; rfl, sum_eq_zero fun w _ => by rw [hB w]; rfl]
    rfl
  rw [hstart, zero_add, Flow.sum_coe, Flow.sum_coe] at hbooks
  rw [hbooks, List.map_flatMap]

/-! ### Two tunnels to try things on -/

/-- A tunnel with one queue. -/
def oneQueue (bindPort remotePort : Int) : TunnelParams :=
  { numQueues := 1, defaultRemoteHost := some "peer".toList, defaultRemotePort := remotePort,
    bindPort := bindPort, bindIface := some "eth0".toList, tunnelName := some "tunnel".toList }

/-- The calls of the one at 10.10.10.1. -/
def nearEnv : CreateEnv Unit := { openEnv () with lookupHost := fun _ => some (.v4Mapped 10 10 10 2) }

/-- It sends two frames, of which the first is lost and the second is delivered. -/
def conduitActions : List (ConduitAction Unit Unit) :=
  ([.start, .epollWait (some [(tapRegistration 0 30).data]), .rdlock, .read 0 30 (some [7, 8]),
      .sendto [7, 8] (firstSocket 4000) (some 2) 0, .read 0 30 (some [9]),
      .sendto [9] (firstSocket 4000) (some 1) 0] : List (Action Unit)).map (.a 0) ++
    ([.start, .epollWait (some [(udpRegistration 10).data]), .rdlock] : List (Action Unit)).map (.b 0) ++
    [.lose 0, .deliver 0 0] ++
    ([.lookup (), .write 30 [9] (some 1) 0] : List (Action Unit)).map (.b 0)

theorem exists_conduit : ∃ socksA a socksB b,
    tunnelCreateOn finiteMapOps nearEnv peerSocks (oneQueue 1234 4000) = .created (socksA, a) ∧
    tunnelCreateOn finiteMapOps (openEnv ()) countingPorts (oneQueue 4000 1234) =
      .created (socksB, b) ∧
    ∃ s tr, ConduitRun finiteMapOps finiteMapOps socksA socksB ⟨a, b, []⟩ tr s ∧
      tr.map (·.act) = conduitActions := by
  have htest : (tunnelCreateOn finiteMapOps nearEnv peerSocks (oneQueue 1234 4000)).toOption.any
      (fun x => (tunnelCreateOn finiteMapOps (openEnv ()) countingPorts (oneQueue 4000 1234)).toOption.any
        fun y => (exec (conduitStep finiteMapOps finiteMapOps x.1 y.1) ⟨x.2, y.2, []⟩
          conduitActions).isSome) = true := by decide +kernel
  obtain ⟨⟨socksA, a⟩, ha, h⟩ := (Option.any_eq_true _ _).1 htest
  obtain ⟨⟨socksB, b⟩, hb, h⟩ := (Option.any_eq_true _ _).1 h
  obtain ⟨s, hs⟩ := Option.isSome_iff_exists.1 h
  obtain ⟨tr, hrun, hacts⟩ := run_of_exec hs
  exact ⟨socksA, a, socksB, b, CreateOutcome.toOption_eq_some.1 ha,
    CreateOutcome.toOption_eq_some.1 hb, s, tr, hrun, hacts⟩

/-- None of those calls makes a device. -/
theorem clean_of_conduitActions {M N : Type} {s : Conduit M N} {x : ConduitAction Unit Unit}
    (hx : x ∈ conduitActions) : CleanConduit s x := by
  simp only [conduitActions, List.map_cons, List.map_nil, List.cons_append, List.nil_append,
    List.mem_cons, List.not_mem_nil, or_false] at hx
  rcases hx with rfl | rfl | rfl | rfl | rfl | rfl | rfl | rfl | rfl | rfl | rfl | rfl | rfl | rfl <;>
    first | trivial | nofun

theorem frames_accounted_two : ∃ socksA a socksB b s tr,
    tunnelCreateOn finiteMapOps nearEnv peerSocks (oneQueue 1234 4000) = .created (socksA, a) ∧
    tunnelCreateOn finiteMapOps (openEnv ()) countingPorts (oneQueue 4000 1234) =
      .created (socksB, b) ∧
    ConduitRun finiteMapOps finiteMapOps socksA socksB ⟨a, b, []⟩ tr s ∧
    tr.map (·.act) = conduitActions ∧
    (tr.flatMap (frameTaken socksB) : Multiset Bytes) =
      ((tr.flatMap (fates socksA socksB)).map (·.2) : Multiset Bytes) + s.inTransit socksA socksB := by
  obtain ⟨socksA, a, socksB, b, ha, hb, s, tr, hrun, hacts⟩ := exists_conduit
  refine ⟨socksA, a, socksB, b, s, tr, ha, hb, hrun, hacts, ?_⟩
  exact frames_accounted finiteMapOps nearEnv (openEnv ()) peerSocks countingPorts (oneQueue 1234 4000)
    (oneQueue 4000 1234) socksA socksB a b s tr ha hb hrun fun e he =>
      clean_of_conduitActions (hacts ▸ List.mem_map_of_mem he)

/-! ### In order -/

section InOrder

variable {M E : Type} {opsA : MapOps M E} {socksA socksB : List UdpSocket}
  {s s' : Conduit M (Endpoint → Option ℕ)} {x : ConduitAction E Unit}

/-- Of the datagrams for `b`, the first is delivered. -/
def FirstOut (socksB : List UdpSocket) {N F : Type} (s : Conduit M N) : ConduitAction E F → Prop
  | .deliver _ i => ∀ j < i, ∀ p ∈ s.inFlight[j]?, isName socksB p.dst = false
  | _ => True

/-- What a step delivers. -/
def delivered (socksA socksB : List UdpSocket) {N F : Type}
    (e : Event (Conduit M N) (ConduitAction E F)) : List Bytes :=
  ((fates socksA socksB e).filter fun x => x.1 = .delivered).map (·.2)

/-- What tunnels with one queue hold, from the last stage to the first. -/
def Conduit.inLine (socksA socksB : List UdpSocket) {N : Type} (s : Conduit M N) : List Bytes :=
  s.b.payloadInHand (isName socksA) 0 ++
    (s.onTheWire socksB ++ (s.a.frameInHand (isName socksB) 0).map s.cut)

/-- A network that loses a datagram, or delivers the first. -/
theorem filter_eraseIdx {ps : List Packet} {i : ℕ} {p : Packet} {Q : Packet → Bool}
    (hp : ps[i]? = some p) (hQ : Q p = true) (hfirst : ∀ j < i, ∀ p ∈ ps[j]?, Q p = false) :
    ps.filter Q = p :: (ps.eraseIdx i).filter Q := by
  obtain ⟨hi, rfl⟩ := List.getElem?_eq_some_iff.1 hp
  have hbefore : (ps.take i).filter Q = [] := by
    refine List.filter_eq_nil_iff.2 fun q hq => ?_
    obtain ⟨j, hj, rfl⟩ := List.mem_take_iff_getElem.1 hq
    have hfalse := hfirst j (by omega) ps[j] (List.getElem?_eq_getElem _)
    rw [hfalse]
    decide
  have hsplit : ps = ps.take i ++ ps[i] :: ps.drop (i + 1) := by
    rw [← List.drop_eq_getElem_cons, List.take_append_drop]
  rw [List.eraseIdx_eq_take_drop_succ, List.filter_append, hbefore, List.nil_append]
  conv_lhs => rw [hsplit]
  rw [List.filter_append, hbefore, List.nil_append, List.filter_cons, if_pos hQ]

/-- Without a `write`, nothing is delivered. -/
theorem delivered_unsent {act : Action E} {s' : Conduit M (Endpoint → Option ℕ)} {w : ℕ} :
    delivered socksA socksB
      (⟨s, .a w act, s'⟩ : Event (Conduit M (Endpoint → Option ℕ)) (ConduitAction E Unit)) = [] := by
  show (((act.unsent (isName socksB)).map fun frame => (Fate.unsent, s.cut frame)).filter
    fun x => x.1 = .delivered).map (·.2) = []
  rw [List.filter_eq_nil_iff.2, List.map_nil]
  intro y hy
  obtain ⟨frame, -, rfl⟩ := List.mem_map.1 hy
  exact fun h => Fate.noConfusion (of_decide_eq_true h)

/-- What is delivered is what the devices take. -/
theorem delivered_written {act : Action Unit} {s' : Conduit M (Endpoint → Option ℕ)} {w : ℕ} :
    delivered socksA socksB
        (⟨s, .b w act, s'⟩ : Event (Conduit M (Endpoint → Option ℕ)) (ConduitAction E Unit)) =
      s.b.payloadWritten (isName socksA) w act true := by
  show ((payloadFate socksA s.b s'.b w act).filter fun x => x.1 = .delivered).map (·.2) = _
  simp [payloadFate, List.filter_append, List.filter_map, Function.comp_def]

/-- Losing a datagram delivers nothing. -/
theorem delivered_lose {s' : Conduit M (Endpoint → Option ℕ)} {i : ℕ} :
    delivered socksA socksB
      (⟨s, .lose i, s'⟩ : Event (Conduit M (Endpoint → Option ℕ)) (ConduitAction E Unit)) = [] := by
  show (((s.inFlight[i]?.filter fun p => isName socksB p.dst).map fun p =>
    (Fate.lost, s.cut p.payload)).toList.filter fun x => x.1 = .delivered).map (·.2) = []
  rw [List.filter_eq_nil_iff.2, List.map_nil]
  intro y hy
  obtain ⟨p, -, rfl⟩ := Option.map_eq_some_iff.1 (Option.mem_toList.1 hy)
  exact fun h => Fate.noConfusion (of_decide_eq_true h)

/-- **A step of tunnels with one queue keeps the order.** -/
theorem inLine_lossy (h : ConduitInv socksA s) (hone : s.a.tunnel.numQueues = 1 ∧ s.b.tunnel.numQueues = 1)
    (hstep : conduitStep opsA finiteMapOps socksA socksB s x = some s') (hfirst : FirstOut socksB s x) :
    Flow.Lossy (s.inLine socksA socksB) (frameTaken socksB ⟨s, x, s'⟩)
      (delivered socksA socksB ⟨s, x, s'⟩) (s'.inLine socksA socksB) := by
  unfold Conduit.inLine
  rcases conduitStep_cases hstep with ⟨w, act, a, rfl, ha, rfl⟩ | ⟨w, act, b, rfl, hrecv, hb, rfl⟩ |
    ⟨w, i, p, b, rfl, hp, hdst, hb, rfl⟩ | ⟨i, p, rfl, hp, rfl⟩
  · obtain rfl : w = 0 := by
      have := ha.stepOf.2.1
      omega
    have hown := ha.frames_balance (P := isName socksB) h.devA
    rw [← packets_balance h.socks h.devA ha (isName socksB)] at hown
    have hsend : Flow.Lossy (s.a.frameInHand (isName socksB) 0) (s.a.frameRead (isName socksB) act)
        (((s.a.packets socksA 0 act).filter fun p => isName socksB p.dst).map (·.payload))
        (a.frameInHand (isName socksB) 0) := by
      unfold Flow.Lossy
      rw [hown]
      exact (List.sublist_append_left _ _).append (List.Sublist.refl _)
    have hwire : Flow.Lossy (s.onTheWire socksB)
        ((((s.a.packets socksA 0 act).filter fun p => isName socksB p.dst).map (·.payload)).map s.cut) []
        (Conduit.onTheWire socksB { s with a := a, inFlight := s.inFlight ++ s.a.packets socksA 0 act }) := by
      rw [onTheWire_append]
      exact .of_eq rfl
    rw [delivered_unsent]
    exact ((hsend.map s.cut).series hwire).series (.idle _)
  · obtain rfl : w = 0 := by
      have := hb.stepOf.2.1
      omega
    have hown := hb.payloads_balance (P := isName socksA) h.mapB h.devB
    rw [hrecv, List.append_nil, List.append_assoc, List.append_assoc] at hown
    have hwrite : Flow.Lossy (s.b.payloadInHand (isName socksA) 0) []
        (s.b.payloadWritten (isName socksA) 0 act true) (b.payloadInHand (isName socksA) 0) := by
      unfold Flow.Lossy
      rw [hown, List.append_nil]
      -- what the device rejects and what is refused is missing
      exact (List.Sublist.refl _).append
        ((List.sublist_append_right _ _).trans (List.sublist_append_right _ _))
    have hwire := (inHandsA_of_step socksB s.inFlight h hb).2
    rw [delivered_written, hwire, cut_of_step h hb]
    exact (Flow.Lossy.idle _).series hwrite
  · obtain rfl : w = 0 := by
      have := hb.stepOf.2.1
      omega
    have hsrc := h.sources p (List.mem_of_getElem? hp)
    have hown := hb.received_balance (P := isName socksA)
    rw [payloadReceived_datagram hsrc] at hown
    have hwire := (inHandsA_of_step socksB (s.inFlight.eraseIdx i) h hb).2
    have hhead : s.onTheWire socksB =
        s.cut p.payload :: Conduit.onTheWire socksB { s with inFlight := s.inFlight.eraseIdx i } := by
      unfold Conduit.onTheWire
      rw [filter_eraseIdx hp hdst hfirst]
      rfl
    rw [hwire, cut_of_step h hb, ← hown, hhead]
    refine .of_eq ?_
    show _ ++ [] = [] ++ _
    rw [List.append_nil, List.nil_append, List.append_assoc]
    rfl
  · have hwire : (Conduit.onTheWire socksB { s with inFlight := s.inFlight.eraseIdx i }).Sublist
        (s.onTheWire socksB) :=
      ((List.eraseIdx_sublist s.inFlight i).filter _).map _
    rw [delivered_lose]
    show List.Sublist ([] ++ _) (_ ++ [])
    rw [List.append_nil, List.nil_append]
    exact (List.Sublist.refl _).append (hwire.append (List.Sublist.refl _))

/-- The number of queues stays that of the tunnel as created. -/
theorem numQueues_of_conduitStep (h : ConduitInv socksA s)
    (hstep : conduitStep opsA finiteMapOps socksA socksB s x = some s') :
    s'.a.tunnel.numQueues = s.a.tunnel.numQueues ∧ s'.b.tunnel.numQueues = s.b.tunnel.numQueues := by
  rcases conduitStep_cases hstep with ⟨w, act, a, rfl, ha, rfl⟩ | ⟨w, act, b, rfl, -, hb, rfl⟩ |
    ⟨w, i, p, b, rfl, -, -, hb, rfl⟩ | ⟨i, p, rfl, -, rfl⟩
  · exact ⟨(ha.stepOf.2.2.extends h.devA.size).numQueues, rfl⟩
  · exact ⟨rfl, (hb.stepOf.2.2.extends h.devB.size).numQueues⟩
  · exact ⟨rfl, (hb.stepOf.2.2.extends h.devB.size).numQueues⟩
  · exact ⟨rfl, rfl⟩

/-- The datagram that is delivered is the only one. -/
theorem firstOut_of_conduitActions {N : Type} {s : Conduit M N} {x : ConduitAction Unit Unit}
    (hx : x ∈ conduitActions) : FirstOut socksB s x := by
  simp only [conduitActions, List.map_cons, List.map_nil, List.cons_append, List.nil_append,
    List.mem_cons, List.not_mem_nil, or_false] at hx
  rcases hx with rfl | rfl | rfl | rfl | rfl | rfl | rfl | rfl | rfl | rfl | rfl | rfl | rfl | rfl <;>
    first | trivial | exact fun j hj => absurd hj (Nat.not_lt_zero j)

end InOrder

/-- **One queue keeps the order.**  If both tunnels have one queue, and the network delivers to the
second, which has a finite map, in the order in which the first has sent, though it may lose
datagrams, then the frames that are delivered are among those read, each at most once and in
the order in which they have been read.  Nobody else's payload is among them: the device of the
first tunnel is looked up by the source of each datagram. -/
theorem frames_in_order {M E : Type} (opsA : MapOps M E) (envA : CreateEnv E) (envB : CreateEnv Unit)
    (netA netB : SockEnv) (paramsA paramsB : TunnelParams) (socksA socksB : List UdpSocket) (a : Sys M)
    (b : Sys (Endpoint → Option ℕ)) (s : Conduit M (Endpoint → Option ℕ))
    (tr : List (Event (Conduit M (Endpoint → Option ℕ)) (ConduitAction E Unit)))
    (ha : tunnelCreateOn opsA envA netA paramsA = .created (socksA, a))
    (hb : tunnelCreateOn finiteMapOps envB netB paramsB = .created (socksB, b))
    (honeA : envA.numQueues paramsA = 1) (honeB : envB.numQueues paramsB = 1)
    (hrun : ConduitRun opsA finiteMapOps socksA socksB ⟨a, b, []⟩ tr s)
    (hclean : ∀ e ∈ tr, CleanConduit e.pre e.act) (hfirst : ∀ e ∈ tr, FirstOut socksB e.pre e.act) :
    (tr.flatMap (delivered socksA socksB)).Sublist (tr.flatMap (frameTaken socksB)) := by
  have hsteps := conduit_run (conduitInv_created ha hb) hrun hclean
  have hqueues : ∀ e ∈ tr, e.pre.a.tunnel.numQueues = 1 ∧ e.pre.b.tunnel.numQueues = 1 := by
    obtain ⟨-, hnumA, -⟩ := queues_created ha
    obtain ⟨-, hnumB, -⟩ := queues_created hb
    intro e he
    refine (hrun.pre_of_mem (I := fun u => ConduitInv socksA u ∧
      u.a.tunnel.numQueues = 1 ∧ u.b.tunnel.numQueues = 1) (fun u x v hu hG hstep => ?_) hclean
      ⟨conduitInv_created ha hb, hnumA.trans honeA, hnumB.trans honeB⟩ he).1.2
    obtain ⟨hkeepA, hkeepB⟩ := numQueues_of_conduitStep hu.1 hstep
    exact ⟨hu.1.step hstep hG, hkeepA.trans hu.2.1, hkeepB.trans hu.2.2⟩
  have hlossy := Flow.lossy_run hrun fun e he =>
    inLine_lossy (hsteps e he).1 (hqueues e he) (hsteps e he).2 (hfirst e he)
  have hstart : Conduit.inLine socksA socksB ⟨a, b, []⟩ = [] := by
    obtain ⟨hA, hB⟩ := inHand_created ha hb
    unfold Conduit.inLine
    rw [hA, hB]
    rfl
  rw [hstart] at hlossy
  exact hlossy.sublist

theorem frames_in_order_two : ∃ socksA a socksB b s tr,
    tunnelCreateOn finiteMapOps nearEnv peerSocks (oneQueue 1234 4000) = .created (socksA, a) ∧
    tunnelCreateOn finiteMapOps (openEnv ()) countingPorts (oneQueue 4000 1234) =
      .created (socksB, b) ∧
    ConduitRun finiteMapOps finiteMapOps socksA socksB ⟨a, b, []⟩ tr s ∧
    tr.map (·.act) = conduitActions ∧
    (tr.flatMap (delivered socksA socksB)).Sublist (tr.flatMap (frameTaken socksB)) := by
  obtain ⟨socksA, a, socksB, b, ha, hb, s, tr, hrun, hacts⟩ := exists_conduit
  have hmem : ∀ e ∈ tr, e.act ∈ conduitActions := fun e he => hacts ▸ List.mem_map_of_mem he
  refine ⟨socksA, a, socksB, b, s, tr, ha, hb, hrun, hacts, ?_⟩
  exact frames_in_order finiteMapOps nearEnv (openEnv ()) peerSocks countingPorts (oneQueue 1234 4000)
    (oneQueue 4000 1234) socksA socksB a b s tr ha hb rfl rfl hrun
    (fun e he => clean_of_conduitActions (hmem e he)) fun e he => firstOut_of_conduitActions (hmem e he)

end UdpEthTunnel
