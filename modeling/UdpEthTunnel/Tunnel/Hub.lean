/-
# The tunnel as a hub

What the tunnel is for: a hub with a port for each endpoint, numbered in the order in which
they have been admitted.  A payload from the endpoint of a port is delivered to that port,
and a frame from the port is sent to its endpoint.  The hub knows no threads, no lock and no
tables, and admits an endpoint in one step.

Every run of the tunnel is a run of the hub (`refines_hub`): what the workers do in between,
in whatever order, is not seen.
-/

import UdpEthTunnel.Lib.Flow
import UdpEthTunnel.Lib.Simulation
import UdpEthTunnel.Tunnel.Admission
import UdpEthTunnel.Tunnel.Hands

namespace UdpEthTunnel

open Tunnel Runs Finset

/-! ### The hub -/

@[ext] structure Hub where
  ports : List Endpoint
  /-- payloads that have arrived and have not been dealt with -/
  arrived : Multiset (Endpoint × Bytes)
  /-- frames that have been taken from a port and have not been sent -/
  taken : Multiset (ℕ × Bytes)

inductive HubAction where
  /-- a payload arrives -/
  | arrive (e : Endpoint) (payload : Bytes)
  | attach (e : Endpoint)
  /-- a payload is given up -/
  | drop (e : Endpoint) (payload : Bytes)
  /-- a payload is offered to a port, which accepts it or does not -/
  | deliver (i : ℕ) (payload : Bytes) (ok : Bool)
  | take (i : ℕ) (frame : Bytes)
  /-- a frame is sent, or cannot be -/
  | send (i : ℕ) (e : Endpoint) (frame : Bytes) (ok : Bool)

/-- A step of a hub that lets in the addresses `allows`. -/
inductive HubStep (allows : IpAddr → Bool) (h : Hub) : HubAction → Hub → Prop
  | arrive (e : Endpoint) (payload : Bytes) :
      HubStep allows h (.arrive e payload) { h with arrived := (e, payload) ::ₘ h.arrived }
  | attach (e : Endpoint) (hallows : allows e.addr = true) (hnew : e ∉ h.ports)
      (hreason : ∃ payload, (e, payload) ∈ h.arrived) :
      HubStep allows h (.attach e) { h with ports := h.ports ++ [e] }
  | drop (e : Endpoint) (payload : Bytes) (arrived : Multiset (Endpoint × Bytes))
      (harrived : h.arrived = (e, payload) ::ₘ arrived) :
      HubStep allows h (.drop e payload) { h with arrived := arrived }
  | deliver (i : ℕ) (e : Endpoint) (payload : Bytes) (ok : Bool)
      (arrived : Multiset (Endpoint × Bytes)) (hport : h.ports[i]? = some e)
      (harrived : h.arrived = (e, payload) ::ₘ arrived) :
      HubStep allows h (.deliver i payload ok) { h with arrived := arrived }
  | take (i : ℕ) (frame : Bytes) (hport : i < h.ports.length) :
      HubStep allows h (.take i frame) { h with taken := (i, frame) ::ₘ h.taken }
  | send (i : ℕ) (e : Endpoint) (frame : Bytes) (ok : Bool) (taken : Multiset (ℕ × Bytes))
      (hport : h.ports[i]? = some e) (htaken : h.taken = (i, frame) ::ₘ taken) :
      HubStep allows h (.send i e frame ok) { h with taken := taken }

theorem HubStep.of_eq {allows : IpAddr → Bool} {h h' h'' : Hub} {b : HubAction}
    (hstep : HubStep allows h b h') (hports : h''.ports = h'.ports) (harrived : h''.arrived = h'.arrived)
    (htaken : h''.taken = h'.taken) : HubStep allows h b h'' :=
  Hub.ext hports harrived htaken ▸ hstep

/-! ### The tunnel seen as a hub -/

namespace Sys

variable {M : Type} (s : Sys M)

/-- The payload that worker `w` has in hand, with its source. -/
def payloadOf (w : ℕ) : List (Endpoint × Bytes) :=
  ((s.workers w).pc.datagram.map fun d => (d.src, d.payload)).toList

/-- The frame that worker `w` has in hand, with the number of its device. -/
def frameOf (w : ℕ) : List (ℕ × Bytes) :=
  ((s.workers w).pc.frame.map fun x => (x.1.toNat, x.2)).toList

/-- The tunnel as a hub: its devices are the ports. -/
def hub : Hub where
  ports := (List.range s.tunnel.numTapDevs).map fun i : ℕ => (s.tunnel.remote i).getD default
  arrived := ∑ w ∈ range s.tunnel.numQueues, (s.payloadOf w : Multiset (Endpoint × Bytes))
  taken := ∑ w ∈ range s.tunnel.numQueues, (s.frameOf w : Multiset (ℕ × Bytes))

end Sys

section HubAction

variable {M E : Type}

/-- The payload that a worker gives up in a step. -/
def dropped (s s' : Sys M) (w : ℕ) : Option HubAction :=
  if (s'.workers w).pc.datagram.isNone then
    (s.workers w).pc.datagram.map fun d => .drop d.src d.payload
  else none

/-- What a call is for the hub. -/
def hubAction (e : Event (Sys M) (ℕ × Action E)) : Option HubAction :=
  match e.act with
  | (_, .recvfrom (some d)) =>
    if d.inet6 then some (.arrive d.src (d.payload.take (2 * e.pre.tunnel.mtu))) else none
  | (_, .read id _ (some frame)) => some (.take id.toNat (frame.take (2 * e.pre.tunnel.mtu)))
  | (w, .sendto frame dst r _) =>
    (e.pre.workers w).pc.frame.map fun x => .send x.1.toNat dst frame r.isSome
  | (w, .write _ bytes r _) =>
    (e.pre.workers w).pc.device.map fun id => .deliver id.toNat bytes r.isSome
  | (w, .lookup _) => dropped e.pre e.post w
  | (w, .allocNewTap _) =>
    if e.pre.tunnel.numTapDevs < e.post.tunnel.numTapDevs then
      (e.pre.workers w).pc.datagram.map fun d => .attach d.src
    else dropped e.pre e.post w
  | _ => none

end HubAction

/-! ### Steps -/

section Steps

variable {s s' : MapSys} {w : ℕ} {a : Action Unit}

/-- The payloads in hand, but for those of the worker that makes the step. -/
theorem arrived_move (hdev : DevInv s) (hw : w < s.tunnel.numQueues) (hs : StepOf finiteMapOps s w a s') :
    s.hub.arrived + (s'.payloadOf w : Multiset (Endpoint × Bytes)) =
      (s.payloadOf w : Multiset (Endpoint × Bytes)) + s'.hub.arrived := by
  have hnum := (hs.extends hdev.size).numQueues
  unfold Sys.hub
  rw [hnum]
  refine Flow.sum_move hw (fun v hv => ?_) rfl
  unfold Sys.payloadOf
  rw [hs.workers_ne hv]

/-- The frames in hand, but for those of the worker that makes the step. -/
theorem taken_move (hdev : DevInv s) (hw : w < s.tunnel.numQueues) (hs : StepOf finiteMapOps s w a s') :
    s.hub.taken + (s'.frameOf w : Multiset (ℕ × Bytes)) =
      (s.frameOf w : Multiset (ℕ × Bytes)) + s'.hub.taken := by
  have hnum := (hs.extends hdev.size).numQueues
  unfold Sys.hub
  rw [hnum]
  refine Flow.sum_move hw (fun v hv => ?_) rfl
  unfold Sys.frameOf
  rw [hs.workers_ne hv]

theorem arrived_same (hdev : DevInv s) (hw : w < s.tunnel.numQueues)
    (hs : StepOf finiteMapOps s w a s')
    (h : (s'.workers w).pc.datagram = (s.workers w).pc.datagram) : s'.hub.arrived = s.hub.arrived := by
  have hmove := arrived_move hdev hw hs
  have hsame : s'.payloadOf w = s.payloadOf w := by
    unfold Sys.payloadOf
    rw [h]
  rw [hsame, add_comm] at hmove
  exact (add_left_cancel hmove).symm

theorem taken_same (hdev : DevInv s) (hw : w < s.tunnel.numQueues)
    (hs : StepOf finiteMapOps s w a s')
    (h : (s'.workers w).pc.frame = (s.workers w).pc.frame) : s'.hub.taken = s.hub.taken := by
  have hmove := taken_move hdev hw hs
  have hsame : s'.frameOf w = s.frameOf w := by
    unfold Sys.frameOf
    rw [h]
  rw [hsame, add_comm] at hmove
  exact (add_left_cancel hmove).symm

/-- A payload comes into hand. -/
theorem arrived_in (hdev : DevInv s) (hw : w < s.tunnel.numQueues) (hs : StepOf finiteMapOps s w a s')
    {d : Datagram} (h : (s.workers w).pc.datagram = none)
    (h' : (s'.workers w).pc.datagram = some d) :
    s'.hub.arrived = (d.src, d.payload) ::ₘ s.hub.arrived := by
  have hmove := arrived_move hdev hw hs
  unfold Sys.payloadOf at hmove
  rw [h, h'] at hmove
  have hzero : s.hub.arrived + ([(d.src, d.payload)] : Multiset _) = s'.hub.arrived :=
    hmove.trans (zero_add _)
  rw [← hzero, add_comm]
  rfl

/-- A payload is dealt with. -/
theorem arrived_out (hdev : DevInv s) (hw : w < s.tunnel.numQueues)
    (hs : StepOf finiteMapOps s w a s') {d : Datagram} (h : (s.workers w).pc.datagram = some d)
    (h' : (s'.workers w).pc.datagram = none) :
    s.hub.arrived = (d.src, d.payload) ::ₘ s'.hub.arrived := by
  have hmove := arrived_move hdev hw hs
  unfold Sys.payloadOf at hmove
  rw [h, h'] at hmove
  exact (add_zero _).symm.trans hmove

/-- A frame comes into hand. -/
theorem taken_in (hdev : DevInv s) (hw : w < s.tunnel.numQueues) (hs : StepOf finiteMapOps s w a s')
    {i : ℕ} {frame : Bytes} (h : (s.workers w).pc.frame = none)
    (h' : (s'.workers w).pc.frame = some ((i : Int), frame)) :
    s'.hub.taken = (i, frame) ::ₘ s.hub.taken := by
  have hmove := taken_move hdev hw hs
  unfold Sys.frameOf at hmove
  rw [h, h'] at hmove
  have hzero : s.hub.taken + ([(i, frame)] : Multiset _) = s'.hub.taken :=
    hmove.trans (zero_add _)
  rw [← hzero, add_comm]
  rfl

/-- A frame is dealt with. -/
theorem taken_out (hdev : DevInv s) (hw : w < s.tunnel.numQueues) (hs : StepOf finiteMapOps s w a s')
    {i : ℕ} {frame : Bytes} (h : (s.workers w).pc.frame = some ((i : Int), frame))
    (h' : (s'.workers w).pc.frame = none) : s.hub.taken = (i, frame) ::ₘ s'.hub.taken := by
  have hmove := taken_move hdev hw hs
  unfold Sys.frameOf at hmove
  rw [h, h'] at hmove
  exact (add_zero _).symm.trans hmove

/-- The payload in hand has arrived. -/
theorem mem_arrived (hw : w < s.tunnel.numQueues) {d : Datagram}
    (h : (s.workers w).pc.datagram = some d) : (d.src, d.payload) ∈ s.hub.arrived := by
  refine Multiset.mem_sum.2 ⟨w, mem_range.2 hw, ?_⟩
  unfold Sys.payloadOf
  rw [h]
  exact List.mem_cons_self

theorem length_ports (s : MapSys) : s.hub.ports.length = s.tunnel.numTapDevs := by
  unfold Sys.hub
  rw [List.length_map, List.length_range]

theorem ports_getElem? {i : ℕ} {e : Endpoint} (hi : i < s.tunnel.numTapDevs)
    (hremote : s.tunnel.remote i = some e) : s.hub.ports[i]? = some e := by
  unfold Sys.hub
  rw [List.getElem?_map, List.getElem?_range hi, Option.map_some, hremote]
  rfl

/-- The ports stay while no device is added. -/
theorem ports_same (hext : Extends s.tunnel s'.tunnel)
    (hnum : s'.tunnel.numTapDevs = s.tunnel.numTapDevs) : s'.hub.ports = s.hub.ports := by
  unfold Sys.hub
  rw [hnum]
  refine List.map_congr_left fun i hi => ?_
  rw [hext.remote i (List.mem_range.1 hi)]

/-- A device that is added is the next port. -/
theorem ports_new {epoll epoll' : EpollSets} {e : Endpoint} {id : ℕ}
    (h : NewTap s.tunnel epoll e id s'.tunnel epoll') : s'.hub.ports = s.hub.ports ++ [e] := by
  obtain rfl := h.id_eq
  unfold Sys.hub
  dsimp only
  rw [h.numTapDevs, List.range_succ, List.map_append, List.map_singleton, h.remote, Option.getD_some]
  refine congrArg (· ++ [e]) (List.map_congr_left fun i hi => ?_)
  rw [h.ext.remote i (List.mem_range.1 hi)]

/-- A step that is not seen. -/
theorem hub_same (hdev : DevInv s) (hw : w < s.tunnel.numQueues) (hs : StepOf finiteMapOps s w a s')
    (hnum : s'.tunnel.numTapDevs = s.tunnel.numTapDevs)
    (hd : (s'.workers w).pc.datagram = (s.workers w).pc.datagram)
    (hf : (s'.workers w).pc.frame = (s.workers w).pc.frame) : s'.hub = s.hub :=
  Hub.ext (ports_same (hs.extends hdev.size) hnum) (arrived_same hdev hw hs hd)
    (taken_same hdev hw hs hf)

/-- What holds of a tunnel along its runs. -/
structure HubInv (s : MapSys) : Prop where
  map : MapInv s
  dev : DevInv s
  admits : AdmitInv (fun _ => True) (fun _ => True) s

/-- The endpoint for which a device is about to be made has none. -/
theorem HubInv.new (h : HubInv s) {tev : TunnelEpollEvent} {rest : List TunnelEpollEvent}
    {d : Datagram} (hpc : (s.workers w).pc = .handle tev rest (.alloc d)) : d.src ∉ s.hub.ports := by
  have hasserts := h.map.agree.asserts w
  rw [hpc] at hasserts
  have hnone : s.tunnel.map d.src = none := hasserts
  intro hmem
  obtain ⟨i, hi, hget⟩ := List.mem_map.1 hmem
  have hlt := List.mem_range.1 hi
  cases hremote : s.tunnel.remote i with
  | none =>
    unfold remote at hremote
    rw [dev_natCast, List.getElem?_eq_getElem (hlt.trans_le h.dev.size)] at hremote
    cases hremote
  | some e =>
    rw [hremote] at hget
    obtain rfl : e = d.src := hget
    rcases h.map.agree.found i d.src hlt hremote with hfound | ⟨v, tev', rest', d', hv⟩
    · have hfound : s.tunnel.map d.src = some i := hfound
      rw [hnone] at hfound
      cases hfound
    · -- whoever adds an entry has the write lock
      obtain rfl : v = w := h.map.agree.locks.eq_of_write (h.map.agree.locks.write_of_point hv trivial)
        (h.map.agree.locks.write_of_point hpc trivial)
      rw [hpc] at hv
      cases hv

/-- A step that drops the payload in hand. -/
theorem hub_drop (allows : IpAddr → Bool) (hdev : DevInv s) (hw : w < s.tunnel.numQueues)
    (hs : StepOf finiteMapOps s w a s') (hnum : s'.tunnel.numTapDevs = s.tunnel.numTapDevs)
    {d : Datagram} (hd : (s.workers w).pc.datagram = some d)
    (hd' : (s'.workers w).pc.datagram = none)
    (hf : (s'.workers w).pc.frame = (s.workers w).pc.frame) :
    dropped s s' w = some (.drop d.src d.payload) ∧
      HubStep allows s.hub (.drop d.src d.payload) s'.hub := by
  refine ⟨by unfold dropped; rw [hd', hd]; rfl, ?_⟩
  exact (HubStep.drop d.src d.payload _ (arrived_out hdev hw hs hd hd')).of_eq
    (ports_same (hs.extends hdev.size) hnum) rfl (taken_same hdev hw hs hf)

/-- A payload that stays in hand is not dropped. -/
theorem dropped_keep {pc : Pc} {d : Datagram} (hd : pc.datagram = some d) :
    dropped s (s.goto w pc) w = none := by
  unfold dropped
  rw [Sys.pc_goto, hd]
  rfl

/-- A worker that updates the statistics of a device goes on. -/
theorem account_seen (hdev : DevInv s) {id : Int} {i : ℕ} (hid : id = i) (hi : i < s.tunnel.numTapDevs)
    (hw : (s.workers w).pc ≠ .start) (f : TunnelStats → TunnelStats) (pc : Pc) :
    ((s.account w id f pc).workers w).pc = pc ∧
      (s.account w id f pc).tunnel.numTapDevs = s.tunnel.numTapDevs := by
  obtain ⟨t, ht, he⟩ := hdev.account hid hi hw f pc
  rw [he]
  exact ⟨Sys.pc_goto .., ht.numTapDevs⟩

/-- The device that the event of a tap device names. -/
theorem HubInv.port_of_tap (h : HubInv s) {tev : TunnelEpollEvent} {rest : List TunnelEpollEvent}
    {p : Point} (hpc : (s.workers w).pc = .handle tev rest p) (hp : p.Tap) :
    ∃ i : ℕ, tev.tapId.toInt = i ∧ i < s.tunnel.numTapDevs ∧
      ∀ dst, Reads (s.tunnel.remote i) dst → s.tunnel.remote i = some dst := by
  obtain ⟨i, hi, hlt, -⟩ := h.dev.events w tev (by rw [hpc]; exact List.mem_cons_self)
    (h.dev.tap w tev rest _ hpc hp)
  refine ⟨i, hi, hlt, fun dst hdst => hdst.resolve_left fun hnone => ?_⟩
  unfold remote at hnone
  rw [dev_natCast, List.getElem?_eq_getElem (hlt.trans_le h.dev.size)] at hnone
  cases hnone

/-- The device that a payload is for. -/
theorem HubInv.port_of_write (h : HubInv s) {tev : TunnelEpollEvent} {rest : List TunnelEpollEvent}
    {id : Int} {d : Datagram} (hpc : (s.workers w).pc = .handle tev rest (.write id d)) :
    ∃ i : ℕ, id = i ∧ i < s.tunnel.numTapDevs ∧ s.tunnel.remote i = some d.src := by
  have hasserts := h.map.agree.asserts w
  rw [hpc] at hasserts
  obtain ⟨h₀, hlook⟩ := hasserts
  obtain ⟨i, rfl⟩ := Int.eq_ofNat_of_zero_le h₀
  exact ⟨i, rfl, h.map.back d.src i hlook⟩

/-- **A step of the tunnel is a step of the hub, or is not seen.** -/
theorem hub_step (h : HubInv s) (hstep : Step finiteMapOps s (w, a) s') :
    (hubAction ⟨s, (w, a), s'⟩ = none ∧ s'.hub = s.hub) ∨
      ∃ b, hubAction ⟨s, (w, a), s'⟩ = some b ∧ HubStep s.tunnel.allows s.hub b s'.hub := by
  obtain ⟨-, hw, hs⟩ := hstep.stepOf
  have hdev := h.dev
  have hext := hs.extends hdev.size
  have hsame := hub_same hdev hw hs
  have harrived := arrived_same hdev hw hs
  have htaken := taken_same hdev hw hs
  have hin := fun {d : Datagram} => arrived_in (d := d) hdev hw hs
  have hout := fun {d : Datagram} => arrived_out (d := d) hdev hw hs
  have hdrop := fun {d : Datagram} => hub_drop s.tunnel.allows (d := d) hdev hw hs
  cases hs with
  | start hpc =>
    refine .inl ⟨rfl, hsame rfl ?_ ?_⟩ <;> rw [hpc] <;> simp [Sys.workers_setWorker] <;> rfl
  | epollFail hpc | epollWait batch hpc | rearmFail tev rest hpc | add tev rest id d env map hpc =>
    refine .inl ⟨rfl, hsame rfl ?_ ?_⟩ <;> rw [Sys.pc_goto, hpc] <;> rfl
  | scopeEnd hpc | unlockMiss tev rest d hpc | wrlock tev rest d hpc | unlockHit tev rest id d hpc
  | rdlockHit tev rest id d hpc =>
    refine .inl ⟨rfl, hsame rfl ?_ ?_⟩ <;> rw [Sys.pc_lockGoto, hpc] <;> rfl
  | rdlockBatch batch hpc =>
    refine .inl ⟨rfl, hsame rfl ?_ ?_⟩
    · rw [Sys.pc_lockGoto, datagram_nextEvent, hpc]
      rfl
    · rw [Sys.pc_lockGoto, frame_nextEvent, hpc]
      rfl
  | rearm tev rest hpc =>
    refine .inl ⟨rfl, hsame rfl ?_ ?_⟩
    · rw [Sys.pc_goto, datagram_nextEvent, hpc]
      rfl
    · rw [Sys.pc_goto, frame_nextEvent, hpc]
      rfl
  | read tev rest fd r hpc =>
    cases r with
    | none => refine .inl ⟨rfl, hsame rfl ?_ ?_⟩ <;> rw [Sys.pc_goto, hpc] <;> rfl
    | some frame =>
      obtain ⟨i, hi, hlt, -⟩ := h.port_of_tap hpc trivial
      have hframe : _ = (i, frame.take (2 * s.tunnel.mtu)) ::ₘ s.hub.taken := taken_in hdev hw
        hstep.stepOf.2.2 (by rw [hpc]; rfl) (by rw [Sys.pc_goto, ← hi]; rfl)
      refine .inr ⟨.take i (frame.take (2 * s.tunnel.mtu)), ?_, (HubStep.take i _ ?_).of_eq
        (ports_same hext rfl) (harrived ?_) hframe⟩
      · show some (HubAction.take tev.tapId.toInt.toNat _) = _
        rw [hi, Int.toNat_natCast]
      · rwa [length_ports]
      · rw [Sys.pc_goto, hpc]
        rfl
  | sendto tev rest frame dst r now hpc hdst =>
    obtain ⟨i, hi, hlt, hremote⟩ := h.port_of_tap hpc trivial
    rw [hi] at hdst
    obtain ⟨hpc', hnum⟩ := account_seen (w := w) hdev hi hlt (by simp [hpc]) (.afterSend r now)
      (.handle tev rest .tapRead)
    have hframe := taken_out (i := i) hdev hw hstep.stepOf.2.2 (by rw [hpc, ← hi]; rfl) (by rw [hpc']; rfl)
    refine .inr ⟨.send i dst frame r.isSome, ?_, (HubStep.send i dst frame r.isSome _
      (ports_getElem? hlt (hremote dst hdst)) hframe).of_eq (ports_same hext hnum) (harrived ?_) rfl⟩
    · show (s.workers w).pc.frame.map _ = _
      rw [hpc]
      show some (HubAction.send tev.tapId.toInt.toNat dst frame r.isSome) = _
      rw [hi, Int.toNat_natCast]
    · rw [hpc', hpc]
      rfl
  | recvfrom tev rest r hpc =>
    rcases afterRecv_cases s.tunnel.mtu r with ⟨rfl, hr⟩ | ⟨d, rfl, ⟨h6, hr⟩ | ⟨h6, hr⟩⟩
    · refine .inl ⟨rfl, hsame rfl ?_ ?_⟩ <;> rw [Sys.pc_goto, hpc, hr] <;> rfl
    · refine .inr ⟨.arrive d.src (d.payload.take (2 * s.tunnel.mtu)), if_pos h6,
        (HubStep.arrive _ _).of_eq (ports_same hext rfl) (hin (d := d.cut s.tunnel.mtu) ?_ ?_) (htaken ?_)⟩
      · rw [hpc]
        rfl
      · rw [Sys.pc_goto, hr]
        rfl
      · rw [Sys.pc_goto, hpc, hr]
        rfl
    · refine .inl ⟨if_neg (by simp [h6]), hsame rfl ?_ ?_⟩ <;> rw [Sys.pc_goto, hpc, hr]
  | lookup tev rest d env tapId hpc =>
    have hd : (s.workers w).pc.datagram = some d := by
      rw [hpc]
      rfl
    rcases afterLookup_cases (s.tunnel.allows d.src.addr) tapId d with
      ⟨-, hr⟩ | ⟨-, ⟨-, hr⟩ | ⟨-, hr⟩⟩
    · refine .inl ⟨dropped_keep (by rw [hr]; rfl), hsame rfl ?_ ?_⟩ <;> rw [Sys.pc_goto, hpc, hr] <;> rfl
    · refine .inl ⟨dropped_keep (by rw [hr]; rfl), hsame rfl ?_ ?_⟩ <;> rw [Sys.pc_goto, hpc, hr] <;> rfl
    · obtain ⟨hlabel, hhub⟩ := hdrop rfl hd (by rw [Sys.pc_goto, hr]; rfl)
        (by rw [Sys.pc_goto, hpc, hr]; rfl)
      exact .inr ⟨_, hlabel, hhub⟩
  | relookup tev rest d env tapId hpc =>
    rcases afterRelookup_cases tapId d with ⟨-, hr⟩ | ⟨-, hr⟩
    · refine .inl ⟨dropped_keep (by rw [hr]; rfl), hsame rfl ?_ ?_⟩ <;> rw [Sys.pc_goto, hpc, hr] <;> rfl
    · refine .inl ⟨dropped_keep (by rw [hr]; rfl), hsame rfl ?_ ?_⟩ <;> rw [Sys.pc_goto, hpc, hr] <;> rfl
  | allocFail tev rest d env t epoll hpc halloc =>
    have hnum : t.numTapDevs = s.tunnel.numTapDevs := (allocNewTap_none hdev.size halloc).2.2.1
    obtain ⟨hlabel, hhub⟩ := hdrop (d := d) hnum (by rw [hpc]; rfl) (by rw [Sys.pc_goto]; rfl)
      (by rw [Sys.pc_goto, hpc]; rfl)
    exact .inr ⟨_, (if_neg (by simp [hnum])).trans hlabel, hhub⟩
  | alloc tev rest d env id t epoll hpc halloc =>
    have hnew := allocNewTap_some hdev.size halloc
    have hd : (s.workers w).pc.datagram = some d := by
      rw [hpc]
      rfl
    refine .inr ⟨.attach d.src, ?_, (HubStep.attach d.src ?_ (h.new hpc) ⟨d.payload, mem_arrived hw hd⟩).of_eq
      (ports_new hnew) (harrived ?_) (htaken ?_)⟩
    · refine (if_pos ?_).trans (by rw [hd]; rfl)
      show s.tunnel.numTapDevs < t.numTapDevs
      rw [hnew.numTapDevs]
      exact Nat.lt_succ_self _
    · exact h.admits.admits w (.alloc d) (by rw [hpc]; rfl)
    · rw [Sys.pc_goto, hpc]
      rfl
    · rw [Sys.pc_goto, hpc]
      rfl
  | write tev rest id d fd r now hpc =>
    obtain ⟨i, rfl, hlt, hremote⟩ := h.port_of_write hpc
    obtain ⟨hpc', hnum⟩ := account_seen (w := w) hdev rfl hlt (by simp [hpc]) (.afterWrite r now)
      (.handle tev rest .recv)
    refine .inr ⟨.deliver i d.payload r.isSome, ?_, (HubStep.deliver i d.src d.payload r.isSome _
      (ports_getElem? hlt hremote) (hout ?_ ?_)).of_eq (ports_same hext hnum) rfl (htaken ?_)⟩
    · show (s.workers w).pc.device.map _ = _
      rw [hpc]
      rfl
    · rw [hpc]
      rfl
    · rw [hpc']
      rfl
    · rw [hpc', hpc]
      rfl
  | dieInMap tev rest p a hpc ha =>
    rcases ha with ⟨env, e, -, hret⟩ | ⟨env, e, id, -, hret⟩ <;> cases hret
  | dieInAlloc tev rest d env c hpc =>
    refine .inl ⟨(if_neg (Nat.lt_irrefl _)).trans ?_, rfl⟩
    show (if (s.workers w).pc.datagram.isNone then _ else _) = _
    rw [hpc]
    rfl

theorem HubInv.step (h : HubInv s) (hstep : Step finiteMapOps s (w, a) s')
    (hclean : CleanAlloc s (w, a)) : HubInv s' where
  map := (h.map.step hstep).1
  dev := h.dev.step hstep hclean
  admits := h.admits.step (fun _ _ _ _ _ _ _ => trivial) hstep fun _ _ _ _ _ _ _ => trivial

/-- A new tunnel is a hub with a port for the default endpoint, if there is one. -/
theorem hub_created {env : CreateEnv Unit} {params : TunnelParams}
    (hcreate : tunnelCreate finiteMapOps env params = .created s) :
    HubInv s ∧ s.hub = ⟨(defaultEndpoint env params).toList, 0, 0⟩ := by
  obtain ⟨hworkers, -, t, hbare, hcase⟩ := tunnelCreate_created hcreate
  refine ⟨⟨mapInv_created hcreate, devInv_created hcreate, size_of_created hcreate,
    fun _ _ => trivial, trivial, fun w p hp => ?_⟩, Hub.ext ?_ ?_ ?_⟩
  · rw [hworkers] at hp
    cases hp
  · rcases hcase with ⟨hnone, -, ht, -⟩ | ⟨e, hdef⟩
    · unfold Sys.hub defaultEndpoint
      rw [ht, hbare.numTapDevs, hnone]
      rfl
    · obtain ⟨host, hhost, haddr⟩ := hdef.host
      obtain ⟨map, -, hnew⟩ := hdef.add
      have hdflt : defaultEndpoint env params = some e := by
        unfold defaultEndpoint
        rw [hhost, Option.bind_some, haddr, Option.map_some, ← hdef.port]
      have hone : s.tunnel.numTapDevs = 1 := by
        rw [hnew.numTapDevs]
        exact congrArg (· + 1) hbare.numTapDevs
      have hremote : s.tunnel.remote ((0 : ℕ) : Int) = some e := hnew.remote
      unfold Sys.hub
      rw [hdflt, hone]
      show [(s.tunnel.remote ((0 : ℕ) : Int)).getD default] = [e]
      rw [hremote]
      rfl
  · show ∑ w ∈ range s.tunnel.numQueues, (s.payloadOf w : Multiset (Endpoint × Bytes)) = 0
    refine sum_eq_zero fun w _ => ?_
    unfold Sys.payloadOf
    rw [hworkers]
    rfl
  · show ∑ w ∈ range s.tunnel.numQueues, (s.frameOf w : Multiset (ℕ × Bytes)) = 0
    refine sum_eq_zero fun w _ => ?_
    unfold Sys.frameOf
    rw [hworkers]
    rfl

/-- The tunnel simulates the hub, as long as its allow list stays. -/
theorem simulates_hub (allows : IpAddr → Bool) :
    Simulates (Step finiteMapOps) (HubStep allows) Sys.hub (hubAction (E := Unit))
      (fun s => HubInv s ∧ s.tunnel.allows = allows) CleanAlloc where
  keeps := fun s wa s' hs hclean hstep => by
    refine ⟨hs.1.step hstep hclean, ?_⟩
    rw [allows_congr (hstep.stepOf.2.2.extends hs.1.dev.size).allowed, hs.2]
  seen := fun s wa s' b hs _ hstep hb => by
    rcases hub_step hs.1 hstep with ⟨hnone, -⟩ | ⟨b', hb', hhub⟩
    · exact absurd (hnone.symm.trans hb) (by simp)
    · obtain rfl := Option.some.inj (hb'.symm.trans hb)
      rwa [hs.2] at hhub
  silent := fun s wa s' hs _ hstep hnone => by
    rcases hub_step hs.1 hstep with ⟨-, hhub⟩ | ⟨b', hb', -⟩
    · exact hhub
    · exact absurd (hb'.symm.trans hnone) (by simp)

end Steps

/-- **The tunnel is a hub**, if its map is a finite map.  In every run, in every interleaving of
the workers, in which no call of `tunnel_alloc_new_tap` fails after it has registered a
descriptor, what is seen of the tunnel is a run of the hub that lets in the addresses of the
allow list, from a hub with a port for the default endpoint to the hub that the tunnel has
become.  The hub takes its step where a datagram or a frame changes hands; what the workers do
in between it does not see. -/
theorem refines_hub (env : CreateEnv Unit) (params : TunnelParams) (s₀ s : MapSys)
    (tr : Trace (Endpoint → Option ℕ) Unit) (hcreate : tunnelCreate finiteMapOps env params = .created s₀)
    (hrun : Run (Step finiteMapOps) s₀ tr s) (hclean : ∀ e ∈ tr, CleanAlloc e.pre e.act) :
    ∃ htr, Run (HubStep s₀.tunnel.allows) ⟨(defaultEndpoint env params).toList, 0, 0⟩ htr s.hub ∧
      htr.map (·.act) = tr.filterMap hubAction := by
  obtain ⟨hinv, hhub⟩ := hub_created hcreate
  rw [← hhub]
  exact (simulates_hub s₀.tunnel.allows).run hrun hclean ⟨hinv, rfl⟩

theorem refines_hub_one : ∃ (s₀ s : MapSys) (tr : Trace (Endpoint → Option ℕ) Unit)
    (htr : List (Event Hub HubAction)),
    tunnelCreate finiteMapOps (openEnv ()) (openParams 2) = .created s₀ ∧
    Run (Step finiteMapOps) s₀ tr s ∧ s.hub.ports = [switchHost 2] ∧
    Run (HubStep s₀.tunnel.allows) ⟨[], 0, 0⟩ htr s.hub ∧
    htr.map (·.act) = tr.filterMap hubAction := by
  have hreplay : ∃ s₀ : MapSys, tunnelCreate finiteMapOps (openEnv ()) (openParams 2) = .created s₀ ∧
      s₀.tunnel.numTapDevs ≤ s₀.tunnel.tapDevs.length ∧
      (replay finiteMapOps s₀ 0 (wakeActions Unit ++ admitActions () (switchHost 2) (40 + ·) 40)).any
        (fun s => s.hub.ports == [switchHost 2] && s.tunnel.numTapDevs == 1) = true :=
    ⟨_, rfl, Nat.le_refl 0, by decide +kernel⟩
  obtain ⟨s₀, hcreate, hle, hany⟩ := hreplay
  obtain ⟨s, hs, hp⟩ := (Option.any_eq_true _ _).1 hany
  rw [Bool.and_eq_true, beq_iff_eq, beq_iff_eq] at hp
  obtain ⟨tr, hrun, -, htr⟩ := mem_replay hle hs
  obtain ⟨htr', hhub, hacts⟩ := refines_hub _ _ s₀ s tr hcreate hrun fun e he => by
    obtain ⟨hmem, -, hext⟩ := htr e he
    have hdevs := hext.numTapDevs
    exact cleanAlloc_of_admits hmem (by omega)
  exact ⟨s₀, s, tr, htr', hcreate, hrun, hp.1, hhub, hacts⟩

end UdpEthTunnel
