/-
# What passes through the hands of a worker

A worker has at most one frame or one datagram in hand.  The frame it takes in hand is
read from a tap device and leaves by `sendto`; the datagram is received and leaves by
`write`, or the worker gives it up: its source is not allowed in, or its device cannot be
made.

`P` picks out the endpoints of interest.  The books of every step balance on both sides
(`Step.frames_balance`, `Step.payloads_balance`), and no worker touches what another has
in hand.
-/

import UdpEthTunnel.Tunnel.Forwarding

namespace UdpEthTunnel

open Tunnel Runs

section Definitions

variable {M E : Type} (P : Endpoint → Bool)

/-- The remote endpoint of the device is picked out. -/
def Tunnel.leadsTo (t : Tunnel M) (id : Int) : Bool := (t.remote id).any P

namespace Sys

variable (s : Sys M)

/-- The frame that worker `w` is about to send. -/
def frameInHand (w : ℕ) : List Bytes :=
  (((s.workers w).pc.frame.filter fun x => s.tunnel.leadsTo P x.1).map (·.2)).toList

/-- The frame that a call reads, as much of it as fits the buffer. -/
def frameRead (a : Action E) : List Bytes :=
  ((a.frame.filter fun x => s.tunnel.leadsTo P x.1).map (·.2.take (2 * s.tunnel.mtu))).toList

/-- The payload that worker `w` has received and not dealt with. -/
def payloadInHand (w : ℕ) : List Bytes :=
  (((s.workers w).pc.datagram.filter fun d => P d.src).map (·.payload)).toList

/-- The payload that a call receives, as much of it as fits the buffer. -/
def payloadReceived (a : Action E) : List Bytes :=
  ((a.received.filter fun d => d.inet6 && P d.src).map (·.payload.take (2 * s.tunnel.mtu))).toList

end Sys

/-- The frame that a call sends. -/
def Action.frameSent (a : Action E) : List Bytes :=
  ((a.sent.filter fun x => P x.2).map (·.1)).toList

/-- The bytes a call writes to a tap device, and whether the device takes them. -/
def Action.tapWrite : Action E → Option (Bytes × Bool)
  | .write _ bytes r _ => some (bytes, r.isSome)
  | _ => none

/-- The device a worker is about to write to. -/
def Pc.device : Pc → Option Int
  | .handle _ _ (.write id _) => some id
  | _ => none

namespace Sys

variable (s s' : Sys M)

/-- The payload that worker `w` writes to a device that is picked out; `taken` is whether the
device takes it. -/
def payloadWritten (w : ℕ) (a : Action E) (taken : Bool) : List Bytes :=
  ((a.tapWrite.filter fun x =>
    x.2 == taken && (s.workers w).pc.device.any (s.tunnel.leadsTo P)).map (·.1)).toList

/-- The payload that worker `w` gives up in a step to `s'`. -/
def payloadRefused (w : ℕ) (a : Action E) : List Bytes :=
  if a.tapWrite.isNone ∧ (s'.workers w).pc.datagram.isNone then s.payloadInHand P w else []

end Sys

end Definitions

/-! ### The side of the tap devices -/

section Frames

variable {M E : Type} {ops : MapOps M E} {s s' : Sys M} {w v : ℕ} {a : Action E}
  {P : Endpoint → Bool}

/-- What a step does to the frame in hand. -/
theorem StepOf.frame_cases (hdev : DevInv s) (hs : StepOf ops s w a s') :
    (∃ tev rest fd frame, a = .read tev.tapId.toInt fd (some frame) ∧
        (s.workers w).pc = .handle tev rest .tapRead ∧
        (s'.workers w).pc = .handle tev rest (.tapSend (frame.take (2 * s.tunnel.mtu)))) ∨
      (∃ tev rest frame dst r now, a = .sendto frame dst r now ∧
        (s.workers w).pc = .handle tev rest (.tapSend frame) ∧
        s.tunnel.remote tev.tapId.toInt = some dst ∧
        (s'.workers w).pc = .handle tev rest .tapRead) ∨
      a.frame = none ∧ a.sent = none ∧ (s'.workers w).pc.frame = (s.workers w).pc.frame := by
  have hevent : ∀ {tev rest p}, (s.workers w).pc = .handle tev rest p → p.Tap →
      ValidEvent s.tunnel (s.workers w).queueId tev := fun hpc hp =>
    hdev.events w _ (by rw [hpc]; exact List.mem_cons_self) (hdev.tap w _ _ _ hpc hp)
  cases hs with
  | read tev rest fd r hpc =>
    cases r with
    | none => exact .inr (.inr ⟨rfl, rfl, by rw [Sys.pc_goto, hpc]; rfl⟩)
    | some frame => exact .inl ⟨tev, rest, fd, frame, rfl, hpc, Sys.pc_goto ..⟩
  | sendto tev rest frame dst r now hpc hdst =>
    obtain ⟨i, hi, hlt, -⟩ := hevent hpc trivial
    obtain ⟨t, -, he⟩ := hdev.account (w := w) hi hlt (by rw [hpc]; exact nofun) (.afterSend r now)
      (.handle tev rest .tapRead)
    have hdst : s.tunnel.remote tev.tapId.toInt = some dst := by
      rcases hdst with hnone | hsome
      · obtain ⟨d, hd⟩ : ∃ d, s.tunnel.dev i = some d := by
          rw [dev_natCast]
          exact ⟨_, List.getElem?_eq_getElem (hlt.trans_le hdev.size)⟩
        unfold remote at hnone
        rw [hi, hd] at hnone
        cases hnone
      · exact hsome
    exact .inr (.inl ⟨tev, rest, frame, dst, r, now, rfl, hpc, hdst, by rw [he, Sys.pc_goto]⟩)
  | write tev rest id d fd r now hpc =>
    refine .inr (.inr ⟨rfl, rfl, ?_⟩)
    rcases s.account_cases w id (.afterWrite r now) (.handle tev rest .recv) with he | ⟨t, -, he⟩ <;>
      rw [he]
    · rfl
    · rw [Sys.pc_goto, hpc]
      rfl
  | start hpc =>
    refine .inr (.inr ⟨rfl, rfl, ?_⟩)
    rw [hpc]
    simp [Sys.workers_setWorker, Pc.frame]
  | rdlockBatch batch hpc =>
    exact .inr (.inr ⟨rfl, rfl, by rw [Sys.pc_lockGoto, frame_nextEvent, hpc]; rfl⟩)
  | rearm tev rest hpc => exact .inr (.inr ⟨rfl, rfl, by rw [Sys.pc_goto, frame_nextEvent, hpc]; rfl⟩)
  | recvfrom tev rest r hpc =>
    refine .inr (.inr ⟨rfl, rfl, ?_⟩)
    rw [Sys.pc_goto, hpc]
    rcases afterRecv_cases s.tunnel.mtu r with ⟨-, hr⟩ | ⟨d, -, ⟨-, hr⟩ | ⟨-, hr⟩⟩ <;> rw [hr] <;> rfl
  | lookup tev rest d env tapId hpc =>
    refine .inr (.inr ⟨rfl, rfl, ?_⟩)
    rw [Sys.pc_goto, hpc]
    rcases afterLookup_cases (s.tunnel.allows d.src.addr) tapId d with
      ⟨-, hr⟩ | ⟨-, ⟨-, hr⟩ | ⟨-, hr⟩⟩ <;> rw [hr] <;> rfl
  | relookup tev rest d env tapId hpc =>
    refine .inr (.inr ⟨rfl, rfl, ?_⟩)
    rw [Sys.pc_goto, hpc]
    rcases afterRelookup_cases tapId d with ⟨-, hr⟩ | ⟨-, hr⟩ <;> rw [hr] <;> rfl
  | dieInMap tev rest p a hpc ha =>
    rcases ha with ⟨env, e, rfl, -⟩ | ⟨env, e, id, rfl, -⟩ <;> exact .inr (.inr ⟨rfl, rfl, rfl⟩)
  | dieInAlloc => exact .inr (.inr ⟨rfl, rfl, rfl⟩)
  | scopeEnd hpc | unlockMiss _ _ _ hpc | wrlock _ _ _ hpc | unlockHit _ _ _ _ hpc
  | rdlockHit _ _ _ _ hpc => exact .inr (.inr ⟨rfl, rfl, by rw [Sys.pc_lockGoto, hpc]; rfl⟩)
  | epollFail hpc | epollWait _ hpc | allocFail _ _ _ _ _ _ hpc | alloc _ _ _ _ _ _ _ hpc
  | add _ _ _ _ _ _ hpc | rearmFail _ _ hpc =>
    exact .inr (.inr ⟨rfl, rfl, by rw [Sys.pc_goto, hpc]; rfl⟩)

/-- A frame in hand is there for an event of a device. -/
theorem DevInv.of_frame (hdev : DevInv s) {id : Int} {frame : Bytes}
    (h : (s.workers w).pc.frame = some (id, frame)) : ∃ i : ℕ, id = i ∧ i < s.tunnel.numTapDevs := by
  unfold Pc.frame at h
  split at h
  case h_1 tev rest frame' hpc =>
    obtain ⟨rfl, rfl⟩ := Prod.mk.inj (Option.some.inj h)
    obtain ⟨i, hi, hlt, -⟩ := hdev.events w tev (by rw [hpc]; exact List.mem_cons_self)
      (hdev.tap w tev rest _ hpc trivial)
    exact ⟨i, hi, hlt⟩
  case h_2 => cases h

/-- What is in hand leads where it led. -/
theorem frameInHand_congr (hdev : DevInv s) (hext : Extends s.tunnel s'.tunnel)
    (hpc : (s'.workers v).pc.frame = (s.workers v).pc.frame) :
    s'.frameInHand P v = s.frameInHand P v := by
  unfold Sys.frameInHand
  rw [hpc]
  cases hframe : (s.workers v).pc.frame with
  | none => rfl
  | some x =>
    obtain ⟨id, frame⟩ := x
    obtain ⟨i, rfl, hlt⟩ := hdev.of_frame hframe
    have hleads : s'.tunnel.leadsTo P i = s.tunnel.leadsTo P i := by
      unfold leadsTo
      rw [hext.remote i hlt]
    rw [Option.filter_some, Option.filter_some, hleads]

/-- **The books of the frames**, for the worker that makes the step. -/
theorem Step.frames_balance (hdev : DevInv s) (hstep : Step ops s (w, a) s') :
    s.frameInHand P w ++ s.frameRead P a = a.frameSent P ++ s'.frameInHand P w := by
  have hs := hstep.stepOf.2.2
  have hext := hs.extends hdev.size
  rcases hs.frame_cases hdev with ⟨tev, rest, fd, frame, rfl, hpc, hpc'⟩ |
    ⟨tev, rest, frame, dst, r, now, rfl, hpc, hdst, hpc'⟩ | ⟨hread, hsent, hsame⟩
  · obtain ⟨i, hi, hlt, -⟩ := hdev.events w tev (by rw [hpc]; exact List.mem_cons_self)
      (hdev.tap w tev rest _ hpc trivial)
    have hleads : s'.tunnel.leadsTo P tev.tapId.toInt = s.tunnel.leadsTo P tev.tapId.toInt := by
      unfold leadsTo
      rw [hi, hext.remote i hlt]
    unfold Sys.frameInHand
    rw [hpc, hpc']
    show [] ++ _ = [] ++ _
    unfold Sys.frameRead
    simp only [Pc.frame, Action.frame, Option.map_some, Option.filter_some, hleads]
    split_ifs <;> rfl
  · unfold Sys.frameInHand
    rw [hpc, hpc']
    show _ ++ [] = _ ++ []
    unfold Action.frameSent leadsTo
    simp only [Pc.frame, Action.sent, Option.filter_some, hdst, Option.any_some]
    split_ifs <;> rfl
  · rw [frameInHand_congr hdev hext hsame]
    unfold Sys.frameRead Action.frameSent
    rw [hread, hsent]
    exact List.append_nil _

/-- The other workers keep their frames. -/
theorem Step.frameInHand_ne (hdev : DevInv s) (hstep : Step ops s (w, a) s') (hv : v ≠ w) :
    s'.frameInHand P v = s.frameInHand P v := by
  have hs := hstep.stepOf.2.2
  exact frameInHand_congr hdev (hs.extends hdev.size) (by rw [hs.workers_ne hv])

end Frames

/-! ### The side of the socket -/

section Payloads

variable {s s' : MapSys} {w v : ℕ} {a : Action Unit} {P : Endpoint → Bool}

/-- A step that neither receives nor writes: what was in hand stays there or is given up. -/
theorem payloads_quiet (hs : StepOf finiteMapOps s w a s') (hrecv : a.received = none)
    (hwrite : a.tapWrite = none) :
    s.payloadInHand P w ++ s.payloadReceived P a =
      s.payloadWritten P w a true ++ s.payloadWritten P w a false ++ s.payloadRefused P s' w a ++
        s'.payloadInHand P w := by
  unfold Sys.payloadReceived Sys.payloadWritten Sys.payloadRefused
  rw [hrecv, hwrite]
  cases hd : (s'.workers w).pc.datagram with
  | none =>
    have hnone : s'.payloadInHand P w = [] := by
      unfold Sys.payloadInHand
      rw [hd]
      rfl
    rw [hnone, List.append_nil]
    exact List.append_nil _
  | some d =>
    rcases hs.datagram hd with ⟨d₀, rfl, -⟩ | ⟨-, hd₀⟩
    · cases hrecv
    · unfold Sys.payloadInHand
      rw [hd, hd₀]
      exact List.append_nil _

/-- The payload that is received is in hand, unless it is not IPv6. -/
theorem payloads_recvfrom {tev : TunnelEpollEvent} {rest : List TunnelEpollEvent}
    {r : Option Datagram} (hpc : (s.workers w).pc = .handle tev rest .recv) :
    s.payloadInHand P w ++ s.payloadReceived P (.recvfrom r : Action Unit) =
      (s.goto w (.handle tev rest (afterRecv s.tunnel.mtu r))).payloadInHand P w := by
  unfold Sys.payloadInHand Sys.payloadReceived
  rw [hpc, Sys.pc_goto]
  show [] ++ _ = _
  rcases afterRecv_cases s.tunnel.mtu r with ⟨rfl, hr⟩ | ⟨d, rfl, ⟨h6, hr⟩ | ⟨h6, hr⟩⟩ <;> rw [hr]
  · rfl
  · simp only [Action.received, Option.filter_some, h6, Bool.true_and]
    show _ = ((Option.filter (fun d => P d.src) (some (d.cut s.tunnel.mtu))).map (·.payload)).toList
    rw [Option.filter_some]
    have hsrc : (d.cut s.tunnel.mtu).src = d.src := rfl
    rw [hsrc]
    split_ifs <;> rfl
  · simp only [Action.received, Option.filter_some, h6, Bool.false_and]
    rfl

/-- Nothing leaves a worker that receives. -/
theorem Step.received_balance {r : Option Datagram} (hstep : Step finiteMapOps s (w, .recvfrom r) s') :
    s.payloadInHand P w ++ s.payloadReceived P (.recvfrom r : Action Unit) = s'.payloadInHand P w := by
  have hs := hstep.stepOf.2.2
  cases hs with
  | recvfrom tev rest r hpc => exact payloads_recvfrom hpc
  | dieInMap tev rest p a hpc ha => rcases ha with ⟨env, e, h, -⟩ | ⟨env, e, id, h, -⟩ <;> cases h

/-- The payload in hand goes to the device of its source. -/
theorem payloads_write (hmap : MapInv s) (hdev : DevInv s) {tev : TunnelEpollEvent}
    {rest : List TunnelEpollEvent} {id : Int} {d : Datagram} (fd : Fd) (r : Option ℕ) (now : Int)
    (hpc : (s.workers w).pc = .handle tev rest (.write id d)) :
    s.payloadInHand P w =
        s.payloadWritten P w (.write fd d.payload r now : Action Unit) true ++
          s.payloadWritten P w (.write fd d.payload r now : Action Unit) false ∧
      (s.account w id (.afterWrite r now) (.handle tev rest .recv)).payloadInHand P w = [] := by
  have hasserts := hmap.agree.asserts w
  rw [hpc] at hasserts
  obtain ⟨h₀, hlook⟩ := hasserts
  obtain ⟨i, rfl⟩ := Int.eq_ofNat_of_zero_le h₀
  have hlook : s.tunnel.map d.src = some i := hlook
  obtain ⟨hlt, hremote⟩ := hmap.back _ _ hlook
  obtain ⟨t, -, he⟩ := hdev.account (w := w) rfl hlt (by rw [hpc]; exact nofun) (.afterWrite r now)
    (.handle tev rest .recv)
  constructor
  · unfold Sys.payloadInHand Sys.payloadWritten
    rw [hpc]
    show ((Option.filter (fun d => P d.src) (some d)).map (·.payload)).toList = _
    simp only [Pc.device, Action.tapWrite, Option.filter_some, Option.any_some, leadsTo, hremote]
    cases P d.src <;> cases r.isSome <;> rfl
  · rw [he]
    unfold Sys.payloadInHand
    rw [Sys.pc_goto]
    rfl

/-- **The books of the payloads**, for the worker that makes the step. -/
theorem Step.payloads_balance (hmap : MapInv s) (hdev : DevInv s)
    (hstep : Step finiteMapOps s (w, a) s') :
    s.payloadInHand P w ++ s.payloadReceived P a =
      s.payloadWritten P w a true ++ s.payloadWritten P w a false ++ s.payloadRefused P s' w a ++
        s'.payloadInHand P w := by
  have hs := hstep.stepOf.2.2
  have hquiet := payloads_quiet (P := P) hs
  cases hs with
  | recvfrom tev rest r hpc =>
    have hrefused : s.payloadRefused P (s.goto w (.handle tev rest (afterRecv s.tunnel.mtu r))) w
        (.recvfrom r : Action Unit) = [] := by
      unfold Sys.payloadRefused Sys.payloadInHand
      rw [hpc]
      split_ifs <;> rfl
    rw [payloads_recvfrom hpc, hrefused]
    rfl
  | write tev rest id d fd r now hpc =>
    obtain ⟨hold, hnew⟩ := payloads_write (P := P) hmap hdev fd r now hpc
    have hrefused : s.payloadRefused P (s.account w id (.afterWrite r now) (.handle tev rest .recv)) w
        (.write fd d.payload r now : Action Unit) = [] := if_neg (by simp [Action.tapWrite])
    rw [hold, hnew, hrefused, List.append_nil, List.append_nil]
    exact List.append_nil _
  | dieInMap tev rest p a hpc ha =>
    rcases ha with ⟨env, e, -, hret⟩ | ⟨env, e, id, -, hret⟩ <;> cases hret
  | _ => exact hquiet rfl rfl

/-- The other workers keep their datagrams. -/
theorem Step.payloadInHand_ne (hstep : Step finiteMapOps s (w, a) s') (hv : v ≠ w) :
    s'.payloadInHand P v = s.payloadInHand P v := by
  unfold Sys.payloadInHand
  rw [hstep.stepOf.2.2.workers_ne hv]

end Payloads

end UdpEthTunnel
