/-
# The data of an epoll registration

`tunnel_epoll_event` of `src/tunnel.c` is a union: the kernel stores and gives back its 64
bits, in which the code keeps three bit fields.  Nothing is lost on the way
(`ofU64_u64`), and no other 64 bits stand for the same event (`u64_ofU64`).

The epoll set of a queue holds its socket and its descriptor of each device, in the order
in which the devices were made (`EpollInv`).  So the 64 bits of its registrations are
different from one another, and give back what was registered (`registrations_read_back`).
-/

import UdpEthTunnel.Tunnel.Devices
import UdpEthTunnel.Tunnel.FiniteMap
import UdpEthTunnel.Tunnel.Trace

namespace UdpEthTunnel

open Tunnel Runs

/-! ### The union -/

namespace TunnelEpollEvent

/-- `tev.u64`: `is_tap` is the lowest bit, `tap_id` follows, and `fd` is the upper half. -/
def u64 (tev : TunnelEpollEvent) : U64 :=
  BitVec.ofNat 32 tev.fd ++ (tev.tapId ++ BitVec.ofBool tev.isTap)

/-- The event whose `u64` is `x`. -/
def ofU64 (x : U64) : TunnelEpollEvent where
  isTap := x.getLsbD 0
  tapId := x.extractLsb' 1 31
  fd := (x.extractLsb' 32 32).toNat

/-- Each bit of the union belongs to one of the fields. -/
theorem getLsbD_u64 (tev : TunnelEpollEvent) {i : ℕ} (hi : i < 64) :
    tev.u64.getLsbD i = if i = 0 then tev.isTap
      else if i < 32 then tev.tapId.getLsbD (i - 1) else tev.fd.testBit (i - 32) := by
  unfold u64
  rw [BitVec.getLsbD_append, BitVec.getLsbD_append, BitVec.getLsbD_ofNat, BitVec.getLsbD_ofBool]
  rcases Nat.eq_zero_or_pos i with rfl | hpos
  · simp
  · by_cases hlow : i < 32
    · simp [hlow, show ¬ i < 1 by omega, show i ≠ 0 by omega]
    · simp [hlow, show i ≠ 0 by omega, show i - 32 < 32 by omega]

/-- **An event comes back as it was stored.** -/
theorem ofU64_u64 (tev : TunnelEpollEvent) (hfd : tev.fd < 2 ^ 32) : ofU64 tev.u64 = tev := by
  have htap : tev.u64.getLsbD 0 = tev.isTap := by
    rw [getLsbD_u64 tev (by omega), if_pos rfl]
  have hid : tev.u64.extractLsb' 1 31 = tev.tapId := by
    refine BitVec.eq_of_getLsbD_eq fun i hi => ?_
    rw [BitVec.getLsbD_extractLsb', getLsbD_u64 tev (by omega), if_neg (by omega), if_pos (by omega),
      Nat.add_sub_cancel_left, decide_eq_true hi, Bool.true_and]
  have hfield : tev.u64.extractLsb' 32 32 = BitVec.ofNat 32 tev.fd := by
    refine BitVec.eq_of_getLsbD_eq fun i hi => ?_
    rw [BitVec.getLsbD_extractLsb', getLsbD_u64 tev (by omega), if_neg (by omega), if_neg (by omega),
      Nat.add_sub_cancel_left, BitVec.getLsbD_ofNat]
  unfold ofU64
  rw [htap, hid, hfield, BitVec.toNat_ofNat, Nat.mod_eq_of_lt hfd]

/-- **All 64 bits are fields.** -/
theorem u64_ofU64 (x : U64) : (ofU64 x).u64 = x := by
  refine BitVec.eq_of_getLsbD_eq fun i hi => ?_
  rw [getLsbD_u64 _ hi]
  rcases Nat.eq_zero_or_pos i with rfl | hpos
  · rfl
  rw [if_neg (by omega)]
  split_ifs with hlow
  · show (x.extractLsb' 1 31).getLsbD (i - 1) = _
    rw [BitVec.getLsbD_extractLsb', decide_eq_true (by omega), Bool.true_and, Nat.add_sub_cancel' hpos]
  · show (x.extractLsb' 32 32).getLsbD (i - 32) = _
    rw [BitVec.getLsbD_extractLsb', decide_eq_true (by omega), Bool.true_and,
      Nat.add_sub_cancel' (by omega)]

end TunnelEpollEvent

/-! ### The epoll sets -/

section EpollSets

variable {M E : Type} {ops : MapOps M E} {s s' : Sys M} {w q : ℕ} {a : Action E} {t t' : Tunnel M}

/-- The event of a device for a queue. -/
def Tunnel.tapEvent (t : Tunnel M) (q i : ℕ) : TunnelEpollEvent :=
  { isTap := true, tapId := .ofNat 31 i, fd := (t.tapFd i q).getD 0 }

/-- What the epoll set of a queue is there for: the socket of the queue, and its descriptor
of each device. -/
def Tunnel.registered (t : Tunnel M) (q : ℕ) : List TunnelEpollEvent :=
  (t.udpFds[q]?.map fun fd => (udpRegistration fd).data).toList ++
    (List.range t.numTapDevs).map (t.tapEvent q)

/-- **The invariant of the epoll sets**: each holds what it is there for, the tap ids fit
their field, and what a worker has in hand is registered with its queue. -/
structure EpollInv (s : Sys M) : Prop where
  sets : ∀ q < s.tunnel.numQueues, (s.epoll q).map (·.data) = s.tunnel.registered q
  small : s.tunnel.numTapDevs ≤ 2 ^ 30
  hands : ∀ w, ∀ tev ∈ (s.workers w).pc.events, tev ∈ s.tunnel.registered (s.workers w).queueId

theorem registered_same (hext : Extends t t') (hnum : t'.numTapDevs = t.numTapDevs) (q : ℕ) :
    t'.registered q = t.registered q := by
  unfold Tunnel.registered
  rw [hext.udpFds, hnum]
  refine congrArg _ (List.map_congr_left fun i hi => ?_)
  unfold Tunnel.tapEvent
  rw [hext.tapFd i (List.mem_range.1 hi)]

/-- A new device is registered last. -/
theorem registered_new {epoll epoll' : EpollSets} {e : Endpoint} {id : ℕ}
    (hnew : NewTap t epoll e id t' epoll') (hq : q < t.numQueues)
    (h : (epoll q).map (·.data) = t.registered q) : (epoll' q).map (·.data) = t'.registered q := by
  obtain ⟨fds, hfds, hepoll⟩ := hnew.fds
  have hid := hnew.id_eq
  have hold : (List.range t.numTapDevs).map (t'.tapEvent q) =
      (List.range t.numTapDevs).map (t.tapEvent q) :=
    List.map_congr_left fun i hi => by
      unfold Tunnel.tapEvent
      rw [hnew.ext.tapFd i (List.mem_range.1 hi)]
  have hlast : t'.tapEvent q id = (tapRegistration id (fds q)).data := by
    unfold Tunnel.tapEvent
    rw [hfds q hq]
    rfl
  rw [hepoll q, if_pos hq, List.map_append, h]
  unfold Tunnel.registered
  rw [hnew.ext.udpFds, hnew.numTapDevs, List.range_succ, List.map_append, List.map_singleton, hold,
    ← hid, List.map_singleton, hlast, List.append_assoc]

theorem data_arm (s : Sys M) (w q : ℕ) (f : Registration → Bool) :
    ((s.arm w f).epoll q).map (·.data) = (s.epoll q).map (·.data) := by
  rw [Sys.epoll_arm]
  split_ifs
  · rw [List.map_map]
    rfl
  · rfl

theorem epoll_account (s : Sys M) (w : ℕ) (id : Int) (f : TunnelStats → TunnelStats) (pc : Pc) :
    (s.account w id f pc).epoll = s.epoll := by
  rcases s.account_cases w id f pc with he | ⟨t, -, he⟩ <;> rw [he] <;> rfl

/-- The epoll sets and the number of devices after a step. -/
theorem EpollInv.sets_step (h : EpollInv s) (hdev : DevInv s) (hs : StepOf ops s w a s')
    (hclean : CleanAlloc s (w, a)) :
    (∀ q < s'.tunnel.numQueues, (s'.epoll q).map (·.data) = s'.tunnel.registered q) ∧
      s'.tunnel.numTapDevs ≤ 2 ^ 30 := by
  have hext := hs.extends hdev.size
  have hsame : s'.tunnel.numTapDevs = s.tunnel.numTapDevs →
      (∀ q, (s'.epoll q).map (·.data) = (s.epoll q).map (·.data)) →
      (∀ q < s'.tunnel.numQueues, (s'.epoll q).map (·.data) = s'.tunnel.registered q) ∧
        s'.tunnel.numTapDevs ≤ 2 ^ 30 := by
    intro hnum hdata
    refine ⟨fun q hq => ?_, hnum ▸ h.small⟩
    rw [hext.numQueues] at hq
    rw [hdata, h.sets q hq, registered_same hext hnum]
  have haccount : ∀ {id f pc}, (s.account w id f pc).tunnel.numTapDevs = s.tunnel.numTapDevs := by
    intro id f pc
    rcases s.account_cases w id f pc with he | ⟨t, hsame, he⟩ <;> rw [he]
    · rfl
    · exact hsame.numTapDevs
  cases hs with
  | epollWait batch => exact hsame rfl fun q => data_arm _ _ _ _
  | rearm => exact hsame rfl fun q => data_arm _ _ _ _
  | sendto => exact hsame haccount fun q => by rw [epoll_account]
  | write => exact hsame haccount fun q => by rw [epoll_account]
  | allocFail tev rest d env t epoll hpc halloc =>
    have hepoll := epoll_of_allocNewTap_none hdev.size (hclean env rfl).1 halloc
    refine hsame (allocNewTap_none hdev.size halloc).2.2.1 fun q => ?_
    show (epoll q).map _ = _
    rw [hepoll]
  | alloc tev rest d env id t epoll hpc halloc =>
    have hnew := allocNewTap_some hdev.size halloc
    refine ⟨fun q hq => ?_, hnew.numTapDevs.trans_le (hclean env rfl).2⟩
    rw [hext.numQueues] at hq
    exact registered_new hnew hq (h.sets q hq)
  | _ => exact hsame rfl fun q => rfl

/-- What is registered stays registered. -/
theorem mem_registered_extends {tev : TunnelEpollEvent} (hext : Extends t t')
    (h : tev ∈ t.registered q) : tev ∈ t'.registered q := by
  unfold Tunnel.registered at h ⊢
  rw [hext.udpFds]
  refine (List.mem_append.1 h).elim (List.mem_append_left _) fun hmem => List.mem_append_right _ ?_
  obtain ⟨i, hi, rfl⟩ := List.mem_map.1 hmem
  have hlt := List.mem_range.1 hi
  refine List.mem_map.2 ⟨i, List.mem_range.2 (hlt.trans_le hext.numTapDevs), ?_⟩
  unfold Tunnel.tapEvent
  rw [hext.tapFd i hlt]

/-- **Clean steps keep the epoll sets as they should be.** -/
theorem EpollInv.step (h : EpollInv s) (hdev : DevInv s) (hs : StepOf ops s w a s')
    (hclean : CleanAlloc s (w, a)) : EpollInv s' := by
  have hext := hs.extends hdev.size
  obtain ⟨hsets, hsmall⟩ := h.sets_step hdev hs hclean
  refine ⟨hsets, hsmall, fun v tev htev => ?_⟩
  rcases eq_or_ne v w with rfl | hvw
  · have hown := hs.ownStep
    rcases hown.queue with ⟨hqueue, hstart⟩ | ⟨-, hidle⟩
    · rw [hqueue]
      refine mem_registered_extends hext ?_
      rcases hown.events tev htev with hold | hreg
      · exact h.hands v tev hold
      · rw [← h.sets _ (hdev.queue v hstart)]
        exact List.mem_map_of_mem hreg
    · rw [hidle] at htev
      cases htev
  · rw [hs.workers_ne hvw] at htev ⊢
    exact mem_registered_extends hext (h.hands v tev htev)

theorem epollInv_created {env : CreateEnv E} {params : TunnelParams}
    (h : tunnelCreate ops env params = .created s) : EpollInv s := by
  obtain ⟨hworkers, -, t, hbare, hcase⟩ := tunnelCreate_created h
  have hstart : ∀ q, (udpEpoll t.udpFds q).map (·.data) = t.registered q := by
    intro q
    unfold udpEpoll Tunnel.registered
    rw [hbare.numTapDevs, List.range_zero, List.map_nil, List.append_nil]
    cases t.udpFds[q]? <;> rfl
  have hhands : ∀ w, ∀ tev ∈ (s.workers w).pc.events, tev ∈ s.tunnel.registered (s.workers w).queueId := by
    intro w tev htev
    rw [hworkers] at htev
    cases htev
  rcases hcase with ⟨-, -, rfl, hepoll⟩ | ⟨e, hdef⟩
  · refine ⟨fun q _ => ?_, by rw [hbare.numTapDevs]; omega, hhands⟩
    rw [hepoll, hstart]
  · obtain ⟨map, -, hnew⟩ := hdef.add
    have hone : s.tunnel.numTapDevs = t.numTapDevs + 1 := hnew.numTapDevs
    refine ⟨fun q hq => ?_, by rw [hone, hbare.numTapDevs]; omega, hhands⟩
    rw [hnew.ext.numQueues] at hq
    exact registered_new hnew hq (hstart q)

/-- The words of what is registered are different from one another. -/
theorem nodup_registered (hsmall : t.numTapDevs ≤ 2 ^ 30) (q : ℕ) :
    (t.registered q).Nodup := by
  have hudp : ((t.udpFds[q]?.map fun fd => (udpRegistration fd).data).toList).Nodup := by
    cases t.udpFds[q]? <;> simp
  have htaps : ((List.range t.numTapDevs).map (t.tapEvent q)).Nodup := by
    refine List.Nodup.map_on (fun i hi j hj hij => ?_) List.nodup_range
    have hid : BitVec.ofNat 31 i = BitVec.ofNat 31 j := congrArg (·.tapId) hij
    have hi := List.mem_range.1 hi
    have hj := List.mem_range.1 hj
    have hint := congrArg BitVec.toInt hid
    rw [toInt_ofNat_tapId (by omega), toInt_ofNat_tapId (by omega)] at hint
    omega
  refine hudp.append htaps fun tev hleft hright => ?_
  obtain ⟨i, -, rfl⟩ := List.mem_map.1 hright
  obtain ⟨fd, -, heq⟩ := Option.map_eq_some_iff.1 (Option.mem_toList.1 hleft)
  have hkind : false = true := congrArg (·.isTap) heq
  cases hkind

/-- **What is registered is read back.**  Whatever the workers do, in every interleaving and
with any map, as long as no call of `tunnel_alloc_new_tap` fails after it has registered a
descriptor: the 64 bits that the kernel keeps for the registrations of a queue are different
from one another, and read as the socket of the queue and its descriptors of the devices, in
order; and each event that a worker handles is that of a registration with its own queue. -/
theorem registrations_read_back (ops : MapOps M E) (env : CreateEnv E) (params : TunnelParams)
    (s₀ s : Sys M) (tr : Trace M E) (hcreate : tunnelCreate ops env params = .created s₀)
    (hrun : Run (Step ops) s₀ tr s) (hclean : ∀ e ∈ tr, CleanAlloc e.pre e.act)
    (hfds : ∀ q < s.tunnel.numQueues, ∀ r ∈ s.epoll q, r.data.fd < 2 ^ 32) :
    (∀ q < s.tunnel.numQueues, ((s.epoll q).map (·.data.u64)).Nodup ∧
      (s.epoll q).map (fun r => .ofU64 r.data.u64) = s.tunnel.registered q) ∧
    ∀ w, ∀ tev ∈ (s.workers w).pc.events,
      ∃ r ∈ s.epoll (s.workers w).queueId, r.data.u64 = tev.u64 ∧ .ofU64 r.data.u64 = tev := by
  have hinv : DevInv s ∧ EpollInv s := hrun.invariant_of (I := fun u => DevInv u ∧ EpollInv u)
    (G := CleanAlloc)
    (fun u wa v hu hG hstep => ⟨hu.1.step hstep hG, hu.2.step hu.1 hstep.stepOf.2.2 hG⟩) hclean
    ⟨devInv_created hcreate, epollInv_created hcreate⟩
  have hback : ∀ q < s.tunnel.numQueues,
      (s.epoll q).map (fun r => .ofU64 r.data.u64) = s.tunnel.registered q := fun q hq => by
    rw [← hinv.2.sets q hq]
    exact List.map_congr_left fun r hr => TunnelEpollEvent.ofU64_u64 _ (hfds q hq r hr)
  refine ⟨fun q hq => ⟨?_, hback q hq⟩, fun w tev htev => ?_⟩
  · have hwords : ((s.epoll q).map (·.data.u64)).map TunnelEpollEvent.ofU64 = s.tunnel.registered q :=
      List.map_map.trans (hback q hq)
    have hnodup := nodup_registered hinv.2.small q
    rw [← hwords] at hnodup
    exact hnodup.of_map _
  · have hqueue : (s.workers w).queueId < s.tunnel.numQueues := by
      refine hinv.1.queue w fun hstart => ?_
      rw [hstart] at htev
      cases htev
    have hreg := hinv.2.hands w tev htev
    rw [← hinv.2.sets _ hqueue] at hreg
    obtain ⟨r, hr, rfl⟩ := List.mem_map.1 hreg
    exact ⟨r, hr, rfl, TunnelEpollEvent.ofU64_u64 _ (hfds _ hqueue r hr)⟩

/-- Two queues and a device. -/
theorem registrations_read_back_two : ∃ (s₀ s : Sys (Endpoint → Option ℕ))
    (tr : Trace (Endpoint → Option ℕ) Unit),
    tunnelCreate finiteMapOps (openEnv ()) (openParams 2) = .created s₀ ∧
    Run (Step finiteMapOps) s₀ tr s ∧
    s.tunnel.registered 1 = [(udpRegistration 11).data, (tapRegistration 0 41).data] ∧
    ((s.epoll 1).map (·.data.u64)).Nodup ∧
    (s.epoll 1).map (fun r => .ofU64 r.data.u64) = s.tunnel.registered 1 := by
  have hreplay : ∃ s₀ : Sys (Endpoint → Option ℕ),
      tunnelCreate finiteMapOps (openEnv ()) (openParams 2) = .created s₀ ∧
      s₀.tunnel.numTapDevs ≤ s₀.tunnel.tapDevs.length ∧
      (replay finiteMapOps s₀ 0 (wakeActions Unit ++ admitActions () (switchHost 2) (40 + ·) 40)).any
        (fun s => s.tunnel.registered 1 == [(udpRegistration 11).data, (tapRegistration 0 41).data] &&
          s.tunnel.numQueues == 2 && s.tunnel.numTapDevs == 1 &&
          (List.range 2).all fun q => (s.epoll q).all (·.data.fd < 2 ^ 32)) = true :=
    ⟨_, rfl, Nat.le_refl 0, by decide +kernel⟩
  obtain ⟨s₀, hcreate, hle, hany⟩ := hreplay
  obtain ⟨s, hs, hp⟩ := (Option.any_eq_true _ _).1 hany
  simp only [Bool.and_eq_true, beq_iff_eq, List.all_eq_true, List.mem_range, decide_eq_true_eq] at hp
  obtain ⟨⟨⟨hreg, hqueues⟩, hnum⟩, hfds⟩ := hp
  obtain ⟨tr, hrun, -, htr⟩ := mem_replay hle hs
  obtain ⟨hsets, -⟩ := registrations_read_back finiteMapOps _ _ s₀ s tr hcreate hrun
    (fun e he => by
      obtain ⟨hmem, -, hext⟩ := htr e he
      have hdevs := hext.numTapDevs
      exact cleanAlloc_of_admits hmem (by omega))
    (fun q hq => hfds q (hqueues ▸ hq))
  exact ⟨s₀, s, tr, hcreate, hrun, hreg, hsets 1 (by omega)⟩

end EpollSets

end UdpEthTunnel
