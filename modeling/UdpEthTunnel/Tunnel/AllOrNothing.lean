/-
# When `tunnel_alloc_new_tap` fails

A call that returns -1 should leave nothing behind (`NothingDone`).  It does where the
table cannot grow, and where `net_create_tap_mq_fds` fails and closes what it has opened.
But once the descriptors are there, a failure to set one of them up releases the array
that holds them and nothing else: they stay open, and those of the queues before stay
registered (`allOrNothing`).
-/

import UdpEthTunnel.Net.Tap
import UdpEthTunnel.Tunnel.FiniteMap
import UdpEthTunnel.Tunnel.Queues

namespace UdpEthTunnel

open Tunnel Runs

variable {M E : Type}

/-- The descriptors that `net_create_tap_mq_fds` hands out, if it succeeds. -/
def TapMqResult.createFds (r : TapMqResult) : Option (ℕ → Fd) :=
  if r.ok then some fun q => r.fds.getD q 0 else none

/-- `tunnel_alloc_new_tap` over `net_create_tap_mq_fds`, with the descriptors that are
opened and closed; it opens and closes none itself. -/
def tunnelAllocNewTapOn (tap : TapMqEnv) (tapBaseName bridgeName : Option CStr)
    (env : AllocTapEnv) (t : Tunnel M) (epoll : EpollSets) (e : Endpoint) :
    AllocTapOutcome M × List FdEvent :=
  let r := netCreateTapMqFds tap tapBaseName t.numQueues t.mtu bridgeName
  let reached := (growTapDevs env t).isSome && e.port != 0 && env.mallocFds
  (tunnelAllocNewTap { env with createFds := r.createFds } t epoll e, if reached then r.log else [])

/-- **The call has left nothing behind**: the devices, the configuration and the
registrations are as before, and what was opened is closed. -/
structure NothingDone (t : Tunnel M) (epoll : EpollSets) (t' : Tunnel M) (epoll' : EpollSets)
    (log : List FdEvent) : Prop extends SameConfig t t' where
  map : t'.map = t.map
  numTapDevs : t'.numTapDevs = t.numTapDevs
  devs : ∀ id : ℕ, id < t.numTapDevs → t'.dev id = t.dev id
  epoll : ∀ q, epoll' q = epoll q
  closed : openAfter log = 0

/-- The table cannot grow; or `net_create_tap_mq_fds` fails, and no descriptor it should
close is 0. -/
def FailsClean (tap : TapMqEnv) (tapBaseName bridgeName : Option CStr) (env : AllocTapEnv)
    (t : Tunnel M) : Prop :=
  (t.tapDevsAllocated ≤ t.numTapDevs ∧ env.realloc = none) ∨
    (¬ tap.Succeeds tapBaseName t.numQueues t.mtu bridgeName ∧
      (ifNamSiz ≤ (tapName tap tapBaseName).length ∨ tap.Positive t.numQueues))

section Fail

variable {tap : TapMqEnv} {tapBaseName bridgeName : Option CStr} {env : AllocTapEnv}
  {t t' t₁ : Tunnel M} {epoll epoll' : EpollSets} {e : Endpoint} {log : List FdEvent}

theorem growTapDevs_eq_none_iff :
    growTapDevs env t = none ↔ t.tapDevsAllocated ≤ t.numTapDevs ∧ env.realloc = none := by
  unfold growTapDevs
  split_ifs with h
  · rw [Option.map_eq_none_iff]
    exact (and_iff_right h).symm
  · exact iff_of_false nofun fun hc => h hc.1

/-- A call that returns has got as far as `net_create_tap_mq_fds`, if the table had room. -/
theorem reached_of_ret (hg : growTapDevs env t = some t₁) {id : Option ℕ}
    (h : tunnelAllocNewTap env t epoll e = .ret id t' epoll') :
    e.port ≠ 0 ∧ env.mallocFds = true := by
  unfold tunnelAllocNewTap at h
  rw [hg] at h
  dsimp only at h
  by_cases hport : e.port = 0
  · rw [if_pos hport] at h
    cases h
  · rw [if_neg hport] at h
    refine ⟨hport, Bool.eq_true_of_not_eq_false fun hmalloc => ?_⟩
    rw [if_pos hmalloc] at h
    cases h

/-- The descriptors are there exactly when all calls for them succeed. -/
theorem createFds_eq_none_iff {n : ℕ} {mtu : Int} :
    (netCreateTapMqFds tap tapBaseName n mtu bridgeName).createFds = none ↔
      ¬ tap.Succeeds tapBaseName n mtu bridgeName := by
  rw [← ok_iff_succeeds]
  unfold TapMqResult.createFds
  split_ifs with hok
  · exact iff_of_false (by simp) (not_not_intro hok)
  · exact iff_of_true rfl hok

/-- A registration fails at some queue. -/
theorem queues_pos_of_registerFails {id n : ℕ} {fds : ℕ → Fd}
    (h : registerTapFds env id 0 epoll ((List.range n).map fds) = (epoll', false)) : 0 < n := by
  obtain ⟨k, hk, hall, -⟩ := registerTapFds_spec h
  rw [List.length_map, List.length_range] at hk hall
  refine Nat.pos_of_ne_zero fun hzero => ?_
  have hk0 : k = n := by omega
  exact Bool.false_ne_true (hall.2 hk0)

/-- The slot of the new device lies behind the devices that are there. -/
theorem devs_of_released (hle : t.numTapDevs ≤ t.tapDevs.length) (hg : growTapDevs env t = some t₁) :
    SameConfig t (t₁.setDev t₁.numTapDevs ⟨e, none, none⟩) ∧ t₁.map = t.map ∧
      t₁.numTapDevs = t.numTapDevs ∧
      ∀ id : ℕ, id < t.numTapDevs →
        (t₁.setDev t₁.numTapDevs ⟨e, none, none⟩).dev id = t.dev id := by
  obtain ⟨hext, hmap, hnum, hlt⟩ := growTapDevs_spec hle hg
  refine ⟨hext.toSameConfig.trans ⟨rfl, rfl, rfl, rfl, rfl⟩, hmap, hnum, fun id hid => ?_⟩
  rw [dev_setDev, if_neg (by omega), (growTapDevs_dev hle hg).2 id hid]

/-- **What a call that fails has done**, by where it failed. -/
theorem nothingDone_iff (hle : t.numTapDevs ≤ t.tapDevs.length)
    (h : tunnelAllocNewTapOn tap tapBaseName bridgeName env t epoll e = (.ret none t' epoll', log)) :
    NothingDone t epoll t' epoll' log ↔ FailsClean tap tapBaseName bridgeName env t := by
  obtain ⟨hcall, hlog⟩ := Prod.mk.inj h
  rw [FailsClean, ← growTapDevs_eq_none_iff]
  rcases allocNewTap_cases t { env with createFds := (netCreateTapMqFds tap tapBaseName t.numQueues
    t.mtu bridgeName).createFds } epoll e with ⟨hg, hret⟩ | ⟨t₁, hg, hcase⟩
  · replace hg : growTapDevs env t = none := hg
    rw [hret] at hcall
    injection hcall with _ ht hepoll
    subst ht hepoll
    rw [hg] at hlog
    refine iff_of_true ⟨.rfl, rfl, rfl, fun _ _ => rfl, fun _ => rfl, ?_⟩ (.inl hg)
    rw [← hlog]
    rfl
  · obtain ⟨hport, hmalloc⟩ := reached_of_ret hg hcall
    replace hg : growTapDevs env t = some t₁ := hg
    have hreached : ((growTapDevs env t).isSome && e.port != 0 && env.mallocFds) = true := by
      rw [hg, show env.mallocFds = true from hmalloc]
      simpa using hport
    rw [hreached, if_pos rfl] at hlog
    obtain ⟨hconfig, hmap, hnum, hdevs⟩ := devs_of_released (e := e) hle hg
    rw [hg, or_iff_right (by simp)]
    rcases hcase with ⟨-, hret⟩ | ⟨-, hret | ⟨fds, epoll₁, ok, hreg, ⟨rfl, hret⟩ | ⟨-, hret⟩⟩⟩ <;>
      rw [hret] at hcall
    · cases hcall
    · cases hcall
    · injection hcall with _ ht hepoll
      subst ht hepoll
      rcases hreg with ⟨hfds, rfl, -⟩ | ⟨hfds, hreg⟩
      · have hfail := createFds_eq_none_iff.1 hfds
        rw [and_iff_right hfail, ← closed_iff_positive hfail, hlog]
        constructor
        · exact fun hnothing => hnothing.closed
        · exact fun hclosed => ⟨hconfig, hmap, hnum, hdevs, fun _ => rfl, hclosed⟩
      · have hok : tap.Succeeds tapBaseName t.numQueues t.mtu bridgeName := by
          by_contra hfail
          cases (createFds_eq_none_iff.2 hfail).symm.trans hfds
        refine iff_of_false (fun hnothing => ?_) fun hclean => hclean.1 hok
        -- a queue has failed, so there is one, and its descriptor is open
        have hqueue : 0 < t.numQueues := hconfig.numQueues ▸ queues_pos_of_registerFails hreg
        obtain ⟨hlen, hopen⟩ := fds_of_succeeds hok
        rw [hlog, hnothing.closed] at hopen
        have hcard := Multiset.card_le_card hopen
        rw [Multiset.coe_card, hlen, Multiset.card_zero] at hcard
        omega
    · injection hcall with hid
      cases hid

end Fail

/-- **When `tunnel_alloc_new_tap` is all or nothing.** A call that returns -1 has left
nothing behind exactly when the table could not grow, or when `net_create_tap_mq_fds`
failed and had no descriptor 0 to close.  And along every run in which the registrations of
each call are all made or none is, every registration of a tap device names a device and its
descriptor for the queue. -/
theorem allOrNothing (ops : MapOps M E) :
    (∀ (tap : TapMqEnv) (tapBaseName bridgeName : Option CStr) (env : AllocTapEnv)
      (t t' : Tunnel M) (epoll epoll' : EpollSets) (e : Endpoint) (log : List FdEvent),
      t.numTapDevs ≤ t.tapDevs.length →
      tunnelAllocNewTapOn tap tapBaseName bridgeName env t epoll e =
        (.ret none t' epoll', log) →
      (NothingDone t epoll t' epoll' log ↔ FailsClean tap tapBaseName bridgeName env t)) ∧
    ∀ (env : CreateEnv E) (params : TunnelParams) (s₀ s : Sys M)
      (tr : List (Event (Sys M) (ℕ × Action E))), tunnelCreate ops env params = .created s₀ →
      Run (Step ops) s₀ tr s → (∀ ev ∈ tr, CleanAlloc ev.pre ev.act) →
      ∀ q, ∀ r ∈ s.epoll q, r.data.isTap = true → ValidEvent s.tunnel q r.data := by
  constructor
  · intro tap tapBaseName bridgeName env t t' epoll epoll' e log hle h
    exact nothingDone_iff hle h
  · intro env params s₀ s tr hcreate hrun hclean
    have hinv : DevInv s := hrun.invariant_of (fun s wa s' hi hG hs => hi.step hs hG) hclean
      (devInv_created hcreate)
    exact hinv.regs

/-- A tunnel of two queues without devices. -/
def bareTunnel : Tunnel (Endpoint → Option ℕ) :=
  { queueIds := 0, numQueues := 2, numTapDevs := 0, map := fun _ => none, allowedAddrList := none,
    tapDevs := [], udpFds := [], epollFds := [], mtu := 1500 }

/-- A kernel that makes every tap device. -/
def quietTap : TapMqEnv :=
  { procNetDev := none, openTun := fun q => some (10 + q), tunSetIff := fun _ => true,
    ctlSocket := some 20, ifIndex := fun _ => true, setIfMtu := fun _ => true, bridgeIndex := .found,
    addBridge := true, getBridgeFlags := true, setBridgeFlags := true, getBridgeMtu := true,
    addToBridge := true, getIfFlags := fun _ => true, setIfFlags := fun _ => true }

/-- The second descriptor cannot be attached: the first one is closed again.  And a worker that
has admitted an endpoint has registered the descriptors of a device that is there. -/
theorem allOrNothing_attach :
    (∃ t' epoll' log, tunnelAllocNewTapOn { quietTap with tunSetIff := fun q => q == 0 } none none
        (quietAlloc fun _ => 0) bareTunnel (fun _ => []) (switchHost 2) =
          (.ret none t' epoll', log) ∧
      log = [.opened 10, .opened 11, .closed 11, .closed 10] ∧
      NothingDone bareTunnel (fun _ => []) t' epoll' log) ∧
    ∃ (s₀ s : Sys (Endpoint → Option ℕ)) (tr : Trace (Endpoint → Option ℕ) Unit),
      tunnelCreate finiteMapOps (openEnv ()) (openParams 2) = .created s₀ ∧
      Run (Step finiteMapOps) s₀ tr s ∧ s.tunnel.numTapDevs = 1 ∧
      tapRegistration 0 41 ∈ s.epoll 1 ∧ ValidEvent s.tunnel 1 (tapRegistration 0 41).data := by
  constructor
  · have hcall : ∃ t' epoll' log, tunnelAllocNewTapOn
        { quietTap with tunSetIff := fun q => q == 0 } none none (quietAlloc fun _ => 0) bareTunnel
        (fun _ => []) (switchHost 2) = (.ret none t' epoll', log) ∧
        log = [.opened 10, .opened 11, .closed 11, .closed 10] := ⟨_, _, _, rfl, rfl⟩
    obtain ⟨t', epoll', log, h, hlog⟩ := hcall
    refine ⟨t', epoll', log, h, hlog, ?_⟩
    refine ((allOrNothing finiteMapOps).1 _ _ _ _ _ _ _ _ _ _ (Nat.le_refl 0) h).2 (.inr ⟨?_, ?_⟩)
    · exact fun h => absurd (h.2.1 1 (by decide)) (by decide)
    · exact .inr ⟨by decide, fun h => absurd (h 1 (by decide)) (by decide)⟩
  · have hreplay : ∃ s₀ : Sys (Endpoint → Option ℕ),
        tunnelCreate finiteMapOps (openEnv ()) (openParams 2) = .created s₀ ∧
        s₀.tunnel.numTapDevs ≤ s₀.tunnel.tapDevs.length ∧
        (replay finiteMapOps s₀ 0 (wakeActions Unit ++ admitActions () (switchHost 2) (40 + ·) 40)).any
          (fun s => s.tunnel.numTapDevs == 1 && (s.epoll 1).elem (tapRegistration 0 41)) = true :=
      ⟨_, rfl, Nat.le_refl 0, by decide +kernel⟩
    obtain ⟨s₀, hcreate, hle, hany⟩ := hreplay
    obtain ⟨s, hs, hp⟩ := (Option.any_eq_true _ _).1 hany
    rw [Bool.and_eq_true, beq_iff_eq, List.elem_eq_mem, decide_eq_true_eq] at hp
    obtain ⟨hnum, hreg⟩ := hp
    obtain ⟨tr, hrun, -, htr⟩ := mem_replay hle hs
    refine ⟨s₀, s, tr, hcreate, hrun, hnum, hreg,
      (allOrNothing finiteMapOps).2 _ _ s₀ s tr hcreate hrun (fun e he => ?_) 1 _ hreg rfl⟩
    obtain ⟨hmem, -, hext⟩ := htr e he
    have hdevs := hext.numTapDevs
    exact cleanAlloc_of_admits hmem (by omega)

/-- The second descriptor cannot be registered: both stay open, the first one stays
registered, for a device that is not there. -/
theorem allOrNothing_fails : ∃ t' epoll' log,
    tunnelAllocNewTapOn quietTap none none
        { quietAlloc (fun _ => 0) with epollAdd := fun q => q == 0 } bareTunnel (fun _ => [])
        (switchHost 2) = (.ret none t' epoll', log) ∧
      openAfter log = {10, 11} ∧ epoll' 0 = [tapRegistration 0 10] ∧ t'.numTapDevs = 0 ∧
      ¬ NothingDone bareTunnel (fun _ => []) t' epoll' log ∧
      ¬ ValidEvent t' 0 (tapRegistration 0 10).data := by
  have hcall : ∃ t' epoll' log, tunnelAllocNewTapOn quietTap none none
      { quietAlloc (fun _ => 0) with epollAdd := fun q => q == 0 } bareTunnel (fun _ => [])
      (switchHost 2) = (.ret none t' epoll', log) ∧
      log = [.opened 10, .opened 11, .opened 20, .closed 20] ∧
      epoll' 0 = [tapRegistration 0 10] ∧ t'.numTapDevs = 0 := ⟨_, _, _, rfl, rfl, rfl, rfl⟩
  obtain ⟨t', epoll', log, h, rfl, hepoll, hnum⟩ := hcall
  refine ⟨t', epoll', _, h, by decide, hepoll, hnum, fun hnothing => ?_, ?_⟩
  · exact absurd hnothing.closed (by decide)
  · rintro ⟨i, -, hi, -⟩
    omega

end UdpEthTunnel
