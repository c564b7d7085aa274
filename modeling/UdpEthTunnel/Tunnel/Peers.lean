/-
# Who a tunnel sends to

A worker sends what it reads from a device to the endpoint of that device.  A device is made
for an endpoint that the allow list matches, or for the default endpoint, whatever the map
says.  A call of `tunnel_alloc_new_tap` that fails half way leaves registrations behind, but
it has put the endpoint it was called for into the slot that they name (`allocNewTap_slot`).

So each event names a slot with an admitted endpoint (`PeersInv`), and a tunnel sends to
nobody else, in every run and whatever map it has (`send_admitted`).
-/

import UdpEthTunnel.Tunnel.Admission
import UdpEthTunnel.Tunnel.EpollData
import UdpEthTunnel.Tunnel.Forwarding

namespace UdpEthTunnel

open Tunnel Runs

variable {M E : Type}

/-- An event of a device names one of the first `k` slots of the table. -/
def TunnelEpollEvent.Names (k : ℕ) (tev : TunnelEpollEvent) : Prop :=
  tev.isTap = true → ∃ i < k, tev.tapId = .ofNat 31 i

/-- The first `k` slots have been written for endpoints in `A`, and every registration of a device
names one of them. -/
structure SlotsOf (A : Endpoint → Prop) (k : ℕ) (t : Tunnel M) (epoll : EpollSets) : Prop where
  num : t.numTapDevs ≤ k
  size : k ≤ t.tapDevs.length
  slots : ∀ i : ℕ, i < k → ∀ e, t.remote i = some e → A e
  regs : ∀ q, ∀ r ∈ epoll q, r.data.Names k

/-- **The invariant of the peers.** -/
structure PeersInv (A : Endpoint → Prop) (k : ℕ) (s : Sys M) : Prop where
  devs : SlotsOf A k s.tunnel s.epoll
  allowed : ∀ e : Endpoint, s.tunnel.allows e.addr = true → A e
  events : ∀ w, ∀ tev ∈ (s.workers w).pc.events, tev.Names k
  tap : ∀ w tev rest p, (s.workers w).pc = .handle tev rest p → p.Tap → tev.isTap = true

variable {ops : MapOps M E} {A : Endpoint → Prop} {k k' : ℕ} {s s' : Sys M} {w : ℕ} {a : Action E}
  {t t' : Tunnel M} {epoll epoll' : EpollSets} {e : Endpoint} {env : AllocTapEnv}
  {tev : TunnelEpollEvent}

theorem TunnelEpollEvent.Names.mono (h : tev.Names k) (hle : k ≤ k') : tev.Names k' := by
  intro htap
  obtain ⟨i, hi, hid⟩ := h htap
  exact ⟨i, hi.trans_le hle, hid⟩

/-- The endpoint that is found with a tap id, if one is found. -/
theorem SlotsOf.remote (h : SlotsOf A k t epoll) (hname : tev.Names k) (htap : tev.isTap = true)
    (hremote : t.remote tev.tapId.toInt = some e) : A e := by
  obtain ⟨i, hi, hid⟩ := hname htap
  have hle : tev.tapId.toNat ≤ i := by
    rw [hid, BitVec.toNat_ofNat]
    exact Nat.mod_le _ _
  rw [BitVec.toInt_eq_toNat_cond] at hremote
  split_ifs at hremote with hsmall
  · exact h.slots _ (hle.trans_lt hi) e hremote
  · -- a negative index
    have hneg : (tev.tapId.toNat : Int) - (2 ^ 31 : ℕ) =
        Int.negSucc (2 ^ 31 - 1 - tev.tapId.toNat) := by
      have hlt := tev.tapId.isLt
      omega
    rw [hneg] at hremote
    cases hremote

/-- What a call of `tunnel_alloc_new_tap` for `e` that gets as far as the table leaves. -/
structure Slot (t : Tunnel M) (epoll : EpollSets) (e : Endpoint) (t' : Tunnel M) (epoll' : EpollSets) :
    Prop where
  num : t'.numTapDevs ≤ t.numTapDevs + 1
  room : t.numTapDevs < t'.tapDevs.length
  size : t.tapDevs.length ≤ t'.tapDevs.length
  written : t'.remote (t.numTapDevs : ℕ) = some e
  others : ∀ i : ℕ, i < t.tapDevs.length → i ≠ t.numTapDevs → t'.remote i = t.remote i
  regs : ∀ q, ∀ r ∈ epoll' q, r ∈ epoll q ∨ r.data.tapId = .ofNat 31 t.numTapDevs

theorem growTapDevs_slots (h : growTapDevs env t = some t') :
    t'.numTapDevs = t.numTapDevs ∧ t.tapDevs.length ≤ t'.tapDevs.length ∧
      ∀ i : ℕ, i < t.tapDevs.length → t'.remote i = t.remote i := by
  unfold growTapDevs at h
  split_ifs at h
  · obtain ⟨tail, -, rfl⟩ := Option.map_eq_some_iff.1 h
    refine ⟨rfl, by simp, fun i hi => ?_⟩
    show Option.map _ ((t.tapDevs ++ _)[i]?) = _
    rw [List.getElem?_append_left hi]
    rfl
  · obtain rfl := Option.some.inj h
    exact ⟨rfl, le_rfl, fun _ _ => rfl⟩

/-- What is registered for a device names its slot. -/
theorem registers_slot {id : ℕ} {fds : List Fd} {ok : Bool}
    (h : registerTapFds env id 0 epoll fds = (epoll', ok)) (q : ℕ) :
    ∀ r ∈ epoll' q, r ∈ epoll q ∨ r.data.tapId = .ofNat 31 id := by
  intro r hr
  obtain ⟨n, -, -, -, -, hepoll⟩ := registerTapFds_spec h
  rw [hepoll q] at hr
  refine (List.mem_append.1 hr).imp_right fun hnew => ?_
  split_ifs at hnew
  · obtain ⟨fd, -, rfl⟩ := Option.map_eq_some_iff.1 (Option.mem_toList.1 hnew)
    rfl
  · cases hnew

/-- **A device written at the end of the table**, once the table has grown. -/
theorem Slot.ofSetDev {t₁ : Tunnel M} {d : TapDev} (hg : growTapDevs env t = some t₁)
    (hroom : t₁.numTapDevs < t₁.tapDevs.length)
    (hd : d.remote = e) (hdevs : t'.tapDevs = (t₁.setDev t₁.numTapDevs d).tapDevs)
    (hnum : t'.numTapDevs ≤ t.numTapDevs + 1)
    (hregs : ∀ q, ∀ r ∈ epoll' q, r ∈ epoll q ∨ r.data.tapId = .ofNat 31 t₁.numTapDevs) :
    Slot t epoll e t' epoll' := by
  obtain ⟨hsame, hsize, hold⟩ := growTapDevs_slots hg
  have hlen : t'.tapDevs.length = t₁.tapDevs.length := by
    rw [hdevs]
    exact List.length_set
  have hdev : ∀ i : ℕ, t'.dev i = (t₁.setDev t₁.numTapDevs d).dev i := fun i => by
    rw [dev_natCast, dev_natCast, hdevs]
  refine ⟨hnum, by omega, by omega, ?_, fun i hi hne => ?_, hsame ▸ hregs⟩
  · unfold Tunnel.remote
    rw [hdev, dev_setDev, if_pos (by rw [hsame]), ← hsame, dev_natCast,
      List.getElem?_eq_getElem hroom]
    exact congrArg some hd
  · rw [← hold i hi]
    unfold Tunnel.remote
    rw [hdev, dev_setDev, if_neg (by omega)]

/-- **A call that fails has named nobody else**: it leaves all as it was, or it has written the
slot of its endpoint. -/
theorem allocNewTap_slot {id : Option ℕ} (hle : t.numTapDevs ≤ t.tapDevs.length)
    (h : tunnelAllocNewTap env t epoll e = .ret id t' epoll') :
    (t' = t ∧ epoll' = epoll) ∨ Slot t epoll e t' epoll' := by
  rcases allocNewTap_cases t env epoll e with ⟨-, hret⟩ | ⟨t₁, hg, hcase⟩
  · rw [hret] at h
    injection h with _ ht he
    exact .inl ⟨ht.symm, he.symm⟩
  obtain ⟨-, -, hnum, hroom⟩ := growTapDevs_spec hle hg
  have hregs : ∀ {fds epoll₁ ok}, (env.createFds = none ∧ epoll₁ = epoll ∧ ok = false ∨
      env.createFds = some fds ∧ registerTapFds env t₁.numTapDevs 0 epoll
        ((List.range t₁.numQueues).map fds) = (epoll₁, ok)) →
      ∀ q, ∀ r ∈ epoll₁ q, r ∈ epoll q ∨ r.data.tapId = .ofNat 31 t₁.numTapDevs := by
    rintro fds epoll₁ ok (⟨-, rfl, -⟩ | ⟨-, hreg⟩)
    · exact fun q r hr => .inl hr
    · exact registers_slot hreg
  rcases hcase with ⟨-, hret⟩ | ⟨-, hret | ⟨fds, epoll₁, ok, hreg, ⟨-, hret⟩ | ⟨-, hret⟩⟩⟩ <;>
    rw [hret] at h
  · cases h
  · cases h
  · -- the device is written, and not counted
    injection h with _ ht he
    subst ht he
    exact .inr (.ofSetDev hg hroom rfl rfl (hnum.trans_le (Nat.le_succ _)) (hregs hreg))
  · injection h with _ ht he
    subst ht he
    exact .inr (.ofSetDev hg hroom rfl rfl (congrArg (· + 1) hnum).le (hregs hreg))

theorem SlotsOf.same (h : SlotsOf A k t epoll) (hsame : SameDevs t t')
    (hdata : ∀ q, (epoll' q).map (·.data) = (epoll q).map (·.data)) : SlotsOf A k t' epoll' := by
  refine ⟨hsame.numTapDevs ▸ h.num, hsame.size ▸ h.size, hsame.remote ▸ h.slots, fun q r hr => ?_⟩
  have hmem : r.data ∈ (epoll q).map (·.data) := hdata q ▸ List.mem_map_of_mem hr
  obtain ⟨r', hr', heq⟩ := List.mem_map.1 hmem
  exact heq ▸ h.regs q r' hr'

/-- After a call for an endpoint in `A`. -/
theorem SlotsOf.alloc {id : Option ℕ} (h : SlotsOf A k t epoll) (he : A e)
    (halloc : tunnelAllocNewTap env t epoll e = .ret id t' epoll') :
    ∃ k', k ≤ k' ∧ SlotsOf A k' t' epoll' := by
  rcases allocNewTap_slot (h.num.trans h.size) halloc with ⟨rfl, rfl⟩ | hslot
  · exact ⟨k, le_rfl, h⟩
  have hsize := h.size
  have hgrown := hslot.size
  have hroom := hslot.room
  refine ⟨max k (t.numTapDevs + 1), le_max_left _ _, hslot.num.trans (le_max_right _ _),
    by omega, ?_, ?_⟩
  · intro i hi e' he'
    rcases eq_or_ne i t.numTapDevs with rfl | hne
    · rw [hslot.written] at he'
      exact Option.some.inj he' ▸ he
    · have hold : i < k := by
        have hnum := h.num
        omega
      rw [hslot.others i (by omega) hne] at he'
      exact h.slots i hold e' he'
  · intro q r hr
    rcases hslot.regs q r hr with hold | hnew
    · exact (h.regs q r hold).mono (le_max_left _ _)
    · exact fun _ => ⟨t.numTapDevs, by omega, hnew⟩

/-- The slots after a step; a device is made for an endpoint behind the allow list. -/
theorem PeersInv.devs_step (h : PeersInv A k s) (hadm : AdmitInv (fun _ => True) (fun _ => True) s)
    (hs : StepOf ops s w a s') : ∃ k', k ≤ k' ∧ SlotsOf A k' s'.tunnel s'.epoll := by
  have hpoint : ∀ {tev rest p}, (s.workers w).pc = .handle tev rest p →
      p.Admits s.tunnel fun _ => True :=
    fun hpc => hadm.admits w _ (by rw [hpc]; rfl)
  have haccount : ∀ id f pc, SlotsOf A k (s.account w id f pc).tunnel (s.account w id f pc).epoll := by
    intro id f pc
    have hdata : ∀ q,
        ((s.account w id f pc).epoll q).map (·.data) = (s.epoll q).map (·.data) := fun q => by
      rw [epoll_account]
    rcases s.account_cases w id f pc with he | ⟨t, hsame, he⟩
    · exact h.devs.same (he ▸ SameDevs.rfl) hdata
    · exact h.devs.same (he ▸ hsame) hdata
  cases hs with
  | epollWait batch => exact ⟨k, le_rfl, h.devs.same SameDevs.rfl fun q => data_arm _ _ _ _⟩
  | rearm => exact ⟨k, le_rfl, h.devs.same SameDevs.rfl fun q => data_arm _ _ _ _⟩
  | sendto => exact ⟨k, le_rfl, haccount _ _ _⟩
  | write => exact ⟨k, le_rfl, haccount _ _ _⟩
  | allocFail tev rest d env t epoll hpc halloc => exact h.devs.alloc (h.allowed _ (hpoint hpc)) halloc
  | alloc tev rest d env id t epoll hpc halloc => exact h.devs.alloc (h.allowed _ (hpoint hpc)) halloc
  | _ => exact ⟨k, le_rfl, h.devs.num, h.devs.size, h.devs.slots, h.devs.regs⟩

/-- **Every step keeps the invariant.** -/
theorem PeersInv.step (h : PeersInv A k s) (hadm : AdmitInv (fun _ => True) (fun _ => True) s)
    (hs : StepOf ops s w a s') : ∃ k', PeersInv A k' s' := by
  obtain ⟨k', hle, hdevs⟩ := h.devs_step hadm hs
  have hallows := allows_congr (hs.extends hadm.size).allowed
  refine ⟨k', hdevs, fun e he => h.allowed e (by rwa [hallows] at he), fun v tev htev => ?_,
    fun v tev rest p hpc hp => ?_⟩
  · rcases eq_or_ne v w with rfl | hvw
    · rcases hs.ownStep.events tev htev with hold | hreg
      · exact (h.events v tev hold).mono hle
      · exact (h.devs.regs _ _ hreg).mono hle
    · rw [hs.workers_ne hvw] at htev
      exact (h.events v tev htev).mono hle
  · rcases eq_or_ne v w with rfl | hvw
    · rcases hs.ownStep.tap tev rest p hpc hp with htap | ⟨rest', p', hpc', hp'⟩
      · exact htap
      · exact h.tap v tev rest' p' hpc' hp'
    · rw [hs.workers_ne hvw] at hpc
      exact h.tap v tev rest p hpc hp

/-- The slot of a new tunnel, if it has one, is for the default endpoint. -/
theorem slotsOf_created {cenv : CreateEnv E} {params : TunnelParams}
    (hcreate : tunnelCreate ops cenv params = .created s) :
    ∃ k, SlotsOf (Admitted s.tunnel (defaultEndpoint cenv params)) k s.tunnel s.epoll := by
  obtain ⟨-, -, t, hbare, hcase⟩ := tunnelCreate_created hcreate
  have hnotap : ∀ q, ∀ r ∈ udpEpoll t.udpFds q, r.data.Names 0 := by
    intro q r hr htap
    obtain ⟨fd, -, rfl⟩ := Option.map_eq_some_iff.1 (Option.mem_toList.1 hr)
    cases htap
  rcases hcase with ⟨-, -, rfl, hepoll⟩ | ⟨e, hdef⟩
  · exact ⟨0, hbare.numTapDevs.le, Nat.zero_le _, fun i hi => absurd hi (Nat.not_lt_zero i),
      hepoll ▸ hnotap⟩
  · obtain ⟨host, hhost, haddr⟩ := hdef.host
    obtain ⟨map, -, hnew⟩ := hdef.add
    obtain ⟨fds, -, hepoll⟩ := hnew.fds
    have hdflt : defaultEndpoint cenv params = some e := by
      unfold defaultEndpoint
      rw [hhost, Option.bind_some, haddr, Option.map_some, ← hdef.port]
    have hnum : s.tunnel.numTapDevs = 1 := hnew.numTapDevs.trans (congrArg (· + 1) hbare.numTapDevs)
    refine ⟨1, hnum.le, hnum ▸ hnew.ext.size, fun i hi e' he' => ?_, fun q r hr => ?_⟩
    · obtain rfl : i = 0 := by omega
      rw [hnew.remote] at he'
      exact .inl (hdflt.trans he')
    · rw [hepoll q] at hr
      rcases List.mem_append.1 hr with hudp | htap
      · exact (hnotap q r hudp).mono (Nat.zero_le 1)
      · split_ifs at htap
        · obtain rfl := List.mem_singleton.1 htap
          exact fun _ => ⟨0, Nat.one_pos, rfl⟩
        · cases htap

/-- The workers of a new tunnel hold nothing, so its peers are those of its slots. -/
theorem peersInv_created {cenv : CreateEnv E} {params : TunnelParams}
    (hcreate : tunnelCreate ops cenv params = .created s) :
    AdmitInv (fun _ => True) (fun _ => True) s ∧
      ∃ k, PeersInv (Admitted s.tunnel (defaultEndpoint cenv params)) k s := by
  obtain ⟨hworkers, -⟩ := tunnelCreate_created hcreate
  have hidle : ∀ w, (s.workers w).pc = .start := fun w => by rw [hworkers]
  obtain ⟨k, hdevs⟩ := slotsOf_created hcreate
  refine ⟨⟨hdevs.num.trans hdevs.size, fun _ _ => trivial, trivial, fun w p hp => ?_⟩, k, hdevs,
    fun e he => .inr he, fun w tev htev => ?_, fun w tev rest p hpc => ?_⟩
  · rw [hidle w] at hp
    cases hp
  · rw [hidle w] at htev
    cases htev
  · rw [hidle w] at hpc
    cases hpc

/-- The peers of a tunnel that runs. -/
theorem peersInv_run {cenv : CreateEnv E} {params : TunnelParams} {s₀ : Sys M} {tr : Trace M E}
    (hcreate : tunnelCreate ops cenv params = .created s₀) (hrun : Run (Step ops) s₀ tr s) :
    AdmitInv (fun _ => True) (fun _ => True) s ∧
      ∃ k, PeersInv (Admitted s₀.tunnel (defaultEndpoint cenv params)) k s := by
  refine hrun.invariant (I := fun u => AdmitInv (fun _ => True) (fun _ => True) u ∧
    ∃ k, PeersInv (Admitted s₀.tunnel (defaultEndpoint cenv params)) k u) (fun u wa v hu hstep => ?_)
    (peersInv_created hcreate)
  obtain ⟨hadm, k, hpeers⟩ := hu
  exact ⟨hadm.step (fun _ _ _ _ _ _ _ => trivial) hstep fun _ _ _ _ _ _ _ => trivial,
    hpeers.step hadm hstep.stepOf.2.2⟩

/-- **Where a frame in hand comes from**: it is read, or was in hand before. -/
theorem StepOf.frame (hs : StepOf ops s w a s') {x : Int × Bytes}
    (hx : (s'.workers w).pc.frame = some x) :
    (∃ fd frame, a = .read x.1 fd (some frame) ∧ x.2 = frame.take (2 * s.tunnel.mtu)) ∨
      (a.frame = none ∧ (s.workers w).pc.frame = some x) := by
  have haccount : ∀ {id f tev rest p}, p = .tapRead ∨ p = .recv → a.frame = none →
      ((s.account w id f (.handle tev rest p)).workers w).pc.frame = some x →
      (∃ fd frame, a = .read x.1 fd (some frame) ∧ x.2 = frame.take (2 * s.tunnel.mtu)) ∨
        (a.frame = none ∧ (s.workers w).pc.frame = some x) := by
    intro id f tev rest p hp ha h
    rcases s.account_cases w id f (.handle tev rest p) with he | ⟨t, -, he⟩ <;> rw [he] at h
    · exact .inr ⟨ha, h⟩
    · rw [Sys.pc_goto] at h
      rcases hp with rfl | rfl <;> cases h
  cases hs with
  | sendto => exact haccount (.inl rfl) rfl hx
  | write => exact haccount (.inr rfl) rfl hx
  | start => simp [Sys.workers_setWorker, Pc.frame] at hx
  | rdlockBatch batch => rw [Sys.pc_lockGoto, frame_nextEvent] at hx; cases hx
  | rearm tev rest => rw [Sys.pc_goto, frame_nextEvent] at hx; cases hx
  | read tev rest fd r =>
    rw [Sys.pc_goto] at hx
    cases r with
    | none => cases hx
    | some frame =>
      cases hx
      exact .inl ⟨fd, frame, rfl, rfl⟩
  | recvfrom tev rest r hpc =>
    rw [Sys.pc_goto] at hx
    rcases afterRecv_cases s.tunnel.mtu r with ⟨-, hr⟩ | ⟨d₀, rfl, ⟨-, hr⟩ | ⟨-, hr⟩⟩ <;>
      rw [hr] at hx <;> cases hx
  | lookup tev rest d env tapId =>
    rw [Sys.pc_goto] at hx
    rcases afterLookup_cases (s.tunnel.allows d.src.addr) tapId d with
      ⟨-, hr⟩ | ⟨-, ⟨-, hr⟩ | ⟨-, hr⟩⟩ <;> rw [hr] at hx <;> cases hx
  | relookup tev rest d env tapId =>
    rw [Sys.pc_goto] at hx
    rcases afterRelookup_cases tapId d with ⟨-, hr⟩ | ⟨-, hr⟩ <;> rw [hr] at hx <;> cases hx
  | dieInMap tev rest p a hpc ha =>
    rcases ha with ⟨env, e, rfl, -⟩ | ⟨env, e, id, rfl, -⟩ <;> exact .inr ⟨rfl, hx⟩
  | dieInAlloc => exact .inr ⟨rfl, hx⟩
  | epollFail | epollWait | rearmFail | allocFail | alloc | add => rw [Sys.pc_goto] at hx; cases hx
  | _ => rw [Sys.pc_lockGoto] at hx; cases hx

/-- **The frame in hand** is the last the worker has read, cut to its buffer. -/
theorem frameInHand {s₀ : Sys M} {tr : Trace M E} (hidle : ∀ w, (s₀.workers w).pc = .start)
    (hle : s₀.tunnel.numTapDevs ≤ s₀.tunnel.tapDevs.length) (hrun : Run (Step ops) s₀ tr s) :
    ∀ w x, (s.workers w).pc.frame = some x → ∃ frame, (reads w tr).getLast? = some (x.1, frame) ∧
      x.2 = frame.take (2 * s₀.tunnel.mtu) := by
  induction hrun with
  | nil =>
    intro w x hx
    rw [hidle w] at hx
    cases hx
  | @snoc u v tr wa hrun hstep ih =>
    intro w x hx
    obtain ⟨y, a⟩ := wa
    have hs := hstep.stepOf.2.2
    have hmtu := (extends_of_run hrun hle).mtu
    unfold reads at ih ⊢
    rw [byWorker_snoc]
    rcases eq_or_ne w y with rfl | hne
    · rcases hs.frame hx with ⟨fd, frame, rfl, hframe⟩ | ⟨hnone, hx⟩
      · exact ⟨frame, by simp [Action.frame], hmtu ▸ hframe⟩
      · obtain ⟨frame, hlast, hrest⟩ := ih w x hx
        exact ⟨frame, by simpa [hnone] using hlast, hrest⟩
    · rw [hs.workers_ne hne] at hx
      obtain ⟨frame, hlast, hrest⟩ := ih w x hx
      exact ⟨frame, by simpa [hne.symm] using hlast, hrest⟩

/-- A worker dies of the statistics of a device that is not there. -/
theorem Sys.crash_account_of_none {id : Int} {f : TunnelStats → TunnelStats} {pc : Pc}
    (h : s.tunnel.remote id = none) : (s.account w id f pc).crash = some .wildAccess := by
  have hdev : s.tunnel.dev id = none := Option.map_eq_none_iff.1 h
  have hstats : s.tunnel.updateStats id (s.workers w).queueId f = none := by
    unfold updateStats
    rw [hdev, Option.bind_none]
  unfold Sys.account
  rw [hstats]
  rfl

/-- **A tunnel sends what it reads to admitted endpoints only**, unless it dies of it: behind a
tap id that overflows its field there is no device. -/
theorem send_admitted {cenv : CreateEnv E} {params : TunnelParams} {s₀ : Sys M} {tr : Trace M E}
    {frame : Bytes} {dst : Endpoint} {r : Option ℕ} {now : Int}
    (hcreate : tunnelCreate ops cenv params = .created s₀) (hrun : Run (Step ops) s₀ tr s)
    (hstep : Step ops s (w, .sendto frame dst r now) s') :
    (∃ id bytes, (reads w tr).getLast? = some (id, bytes) ∧ frame <+: bytes) ∧
      (s'.crash = none → Admitted s₀.tunnel (defaultEndpoint cenv params) dst) := by
  obtain ⟨-, k, hpeers⟩ := peersInv_run hcreate hrun
  have hidle : ∀ w, (s₀.workers w).pc = .start := fun w => by rw [(tunnelCreate_created hcreate).1]
  have hhand := frameInHand hidle (peersInv_created hcreate).1.size hrun w
  have hs := hstep.stepOf.2.2
  generalize hact : Action.sendto frame dst r now = a at hs
  cases hs with
  | sendto tev rest frame dst r now hpc hdst =>
    cases hact
    obtain ⟨bytes, hlast, hcut⟩ := hhand (tev.tapId.toInt, frame) (by rw [hpc]; rfl)
    have hfront : frame <+: bytes := by
      rw [show frame = bytes.take _ from hcut]
      exact List.take_prefix _ _
    refine ⟨⟨_, bytes, hlast, hfront⟩, fun halive => ?_⟩
    have htap := hpeers.tap w tev rest _ hpc trivial
    have hname : tev.Names k := hpeers.events w tev (by rw [hpc]; exact List.mem_cons_self)
    rcases hdst with hnone | hsome
    · rw [Sys.crash_account_of_none hnone] at halive
      cases halive
    · exact hpeers.devs.remote hname htap hsome
  | dieInMap tev rest p a hpc ha =>
    rcases ha with ⟨_, _, rfl, -⟩ | ⟨_, _, _, rfl, -⟩ <;> cases hact
  | _ => cases hact

end UdpEthTunnel
