/-
# Devices, queues and registrations

Every device has a descriptor and statistics for each queue, every worker a queue,
and every registration of a tap device in the epoll set of a queue names a device
and its descriptor for that queue (`DevInv`).  The last of these needs that
`tunnel_alloc_new_tap` never fails after it has registered a descriptor
(`CleanAlloc`): it does not take back the registrations it has made.
-/

import UdpEthTunnel.Tunnel.Create

namespace UdpEthTunnel

open Tunnel

variable {M E : Type}

/-- The registrations of a call are all made, or none is: it does not reach them, or
none of its queues fails, or the first does. -/
def AllocTapEnv.Clean (env : AllocTapEnv) (t : Tunnel M) : Prop :=
  growTapDevs env t = none ∨ env.createFds = none ∨
    (∀ q < t.numQueues, env.nonblocking q = true ∧ env.epollAdd q = true) ∨
    ¬ (env.nonblocking 0 = true ∧ env.epollAdd 0 = true)

/-- A step that leaves no registration without a device: if it allocates, its
registrations are all made or none is, and the tap id fits its field. -/
def CleanAlloc (s : Sys M) (wa : ℕ × Action E) : Prop :=
  ∀ env, wa.2 = .allocNewTap env → env.Clean s.tunnel ∧ s.tunnel.numTapDevs < 2 ^ 30

/-- The event of a descriptor of a device, on the queue of that descriptor. -/
def ValidEvent (t : Tunnel M) (q : ℕ) (tev : TunnelEpollEvent) : Prop :=
  ∃ i : ℕ, tev.tapId.toInt = i ∧ i < t.numTapDevs ∧ t.tapFd i q = some tev.fd

/-- The events a worker has in hand. -/
def Pc.events : Pc → List TunnelEpollEvent
  | .rdlock batch => batch
  | .handle tev rest _ => tev :: rest
  | _ => []

/-- The points of the branch for tap devices. -/
def Point.Tap : Point → Prop
  | .tapRead | .tapSend _ => True
  | _ => False

/-- **The invariant of devices, queues and registrations.** -/
structure DevInv (s : Sys M) : Prop where
  size : s.tunnel.numTapDevs ≤ s.tunnel.tapDevs.length
  fds : ∀ i : ℕ, i < s.tunnel.numTapDevs → ∀ q < s.tunnel.numQueues,
    ∃ fd, s.tunnel.tapFd i q = some fd
  stats : ∀ i : ℕ, i < s.tunnel.numTapDevs → s.tunnel.statsSize i = some s.tunnel.numQueues
  queue : ∀ w, (s.workers w).pc ≠ .start → (s.workers w).queueId < s.tunnel.numQueues
  regs : ∀ q, ∀ r ∈ s.epoll q, r.data.isTap = true → ValidEvent s.tunnel q r.data
  events : ∀ w, ∀ tev ∈ (s.workers w).pc.events, tev.isTap = true →
    ValidEvent s.tunnel (s.workers w).queueId tev
  tap : ∀ w tev rest p, (s.workers w).pc = .handle tev rest p → p.Tap → tev.isTap = true

variable {ops : MapOps M E} {s s' : Sys M} {w : ℕ} {a : Action E} {t t' : Tunnel M}
  {env : AllocTapEnv} {epoll epoll' : EpollSets} {e : Endpoint} {id : ℕ}

theorem ValidEvent.extends {q : ℕ} {tev : TunnelEpollEvent} (h : ValidEvent t q tev)
    (hext : Extends t t') : ValidEvent t' q tev := by
  obtain ⟨i, hi, hlt, hfd⟩ := h
  exact ⟨i, hi, hlt.trans_le hext.numTapDevs, by rw [hext.tapFd i hlt, hfd]⟩

/-- The tap id field of the epoll data holds tap ids below `2 ^ 30`. -/
theorem toInt_ofNat_tapId (h : id < 2 ^ 30) : (BitVec.ofNat 31 id).toInt = id := by
  have hnat : (BitVec.ofNat 31 id).toNat = id := by
    rw [BitVec.toNat_ofNat]
    omega
  rw [BitVec.toInt_eq_toNat_of_lt (by omega), hnat]

/-- **A clean call that fails** leaves the epoll sets as they were. -/
theorem epoll_of_allocNewTap_none (hle : t.numTapDevs ≤ t.tapDevs.length) (hclean : env.Clean t)
    (h : tunnelAllocNewTap env t epoll e = .ret none t' epoll') : epoll' = epoll := by
  rcases (allocNewTap_none hle h).2.2.2 with hsame | ⟨fds, hgrow, hfds, hreg⟩
  · exact hsame
  obtain ⟨k, hk, hok, hdone, hstop, hepoll⟩ := registerTapFds_spec hreg
  have hlen : ((List.range t.numQueues).map fds).length = t.numQueues := by simp
  rw [hlen] at hk hok hstop
  have hlt : k < t.numQueues := lt_of_le_of_ne hk fun hn => by
    have := hok.2 hn
    cases this
  have hstop := hstop hlt
  rw [Nat.zero_add] at hstop
  rcases hclean with hg | hc | hall | hfirst
  · exact absurd hg hgrow
  · rw [hc] at hfds
    cases hfds
  · exact absurd (hall k hlt) hstop
  · obtain rfl : k = 0 := by
      by_contra hne
      exact hfirst (hdone 0 (by omega))
    funext q
    rw [hepoll q]
    simp

/-- Accounting to a device with statistics for the queue does not go wrong. -/
theorem DevInv.account (h : DevInv s) {id : Int} {i : ℕ} (hid : id = i)
    (hi : i < s.tunnel.numTapDevs) (hw : (s.workers w).pc ≠ .start)
    (f : TunnelStats → TunnelStats) (pc : Pc) :
    ∃ t, SameDevs s.tunnel t ∧ s.account w id f pc = (s.setTunnel t).goto w pc := by
  have hstats := h.stats i hi
  have hq := h.queue w hw
  unfold statsSize at hstats
  obtain ⟨d, hd, hsize⟩ := Option.bind_eq_some_iff.1 hstats
  obtain ⟨stats, hstats, hlen⟩ := Option.map_eq_some_iff.1 hsize
  have hget : stats[(s.workers w).queueId]? = some stats[(s.workers w).queueId] :=
    List.getElem?_eq_getElem (by omega)
  unfold Sys.account
  cases hu : s.tunnel.updateStats id (s.workers w).queueId f with
  | none =>
    unfold updateStats at hu
    rw [hid, hd] at hu
    simp [hstats, hget] at hu
  | some t => exact ⟨t, sameDevs_updateStats hu, rfl⟩

/-- The devices after a step: those there were, and perhaps one that is complete. -/
theorem DevInv.devs_step (h : DevInv s) (hs : StepOf ops s w a s') :
    Extends s.tunnel s'.tunnel ∧ ∀ i : ℕ, i < s'.tunnel.numTapDevs →
      (∀ q < s'.tunnel.numQueues, ∃ fd, s'.tunnel.tapFd i q = some fd) ∧
        s'.tunnel.statsSize i = some s'.tunnel.numQueues := by
  have hold : Extends s.tunnel s'.tunnel → ∀ i : ℕ, i < s.tunnel.numTapDevs →
      (∀ q < s'.tunnel.numQueues, ∃ fd, s'.tunnel.tapFd i q = some fd) ∧
        s'.tunnel.statsSize i = some s'.tunnel.numQueues := by
    intro hext i hi
    rw [hext.tapFd i hi, hext.statsSize i hi, hext.numQueues]
    exact ⟨h.fds i hi, h.stats i hi⟩
  have hext := hs.extends h.size
  refine ⟨hext, fun i hi => ?_⟩
  rcases Nat.lt_or_ge i s.tunnel.numTapDevs with hlt | hge
  · exact hold hext i hlt
  rcases hs.tunnel_cases with hsame | ⟨_, _, d, env, -, -, ⟨halloc, -⟩ | ⟨id, halloc, -⟩⟩ |
    ⟨_, _, id, d, env, map, -, -, -, ht, -⟩
  · rw [hsame.numTapDevs] at hi
    omega
  · rw [(allocNewTap_none h.size halloc).2.2.1] at hi
    omega
  · have hnew := allocNewTap_some h.size halloc
    obtain rfl : i = id := by
      have := hnew.id_eq
      have := hnew.numTapDevs
      omega
    obtain ⟨fds, hfds, -⟩ := hnew.fds
    rw [hext.numQueues]
    exact ⟨fun q hq => ⟨fds q, hfds q hq⟩, hnew.statsSize⟩
  · rw [ht] at hi
    have hi' : i < s.tunnel.numTapDevs := hi
    omega

/-- The registrations after a step. -/
theorem DevInv.regs_step (h : DevInv s) (hs : StepOf ops s w a s') (hclean : CleanAlloc s (w, a)) :
    ∀ q, ∀ r ∈ s'.epoll q, r.data.isTap = true → ValidEvent s'.tunnel q r.data := by
  have hext := hs.extends h.size
  have hsame : (∀ q, ∀ r ∈ s'.epoll q, ∃ r' ∈ s.epoll q, r'.data = r.data) →
      ∀ q, ∀ r ∈ s'.epoll q, r.data.isTap = true → ValidEvent s'.tunnel q r.data := by
    intro hold q r hr htap
    obtain ⟨r', hr', hdata⟩ := hold q r hr
    rw [← hdata] at htap ⊢
    exact (h.regs q r' hr' htap).extends hext
  have harm : ∀ q₀ f q, ∀ r ∈ (s.arm q₀ f).epoll q, ∃ r' ∈ s.epoll q, r'.data = r.data := by
    intro q₀ f q r hr
    rcases eq_or_ne q q₀ with rfl | hne
    · rw [Sys.epoll_arm, if_pos rfl] at hr
      obtain ⟨r', hr', rfl⟩ := List.mem_map.1 hr
      exact ⟨r', hr', rfl⟩
    · rw [Sys.epoll_arm, if_neg hne] at hr
      exact ⟨r, hr, rfl⟩
  have haccount : ∀ {id f pc}, (s.account w id f pc).epoll = s.epoll := by
    intro id f pc
    rcases s.account_cases w id f pc with he | ⟨t, -, he⟩ <;> rw [he] <;> rfl
  cases hs with
  | epollWait batch => exact hsame (harm _ _)
  | rearm => exact hsame (harm _ _)
  | sendto => exact hsame fun q r hr => ⟨r, by rwa [haccount] at hr, rfl⟩
  | write => exact hsame fun q r hr => ⟨r, by rwa [haccount] at hr, rfl⟩
  | allocFail tev rest d env t epoll hpc halloc =>
    have hepoll := epoll_of_allocNewTap_none h.size (hclean env rfl).1 halloc
    exact hsame fun q r hr => ⟨r, hepoll ▸ hr, rfl⟩
  | alloc tev rest d env id t epoll hpc halloc =>
    have hnew := allocNewTap_some h.size halloc
    obtain ⟨fds, hfds, hepoll⟩ := hnew.fds
    intro q r hr htap
    have hr' : r ∈ epoll q := hr
    rw [hepoll q] at hr'
    rcases List.mem_append.1 hr' with hold | hnew'
    · exact (h.regs q r hold htap).extends hext
    · split_ifs at hnew' with hq
      · obtain rfl := List.mem_singleton.1 hnew'
        have hlt := (hclean env rfl).2
        have hnum : t.numTapDevs = s.tunnel.numTapDevs + 1 := hnew.numTapDevs
        have hid := hnew.id_eq
        exact ⟨id, toInt_ofNat_tapId (by omega), by show id < t.numTapDevs; omega, hfds q hq⟩
      · cases hnew'
  | _ => exact hsame fun q r hr => ⟨r, hr, rfl⟩

/-- What a step does to the queue, the events and the branch of its own worker. -/
structure OwnStep (s s' : Sys M) (w : ℕ) : Prop where
  queue : ((s'.workers w).queueId = (s.workers w).queueId ∧ (s.workers w).pc ≠ .start) ∨
    ((s'.workers w).queueId = s.tunnel.queueIds % s.tunnel.numQueues ∧
      (s'.workers w).pc = .epollWait)
  events : ∀ tev ∈ (s'.workers w).pc.events, tev ∈ (s.workers w).pc.events ∨
    ⟨tev, true⟩ ∈ s.epoll (s.workers w).queueId
  tap : ∀ tev rest p, (s'.workers w).pc = .handle tev rest p → p.Tap →
    tev.isTap = true ∨ ∃ rest p', (s.workers w).pc = .handle tev rest p' ∧ p'.Tap

/-- Going on at a point of the same event. -/
theorem ownStep_of_handle {tev : TunnelEpollEvent} {rest : List TunnelEpollEvent} {p p' : Point}
    (hpc : (s.workers w).pc = .handle tev rest p) (hpc' : (s'.workers w).pc = .handle tev rest p')
    (hq : (s'.workers w).queueId = (s.workers w).queueId) (htap : p'.Tap → p.Tap) :
    OwnStep s s' w := by
  refine ⟨.inl ⟨hq, by rw [hpc]; exact nofun⟩, fun tev' h => .inl ?_, fun tev' rest' p₁ h hp => .inr ?_⟩
  · rw [hpc'] at h
    rw [hpc]
    exact h
  · rw [hpc'] at h
    cases h
    exact ⟨rest, p, hpc, htap hp⟩

/-- Going on with the next event of the batch. -/
theorem ownStep_of_next {batch : List TunnelEpollEvent} (hstart : (s.workers w).pc ≠ .start)
    (hpc' : (s'.workers w).pc = nextEvent batch)
    (hq : (s'.workers w).queueId = (s.workers w).queueId)
    (hsub : batch ⊆ (s.workers w).pc.events) : OwnStep s s' w := by
  refine ⟨.inl ⟨hq, hstart⟩, fun tev' h => .inl ?_, fun tev' rest' p₁ h hp => .inl ?_⟩
  · rw [hpc'] at h
    rcases nextEvent_cases batch with hn | ⟨tev, rest, rfl, ⟨-, hn⟩ | ⟨-, hn⟩⟩ <;> rw [hn] at h
    · cases h
    · exact hsub h
    · exact hsub h
  · rw [hpc'] at h
    rcases nextEvent_cases batch with hn | ⟨tev, rest, rfl, ⟨ht, hn⟩ | ⟨-, hn⟩⟩ <;> rw [hn] at h <;>
      cases h
    · exact ht
    · exact hp.elim

/-- Going on outside the handling of events. -/
theorem ownStep_of_idle {pc : Pc} (hstart : (s.workers w).pc ≠ .start)
    (hpc' : (s'.workers w).pc = pc) (hevents : pc.events = [])
    (hq : (s'.workers w).queueId = (s.workers w).queueId) : OwnStep s s' w := by
  refine ⟨.inl ⟨hq, hstart⟩, fun tev' h => ?_, fun tev' rest' p₁ h hp => ?_⟩
  · rw [hpc', hevents] at h
    cases h
  · rw [hpc'] at h
    rw [h] at hevents
    cases hevents

theorem Sys.queueId_goto (s : Sys M) (w : ℕ) (pc : Pc) :
    ((s.goto w pc).workers w).queueId = (s.workers w).queueId := by
  rw [Sys.workers_goto, if_pos rfl]

theorem Sys.queueId_lockGoto (s : Sys M) (w : ℕ) (l : LockMode) (pc : Pc) :
    ((s.lockGoto w l pc).workers w).queueId = (s.workers w).queueId := by
  rw [Sys.workers_lockGoto, if_pos rfl]

theorem StepOf.ownStep (hs : StepOf ops s w a s') : OwnStep s s' w := by
  have hne : ∀ {pc}, (s.workers w).pc = pc → pc ≠ .start → (s.workers w).pc ≠ .start :=
    fun hpc h => hpc ▸ h
  have hdie : ∀ {tev rest p c}, (s.workers w).pc = .handle tev rest p → OwnStep s (s.die c) w :=
    fun hpc => ownStep_of_handle hpc hpc rfl id
  have haccount : ∀ {tev rest p p' id f}, (s.workers w).pc = .handle tev rest p →
      (p'.Tap → p.Tap) → OwnStep s (s.account w id f (.handle tev rest p')) w := by
    intro tev rest p p' id f hpc htap
    rcases s.account_cases w id f (.handle tev rest p') with he | ⟨t, -, he⟩ <;> rw [he]
    · exact hdie hpc
    · exact ownStep_of_handle hpc (Sys.pc_goto ..) (Sys.queueId_goto ..) htap
  cases hs with
  | start hpc =>
    refine ⟨.inr ?_, fun tev h => ?_, fun tev rest p h => ?_⟩
    · simp [Sys.workers_setWorker]
    · simp [Sys.workers_setWorker, Pc.events] at h
    · simp [Sys.workers_setWorker] at h
  | epollFail hpc =>
    exact ownStep_of_idle (hne hpc nofun) (Sys.pc_goto ..) rfl (Sys.queueId_goto ..)
  | epollWait batch hpc hbatch =>
    refine ⟨.inl ⟨Sys.queueId_goto .., hne hpc nofun⟩, fun tev h => .inr ?_, fun tev rest p h => ?_⟩
    · rw [Sys.pc_goto] at h
      exact hbatch.2.2.2 tev h
    · rw [Sys.pc_goto] at h
      cases h
  | rdlockBatch batch hpc =>
    exact ownStep_of_next (hne hpc nofun) (Sys.pc_lockGoto ..) (Sys.queueId_lockGoto ..)
      (by rw [hpc]; exact List.Subset.refl _)
  | scopeEnd hpc =>
    exact ownStep_of_idle (hne hpc nofun) (Sys.pc_lockGoto ..) rfl (Sys.queueId_lockGoto ..)
  | read tev rest fd r hpc =>
    exact ownStep_of_handle hpc (Sys.pc_goto ..) (Sys.queueId_goto ..) fun _ => trivial
  | sendto tev rest frame dst r now hpc => exact haccount hpc fun _ => trivial
  | recvfrom tev rest r hpc =>
    refine ownStep_of_handle hpc (Sys.pc_goto ..) (Sys.queueId_goto ..) fun h => ?_
    rcases afterRecv_cases s.tunnel.mtu r with ⟨-, hr⟩ | ⟨d, -, ⟨-, hr⟩ | ⟨-, hr⟩⟩ <;> rw [hr] at h <;>
      exact h
  | lookup tev rest d env tapId hpc =>
    refine ownStep_of_handle hpc (Sys.pc_goto ..) (Sys.queueId_goto ..) fun h => ?_
    rcases afterLookup_cases (s.tunnel.allows d.src.addr) tapId d with
      ⟨-, hr⟩ | ⟨-, ⟨-, hr⟩ | ⟨-, hr⟩⟩ <;> rw [hr] at h <;> exact h
  | unlockMiss tev rest d hpc =>
    exact ownStep_of_handle hpc (Sys.pc_lockGoto ..) (Sys.queueId_lockGoto ..) id
  | wrlock tev rest d hpc =>
    exact ownStep_of_handle hpc (Sys.pc_lockGoto ..) (Sys.queueId_lockGoto ..) id
  | relookup tev rest d env tapId hpc =>
    refine ownStep_of_handle hpc (Sys.pc_goto ..) (Sys.queueId_goto ..) fun h => ?_
    rcases afterRelookup_cases tapId d with ⟨-, hr⟩ | ⟨-, hr⟩ <;> rw [hr] at h <;> exact h
  | unlockHit tev rest id d hpc =>
    exact ownStep_of_handle hpc (Sys.pc_lockGoto ..) (Sys.queueId_lockGoto ..) fun h => h
  | rdlockHit tev rest id d hpc =>
    exact ownStep_of_handle hpc (Sys.pc_lockGoto ..) (Sys.queueId_lockGoto ..) fun h => h
  | allocFail tev rest d env t epoll hpc =>
    exact ownStep_of_handle hpc (Sys.pc_goto ..) (Sys.queueId_goto ..) id
  | alloc tev rest d env id t epoll hpc =>
    exact ownStep_of_handle hpc (Sys.pc_goto ..) (Sys.queueId_goto ..) fun h => h
  | add tev rest id d env map hpc =>
    exact ownStep_of_handle hpc (Sys.pc_goto ..) (Sys.queueId_goto ..) fun h => h
  | write tev rest id d fd r now hpc => exact haccount hpc fun h => h
  | rearm tev rest hpc =>
    refine ownStep_of_next (hne hpc nofun) (Sys.pc_goto ..) (Sys.queueId_goto ..) ?_
    rw [hpc]
    exact List.subset_cons_self ..
  | rearmFail tev rest hpc =>
    exact ownStep_of_idle (hne hpc nofun) (Sys.pc_goto ..) rfl (Sys.queueId_goto ..)
  | dieInMap tev rest p a hpc => exact hdie hpc
  | dieInAlloc tev rest d env c hpc => exact hdie hpc

/-- A worker starts only once. -/
theorem StepOf.pc_ne_start (hs : StepOf ops s w a s') : (s'.workers w).pc ≠ .start := by
  have hnext : ∀ batch, nextEvent batch ≠ .start := fun batch => by
    rcases nextEvent_cases batch with hn | ⟨tev, rest, -, ⟨-, hn⟩ | ⟨-, hn⟩⟩ <;> rw [hn] <;> exact nofun
  have haccount : ∀ {id f pc}, pc ≠ .start → (s.workers w).pc ≠ .start →
      ((s.account w id f pc).workers w).pc ≠ .start := by
    intro id f pc hpc hs
    rcases s.account_cases w id f pc with he | ⟨t, -, he⟩ <;> rw [he]
    · exact hs
    · rwa [Sys.pc_goto]
  cases hs with
  | start => simp [Sys.workers_setWorker]
  | sendto tev rest frame dst r now hpc => exact haccount nofun (by rw [hpc]; exact nofun)
  | write tev rest id d fd r now hpc => exact haccount nofun (by rw [hpc]; exact nofun)
  | rdlockBatch batch => rw [Sys.pc_lockGoto]; exact hnext batch
  | rearm tev rest => rw [Sys.pc_goto]; exact hnext rest
  | scopeEnd | unlockMiss | wrlock | unlockHit | rdlockHit => rw [Sys.pc_lockGoto]; exact nofun
  | dieInMap tev rest p a hpc => exact fun h => absurd (hpc.symm.trans h) nofun
  | dieInAlloc tev rest d env c hpc => exact fun h => absurd (hpc.symm.trans h) nofun
  | _ => rw [Sys.pc_goto]; exact nofun

/-- **Clean steps keep the invariant.** -/
theorem DevInv.step (h : DevInv s) (hstep : Step ops s (w, a) s') (hclean : CleanAlloc s (w, a)) :
    DevInv s' := by
  obtain ⟨-, hw, hs⟩ := hstep.stepOf
  obtain ⟨hext, hdevs⟩ := h.devs_step hs
  have hown := hs.ownStep
  refine ⟨hext.size, fun i hi => (hdevs i hi).1, fun i hi => (hdevs i hi).2, fun v hv => ?_,
    h.regs_step hs hclean, fun v tev htev htap => ?_, fun v tev rest p hpc hp => ?_⟩
  · rw [hext.numQueues]
    rcases eq_or_ne v w with rfl | hvw
    · rcases hown.queue with ⟨hq, hstart⟩ | ⟨hq, -⟩
      · rw [hq]
        exact h.queue v hstart
      · rw [hq]
        exact Nat.mod_lt _ (by omega)
    · rw [hs.workers_ne hvw] at hv ⊢
      exact h.queue v hv
  · rcases eq_or_ne v w with rfl | hvw
    · have hq : (s'.workers v).queueId = (s.workers v).queueId := by
        rcases hown.queue with ⟨hq, -⟩ | ⟨-, hidle⟩
        · exact hq
        · rw [hidle] at htev
          cases htev
      rw [hq]
      rcases hown.events tev htev with hold | hreg
      · exact (h.events v tev hold htap).extends hext
      · exact (h.regs _ _ hreg htap).extends hext
    · rw [hs.workers_ne hvw] at htev ⊢
      exact (h.events v tev htev htap).extends hext
  · rcases eq_or_ne v w with rfl | hvw
    · rcases hown.tap tev rest p hpc hp with ht | ⟨rest', p', hpc', hp'⟩
      · exact ht
      · exact h.tap v tev rest' p' hpc' hp'
    · rw [hs.workers_ne hvw] at hpc
      exact h.tap v tev rest p hpc hp

/-- A tunnel starts with its devices complete. -/
theorem devInv_created {env : CreateEnv E} {params : TunnelParams}
    (h : tunnelCreate ops env params = .created s) : DevInv s := by
  obtain ⟨hworkers, -, t, hbare, hcase⟩ := tunnelCreate_created h
  have hudp : ∀ q, ∀ r ∈ udpEpoll t.udpFds q, r.data.isTap = false := by
    intro q r hr
    unfold udpEpoll at hr
    cases hfd : t.udpFds[q]? with
    | none => simp [hfd] at hr
    | some fd =>
      rw [hfd] at hr
      obtain rfl := List.mem_singleton.1 hr
      rfl
  have hpc : ∀ w, (s.workers w).pc = .start := fun w => by rw [hworkers]
  have hidle : (∀ w, (s.workers w).pc ≠ .start → (s.workers w).queueId < s.tunnel.numQueues) ∧
      (∀ w, ∀ tev ∈ (s.workers w).pc.events, tev.isTap = true →
        ValidEvent s.tunnel (s.workers w).queueId tev) ∧
      ∀ w tev rest p, (s.workers w).pc = .handle tev rest p → p.Tap → tev.isTap = true := by
    refine ⟨fun w hw => absurd (hpc w) hw, fun w tev hw => ?_, fun w tev rest p hw => ?_⟩
    · rw [hpc w] at hw
      cases hw
    · rw [hpc w] at hw
      cases hw
  rcases hcase with ⟨-, -, rfl, hepoll⟩ | ⟨e, hdef⟩
  · have hnone : ∀ i : ℕ, ¬ i < s.tunnel.numTapDevs := fun i hi => by
      rw [hbare.numTapDevs] at hi
      omega
    refine ⟨by rw [hbare.numTapDevs]; exact Nat.zero_le _, fun i hi => absurd hi (hnone i),
      fun i hi => absurd hi (hnone i), hidle.1, fun q r hr htap => ?_, hidle.2.1, hidle.2.2⟩
    rw [hepoll] at hr
    rw [hudp q r hr] at htap
    cases htap
  · obtain ⟨map, -, hnew⟩ := hdef.add
    obtain ⟨fds, hfds, hepoll⟩ := hnew.fds
    have hnum : s.tunnel.numTapDevs = 0 + 1 := hnew.numTapDevs.trans (by rw [hbare.numTapDevs])
    have hzero : ∀ i : ℕ, i < s.tunnel.numTapDevs → i = 0 := fun i hi => by omega
    refine ⟨hnew.ext.size, fun i hi q hq => ?_, fun i hi => ?_, hidle.1, fun q r hr htap => ?_,
      hidle.2.1, hidle.2.2⟩
    · obtain rfl := hzero i hi
      rw [hnew.ext.numQueues] at hq
      exact ⟨fds q, hfds q hq⟩
    · obtain rfl := hzero i hi
      rw [hnew.ext.numQueues]
      exact hnew.statsSize
    · rw [hepoll q] at hr
      rcases List.mem_append.1 hr with hr | hr
      · rw [hudp q r hr] at htap
        cases htap
      · split_ifs at hr with hq
        · obtain rfl := List.mem_singleton.1 hr
          exact ⟨0, rfl, by omega, hfds q hq⟩
        · cases hr

/-- A worker that admits one endpoint, in calls that all succeed. -/
theorem cleanAlloc_of_admits {M E : Type} {s : Sys M} {wa : ℕ × Action E} {env : E} {src : Endpoint}
    {fds : ℕ → Fd} {fd : Fd} (h : wa.2 ∈ wakeActions E ++ admitActions env src fds fd)
    (hsmall : s.tunnel.numTapDevs < 2 ^ 30) : CleanAlloc s wa := by
  intro alloc hact
  rw [hact] at h
  obtain rfl : alloc = quietAlloc fds := by simpa [wakeActions, admitActions] using h
  exact ⟨.inr (.inr (.inl fun _ _ => ⟨rfl, rfl⟩)), hsmall⟩

end UdpEthTunnel
