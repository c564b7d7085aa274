/-
# From the table to the finite map

The tunnel uses a hash table for its endpoint map.  What is proved of tunnels with a finite
map holds of it, as long as every call of `endpoint_map_add` is exact: it adds what it is
asked to add and nothing else (`simulates_finite`).  So every such run is a run of a tunnel
with a finite map, with the same calls (`runs_finite`), and of the hub (`table_refines_hub`).
-/

import UdpEthTunnel.Tunnel.CurrentMap
import UdpEthTunnel.Tunnel.Hub

namespace UdpEthTunnel

open Tunnel Runs

section Seen

variable {M N E : Type}

/-- The tunnel with another map. -/
def Tunnel.withMap (t : Tunnel M) (m : N) : Tunnel N :=
  { queueIds := t.queueIds, numQueues := t.numQueues, numTapDevs := t.numTapDevs, map := m,
    allowedAddrList := t.allowedAddrList, tapDevs := t.tapDevs, udpFds := t.udpFds,
    epollFds := t.epollFds, mtu := t.mtu }

/-- The process, with the map as what it answers. -/
def Sys.seen (look : M → Endpoint → Option ℕ) (s : Sys M) : MapSys :=
  { tunnel := s.tunnel.withMap (look s.tunnel.map), epoll := s.epoll, workers := s.workers,
    crash := s.crash }

/-- The call, whatever the map needs of the C library. -/
def Action.plain : Action E → Action Unit
  | .start => .start
  | .epollWait r => .epollWait r
  | .rdlock => .rdlock
  | .wrlock => .wrlock
  | .unlock => .unlock
  | .read id fd r => .read id fd r
  | .sendto frame dst r now => .sendto frame dst r now
  | .recvfrom r => .recvfrom r
  | .lookup _ => .lookup ()
  | .allocNewTap env => .allocNewTap env
  | .mapAdd _ => .mapAdd ()
  | .write fd bytes r now => .write fd bytes r now
  | .rearm ok => .rearm ok

/-- A step that, if it adds to the map, adds what it is asked to add and nothing else. -/
def Exact (ops : MapOps M E) (Good : M → Prop) (look : M → Endpoint → Option ℕ) (s : Sys M)
    (wa : ℕ × Action E) : Prop :=
  ∀ env id (d : Datagram) m, wa.2 = .mapAdd env → (s.workers wa.1).pc.point = some (.add id d) →
    ops.add env s.tunnel.map d.src id = .ret m →
      Good m ∧ look m = Function.update (look s.tunnel.map) d.src (some id)

/-- A map that does not crash. -/
def Safe (ops : MapOps M E) (Good : M → Prop) : Prop :=
  ∀ env m e id, Good m → ops.lookup env m e ≠ .crash ∧ ops.add env m e id ≠ .crash

end Seen

/-! ### Steps -/

section Complete

variable {s s' : MapSys} {w : ℕ} {a : Action Unit}

/-- **What a step can do, it does**: the other direction of `Step.stepOf`. -/
theorem StepOf.step (hcrash : s.crash = none) (hw : w < s.tunnel.numQueues)
    (hs : StepOf finiteMapOps s w a s') : Step finiteMapOps s (w, a) s' := by
  have hguard : ¬ (s.crash.isSome ∨ s.tunnel.numQueues ≤ w) := by simp [hcrash, hw]
  have hhandle : ∀ {tev rest p} {a : Action Unit} {s' : MapSys}, (s.workers w).pc = .handle tev rest p →
      handleEvent finiteMapOps s w tev rest p a = some s' → Step finiteMapOps s (w, a) s' := by
    intro tev rest p a s' hpc h
    show workerThread finiteMapOps s w a = some s'
    unfold workerThread
    rw [if_neg hguard, hpc]
    exact h
  cases hs with
  | start hpc | epollFail hpc | scopeEnd hpc =>
    show workerThread finiteMapOps s w _ = some _
    unfold workerThread
    rw [if_neg hguard, hpc]
  | epollWait batch hpc hbatch =>
    show workerThread finiteMapOps s w _ = some _
    unfold workerThread
    rw [if_neg hguard, hpc]
    exact if_pos hbatch
  | rdlockBatch batch hpc hlock =>
    show workerThread finiteMapOps s w _ = some _
    unfold workerThread
    rw [if_neg hguard, hpc]
    exact if_pos hlock
  | read tev rest fd r hpc hfd =>
    refine hhandle hpc ((if_pos ⟨rfl, hfd⟩).trans ?_)
    cases r <;> rfl
  | sendto tev rest frame dst r now hpc hdst => exact hhandle hpc (if_pos ⟨rfl, hdst⟩)
  | recvfrom tev rest r hpc => exact hhandle hpc rfl
  | lookup tev rest d env tapId hpc hlookup =>
    injection hlookup with hlookup
    exact hhandle hpc (by rw [← hlookup]; rfl)
  | unlockMiss tev rest d hpc => exact hhandle hpc rfl
  | wrlock tev rest d hpc hlock => exact hhandle hpc (if_pos hlock)
  | relookup tev rest d env tapId hpc hlookup =>
    injection hlookup with hlookup
    exact hhandle hpc (by rw [← hlookup]; rfl)
  | unlockHit tev rest id d hpc => exact hhandle hpc rfl
  | rdlockHit tev rest id d hpc hlock => exact hhandle hpc (if_pos hlock)
  | allocFail tev rest d env t epoll hpc halloc =>
    refine hhandle hpc ?_
    unfold handleEvent
    dsimp only
    rw [halloc]
  | alloc tev rest d env id t epoll hpc halloc =>
    refine hhandle hpc ?_
    unfold handleEvent
    dsimp only
    rw [halloc]
  | add tev rest id d env map hpc hadd =>
    injection hadd with hadd
    exact hhandle hpc (by rw [← hadd]; rfl)
  | write tev rest id d fd r now hpc hfd => exact hhandle hpc (if_pos ⟨rfl, hfd⟩)
  | rearm tev rest hpc => exact hhandle hpc rfl
  | rearmFail tev rest hpc => exact hhandle hpc rfl
  | dieInMap tev rest p a hpc ha =>
    rcases ha with ⟨env, e, -, hret⟩ | ⟨env, e, id, -, hret⟩ <;> cases hret
  | dieInAlloc tev rest d env c hpc halloc =>
    refine hhandle hpc ?_
    unfold handleEvent
    dsimp only
    rw [halloc]

end Complete

section Commute

variable {M N E : Type} {t : Tunnel M} (m : N)

theorem updateStats_withMap (t : Tunnel M) (id : Int) (q : ℕ) (f : TunnelStats → TunnelStats) :
    (t.withMap m).updateStats id q f = (t.updateStats id q f).map (·.withMap m) := by
  unfold Tunnel.updateStats
  have hdev : (t.withMap m).dev id = t.dev id := by cases id <;> rfl
  rw [hdev]
  cases t.dev id with
  | none => rfl
  | some d =>
    simp only [Option.bind_some]
    cases d.stats with
    | none => rfl
    | some stats =>
      simp only [Option.bind_some, Option.map_map]
      rfl

/-- The statistics do not touch the map. -/
theorem account_seen_eq {look : M → Endpoint → Option ℕ} (s : Sys M) (w : ℕ) (id : Int)
    (f : TunnelStats → TunnelStats) (pc : Pc) :
    (s.account w id f pc).seen look = (s.seen look).account w id f pc := by
  unfold Sys.account
  have htunnel : (s.seen look).tunnel = s.tunnel.withMap (look s.tunnel.map) := rfl
  have hworkers : (s.seen look).workers = s.workers := rfl
  rw [htunnel, hworkers, updateStats_withMap]
  cases hu : s.tunnel.updateStats id (s.workers w).queueId f with
  | none => rfl
  | some t =>
    show Sys.seen look ((s.setTunnel t).goto w pc) = _
    unfold Sys.seen
    rw [Sys.tunnel_goto, Sys.tunnel_setTunnel, (sameDevs_updateStats hu).map]
    rfl

/-- How a call of `tunnel_alloc_new_tap` ends, with another map. -/
def AllocTapOutcome.withMap : AllocTapOutcome M → AllocTapOutcome N
  | .crash c => .crash c
  | .ret id t epoll => .ret id (t.withMap m) epoll

theorem growTapDevs_withMap (env : AllocTapEnv) (t : Tunnel M) :
    growTapDevs env (t.withMap m) = (growTapDevs env t).map (·.withMap m) := by
  unfold growTapDevs
  show (if t.numTapDevs ≥ t.tapDevsAllocated then _ else _) = _
  split_ifs
  · rw [Option.map_map]
    rfl
  · rfl

/-- `tunnel_alloc_new_tap` does not touch the map. -/
theorem tunnelAllocNewTap_withMap (env : AllocTapEnv) (t : Tunnel M) (epoll : EpollSets)
    (e : Endpoint) :
    tunnelAllocNewTap env (t.withMap m) epoll e = (tunnelAllocNewTap env t epoll e).withMap m := by
  unfold tunnelAllocNewTap
  rw [growTapDevs_withMap]
  cases growTapDevs env t with
  | none => rfl
  | some t =>
    simp only [Option.map_some]
    by_cases hport : e.port = 0
    · simp only [if_pos hport]
      rfl
    · simp only [if_neg hport]
      cases env.mallocFds with
      | false => rfl
      | true =>
        cases env.createFds with
        | none => rfl
        | some fds =>
          dsimp only [Tunnel.withMap]
          rcases registerTapFds env t.numTapDevs 0 epoll ((List.range t.numQueues).map fds) with
            ⟨epoll', _ | _⟩
          · rfl
          · cases env.mallocStats <;> rfl

end Commute

section Steps

variable {M E : Type} {ops : MapOps M E} {Good : M → Prop} {look : M → Endpoint → Option ℕ}
  {s s' : Sys M} {w : ℕ} {a : Action E}

/-- A lookup is as good as one in the finite map: of a number below 0 only the sign matters. -/
theorem afterLookup_seen {found : Option ℕ} {tapId : Int}
    (h : found = if 0 ≤ tapId then some tapId.toNat else none) (allowed : Bool) (d : Datagram) :
    afterLookup allowed (found.elim (-1) fun i => i) d = afterLookup allowed tapId d ∧
      afterRelookup (found.elim (-1) fun i => i) d = afterRelookup tapId d := by
  rw [h]
  split_ifs with h₀
  · rw [Option.elim_some, Int.toNat_of_nonneg h₀]
    exact ⟨rfl, rfl⟩
  · have hlt : tapId < 0 := by omega
    exact ⟨by simp [afterLookup, hlt], by simp [afterRelookup, not_le.2 hlt]⟩

theorem map_account (s : Sys M) (w : ℕ) (id : Int) (f : TunnelStats → TunnelStats) (pc : Pc) :
    (s.account w id f pc).tunnel.map = s.tunnel.map := by
  rcases s.account_cases w id f pc with he | ⟨t, ht, he⟩ <;> rw [he]
  · rfl
  · exact ht.map

/-- **A step with the table is a step with the finite map.** -/
theorem stepOf_seen (hans : Answers ops Good look) (hsafe : Safe ops Good) (hgood : Good s.tunnel.map)
    (hle : s.tunnel.numTapDevs ≤ s.tunnel.tapDevs.length)
    (hexact : Exact ops Good look s (w, a)) (hs : StepOf ops s w a s') :
    StepOf finiteMapOps (s.seen look) w a.plain (s'.seen look) ∧ Good s'.tunnel.map := by
  cases hs with
  | start hpc => exact ⟨.start hpc, hgood⟩
  | epollFail hpc => exact ⟨.epollFail hpc, hgood⟩
  | epollWait batch hpc hbatch => exact ⟨.epollWait batch hpc hbatch, hgood⟩
  | rdlockBatch batch hpc hlock => exact ⟨.rdlockBatch batch hpc hlock, hgood⟩
  | scopeEnd hpc => exact ⟨.scopeEnd hpc, hgood⟩
  | read tev rest fd r hpc hfd => exact ⟨.read tev rest fd r hpc hfd, hgood⟩
  | sendto tev rest frame dst r now hpc hdst =>
    refine ⟨?_, ?_⟩
    · rw [account_seen_eq]
      exact .sendto tev rest frame dst r now hpc hdst
    · rwa [map_account]
  | recvfrom tev rest r hpc => exact ⟨.recvfrom tev rest r hpc, hgood⟩
  | lookup tev rest d env tapId hpc hlookup =>
    refine ⟨?_, hgood⟩
    have hfound : (s.seen look).tunnel.map d.src = if 0 ≤ tapId then some tapId.toNat else none :=
      hans env _ d.src tapId hgood hlookup
    have hstep : StepOf finiteMapOps (s.seen look) w (.lookup ()) _ := .lookup tev rest d () _ hpc rfl
    rwa [(afterLookup_seen hfound _ d).1] at hstep
  | unlockMiss tev rest d hpc => exact ⟨.unlockMiss tev rest d hpc, hgood⟩
  | wrlock tev rest d hpc hlock => exact ⟨.wrlock tev rest d hpc hlock, hgood⟩
  | relookup tev rest d env tapId hpc hlookup =>
    refine ⟨?_, hgood⟩
    have hfound : (s.seen look).tunnel.map d.src = if 0 ≤ tapId then some tapId.toNat else none :=
      hans env _ d.src tapId hgood hlookup
    have hstep : StepOf finiteMapOps (s.seen look) w (.lookup ()) _ := .relookup tev rest d () _ hpc rfl
    rwa [(afterLookup_seen hfound true d).2] at hstep
  | unlockHit tev rest id d hpc => exact ⟨.unlockHit tev rest id d hpc, hgood⟩
  | rdlockHit tev rest id d hpc hlock => exact ⟨.rdlockHit tev rest id d hpc hlock, hgood⟩
  | allocFail tev rest d env t epoll hpc halloc =>
    have hmap : t.map = s.tunnel.map := (allocNewTap_none hle halloc).2.1
    refine ⟨?_, hmap ▸ hgood⟩
    have hseen := tunnelAllocNewTap_withMap (look t.map) env s.tunnel s.epoll d.src
    rw [halloc] at hseen
    exact .allocFail tev rest d env (t.withMap (look t.map)) epoll hpc (hmap ▸ hseen)
  | alloc tev rest d env id t epoll hpc halloc =>
    have hmap : t.map = s.tunnel.map := (allocNewTap_some hle halloc).map
    refine ⟨?_, hmap ▸ hgood⟩
    have hseen := tunnelAllocNewTap_withMap (look t.map) env s.tunnel s.epoll d.src
    rw [halloc] at hseen
    exact .alloc tev rest d env id (t.withMap (look t.map)) epoll hpc (hmap ▸ hseen)
  | add tev rest id d env map hpc hadd =>
    obtain ⟨hgood', hlook⟩ := hexact env id d map rfl (by rw [hpc]; rfl) hadd
    refine ⟨?_, hgood'⟩
    exact .add tev rest id d () (look map) hpc (by rw [hlook]; rfl)
  | write tev rest id d fd r now hpc hfd =>
    refine ⟨?_, ?_⟩
    · rw [account_seen_eq]
      exact .write tev rest id d fd r now hpc hfd
    · rwa [map_account]
  | rearm tev rest hpc => exact ⟨.rearm tev rest hpc, hgood⟩
  | rearmFail tev rest hpc => exact ⟨.rearmFail tev rest hpc, hgood⟩
  | dieInMap tev rest p a hpc ha =>
    rcases ha with ⟨env, e, -, hret⟩ | ⟨env, e, id, -, hret⟩
    · exact absurd hret (hsafe env _ e 0 hgood).1
    · exact absurd hret (hsafe env _ e id hgood).2
  | dieInAlloc tev rest d env c hpc halloc =>
    refine ⟨?_, hgood⟩
    have hseen := tunnelAllocNewTap_withMap (look s.tunnel.map) env s.tunnel s.epoll d.src
    rw [halloc] at hseen
    exact .dieInAlloc tev rest d env c hpc hseen

/-- **The tunnel simulates the one with a finite map.** -/
theorem simulates_finite (hans : Answers ops Good look) (hsafe : Safe ops Good) :
    Simulates (Step ops) (Step finiteMapOps) (Sys.seen look) (fun e => some (e.act.1, e.act.2.plain))
      (fun s => Good s.tunnel.map ∧ s.tunnel.numTapDevs ≤ s.tunnel.tapDevs.length)
      (Exact ops Good look) where
  keeps := fun s wa s' hs hexact hstep => by
    obtain ⟨-, -, hof⟩ := hstep.stepOf
    exact ⟨(stepOf_seen hans hsafe hs.1 hs.2 hexact hof).2, (hof.extends hs.2).size⟩
  seen := fun s wa s' b hs hexact hstep hb => by
    obtain rfl := Option.some.inj hb
    obtain ⟨hcrash, hw, hof⟩ := hstep.stepOf
    exact (stepOf_seen hans hsafe hs.1 hs.2 hexact hof).1.step hcrash hw
  silent := fun s wa s' _ _ _ hnone => by cases hnone

end Steps

/-! ### The hash table -/

section Heap

/-- A call of `endpoint_map_add` that adds the endpoint where the table is, and nothing else:
memory that `realloc` appends in place is read as entries of the table, and says nothing
new. -/
def ExactAdd (env : HeapEnv) (m : EndpointMap) (e : Endpoint) (id : ℕ) : Prop :=
  if m.numEntries < m.allocEntries then
    (tryInsert m e id).isSome = true ∨ env.add.malloc = true
  else
    env.add.malloc = true ∧ ∃ tail, env.add.realloc = .inPlace tail ∧
      ∀ k v, m.appended tail k = some v → v.toInt = endpointMapLookup m k

/-- A step that, if it adds to a live table, is exact, with a tap id that fits its field. -/
def ExactAdds (s : Sys MapHeap) (wa : ℕ × Action HeapEnv) : Prop :=
  ∀ env m id d, wa.2 = .mapAdd env → s.tunnel.map.live = some m →
    (s.workers wa.1).pc.point = some (.add id d) →
      s.tunnel.numTapDevs ≤ 2 ^ 30 ∧ ExactAdd env m d.src id

variable {h h' : MapHeap} {m : EndpointMap} {env : HeapEnv} {e : Endpoint} {id : ℕ}

theorem heapLook_eq (hm : h.live = some m) (e : Endpoint) :
    heapLook h e = if 0 ≤ endpointMapLookup m e then some (endpointMapLookup m e).toNat else none := by
  unfold heapLook
  rw [hm, Option.bind_some]

/-- A table that answers as another but for one endpoint. -/
theorem heapLook_update {m' : EndpointMap} (hm : h.live = some m) (hm' : h'.live = some m')
    (hlook : ∀ k, endpointMapLookup m' k = if k = e then (id : Int) else endpointMapLookup m k) :
    heapLook h' = Function.update (heapLook h) e (some id) := by
  funext k
  rw [Function.update_apply, heapLook_eq hm', heapLook_eq hm, hlook k]
  by_cases hk : k = e
  · rw [if_pos hk, if_pos hk, if_pos (Int.natCast_nonneg id), Int.toNat_natCast]
  · rw [if_neg hk, if_neg hk]

/-- **An exact call adds to the table where it is.** -/
theorem ExactAdd.adds (hs : ExactAdd env m e id) (hid : id < 2 ^ 30) (hcur : HeapCurrent h)
    (hm : h.live = some m) (hadd : heapOps.add env h e id = .ret h') :
    HeapCurrent h' ∧ heapLook h' = Function.update (heapLook h) e (some id) := by
  obtain ⟨hret, m₁, hm₁, hwf⟩ := hcur
  obtain rfl : m = m₁ := Option.some.inj (hm.symm.trans hm₁)
  obtain ⟨q, hadd⟩ := heapOps_add hadd
  obtain ⟨p, out, hmap, hp, hout, hx⟩ := heapAdd_of_live hm hadd
  have h₀ : (0 : Int) ≤ id := Int.natCast_nonneg id
  have hlt : (id : Int) < 2 ^ 30 := by omega
  have hkept : ∃ m', out = .kept m' ∧ m'.WellFormed ∧
      ∀ k, endpointMapLookup m' k = if k = e then (id : Int) else endpointMapLookup m k := by
    unfold ExactAdd at hs
    split_ifs at hs with hroom
    · obtain ⟨m', hret'⟩ := EndpointMap.ret_of_room hroom hs hout
      exact ⟨m', EndpointMap.kept_of_room hroom hout hret', hwf.add_room hroom h₀ hlt hout hret'⟩
    · obtain ⟨hmalloc, tail, hrealloc, htail⟩ := hs
      have hfull := Nat.le_of_not_lt hroom
      obtain ⟨m', rfl⟩ := EndpointMap.kept_of_inPlace hfull hrealloc hmalloc hout
      obtain ⟨hwf', tail', hcase, hlook⟩ := hwf.add_full hfull h₀ hlt hout rfl
      obtain rfl : tail = tail' := by
        rcases hcase with ⟨hr, -⟩ | ⟨-, hr⟩
        · rw [hrealloc] at hr
          injection hr
        · cases hr
      refine ⟨m', rfl, hwf', fun k => ?_⟩
      rw [hlook]
      cases happ : m.appended tail k with
      | none => rfl
      | some v =>
        rw [Option.map_some, Option.getD_some, htail k v happ]
  obtain ⟨m', rfl, hwf', hlook⟩ := hkept
  obtain rfl : h' = (h.afterAdd p (.kept m')).2 := congrArg Prod.snd hx
  have hlive : (h.afterAdd p (.kept m')).2.live = some m' :=
    MapHeap.live_eq_some.2 ⟨p, hmap, MapHeap.table_afterAdd hp _⟩
  exact ⟨⟨hmap, m', hlive, hwf'⟩, heapLook_update hm hlive hlook⟩

theorem safe_heapOps : Safe heapOps HeapCurrent := by
  rintro env h e id ⟨-, m, hm, -⟩
  refine ⟨by rw [heapLookup_of_live hm]; nofun, fun hadd => ?_⟩
  obtain ⟨p, hmap, hp⟩ := MapHeap.live_eq_some.1 hm
  simp only [heapOps, heapAdd, hmap, hp] at hadd
  cases hout : endpointMapAdd env.add env.passes m e id with
  | none =>
    rw [hout] at hadd
    cases hadd
  | some out =>
    rw [hout] at hadd
    cases hadd

/-! ### Starting -/

/-- What the world does, whatever the map needs of the C library. -/
def CreateEnv.plain {E : Type} (env : CreateEnv E) : CreateEnv Unit :=
  { malloc := env.malloc, nprocs := env.nprocs, callocUdpFds := env.callocUdpFds,
    udpSocks := env.udpSocks, callocEpollFds := env.callocEpollFds, epollCreate := env.epollCreate,
    nonblocking := env.nonblocking, epollAdd := env.epollAdd, cidrList := env.cidrList, mapCreate := (),
    lookupHost := env.lookupHost, mapAdd := (), alloc := env.alloc, mallocWorkers := env.mallocWorkers,
    pthreadCreate := env.pthreadCreate }

/-- A new table knows nobody. -/
theorem heapLook_create {env : HeapEnv} (hcalloc : env.calloc = true) :
    heapLook (heapOps.create env) = fun _ => none := by
  rcases heapCreate_cases env with ⟨hfalse, -⟩ | ⟨m, hm, -, hlive, -⟩
  · rw [hcalloc] at hfalse
    cases hfalse
  · funext e
    rw [heapLook_eq hlive]
    refine if_neg fun h₀ => ?_
    obtain ⟨x, hx, hp, -⟩ := EndpointMap.lookup_mem (m := m) (e := e) (by omega)
    exact EndpointMap.entriesIn_create (P := fun _ _ => False) hm x hx hp

variable {cenv : CreateEnv HeapEnv} {params : TunnelParams} {s₀ : Sys MapHeap}

/-- The default endpoint is told to the finite map as it is to the table. -/
theorem createDefaultTap_seen (hcalloc : cenv.mapCreate.calloc = true) {t t' : Tunnel MapHeap}
    {epoll epoll' : EpollSets} (ht : t.map = heapOps.create cenv.mapCreate)
    (hle : t.numTapDevs ≤ t.tapDevs.length)
    (h : createDefaultTap heapOps cenv params t epoll = .created (t', epoll')) :
    createDefaultTap finiteMapOps cenv.plain params (t.withMap (heapLook t.map)) epoll =
        .created (t'.withMap (heapLook t'.map), epoll') := by
  have hnone := heapLook_create hcalloc
  unfold createDefaultTap at h ⊢
  split at h
  case h_1 hhost =>
    obtain ⟨rfl, rfl⟩ := Prod.mk.inj (CreateOutcome.pure_eq_created.1 h)
    rfl
  case h_2 host hhost =>
    simp only [CreateOutcome.bind_eq_created, CreateOutcome.ofOption_eq_created,
      CreateOutcome.ofMapCall_eq_created] at h
    obtain ⟨addr, haddr, _, hadd, map, rfl, hret⟩ := h
    rw [ht] at hadd
    obtain ⟨m, m', hm, hroom, hout, -, hlive⟩ := heapAddAssign_create hadd
    obtain ⟨-, hlook⟩ := (EndpointMap.wellFormed_create hm).add_room hroom (by omega) (by omega) hout rfl
    have hcreated : (heapOps.create cenv.mapCreate).live = some m := by
      rcases heapCreate_cases cenv.mapCreate with ⟨hfalse, -⟩ | ⟨m₁, hm₁, -, hlive₁, -⟩
      · rw [hcalloc] at hfalse
        cases hfalse
      · rwa [Option.some.inj (hm.symm.trans hm₁)]
    have hmap : heapLook map = Function.update (heapLook t.map) ⟨addr, params.remotePort⟩ (some 0) := by
      rw [ht]
      exact heapLook_update hcreated hlive hlook
    split at hret
    · cases hret
    · cases hret
    case h_3 id t₁ epoll₁ halloc =>
      obtain ⟨rfl, rfl⟩ := Prod.mk.inj (CreateOutcome.pure_eq_created.1 hret)
      have hkeep : t₁.map = map := (allocNewTap_some (t := { t with map := map }) hle halloc).map
      simp only [CreateOutcome.bind_eq_created, CreateOutcome.ofOption_eq_created,
        CreateOutcome.ofMapCall_eq_created]
      refine ⟨addr, haddr, _, rfl, _, rfl, ?_⟩
      have hseen := tunnelAllocNewTap_withMap (heapLook map) cenv.alloc { t with map := map } epoll
        ⟨addr, params.remotePort⟩
      rw [halloc, hmap] at hseen
      rw [hkeep, hmap]
      have hcall : tunnelAllocNewTap cenv.plain.alloc { t.withMap (heapLook t.map) with
          map := Function.update (heapLook t.map) ⟨addr, params.remotePort⟩ (some 0) } epoll
          ⟨addr, params.remotePort⟩ = .ret (some id) (t₁.withMap (Function.update (heapLook t.map)
            ⟨addr, params.remotePort⟩ (some 0))) epoll₁ := hseen
      simp only [Tunnel.withMap] at hcall ⊢
      rw [hcall]
      rfl

/-- **A tunnel that is created with a table is created with a finite map.** -/
theorem tunnelCreate_seen (hcalloc : cenv.mapCreate.calloc = true)
    (h : tunnelCreate heapOps cenv params = .created s₀) :
    tunnelCreate finiteMapOps cenv.plain params = .created (s₀.seen heapLook) := by
  unfold tunnelCreate at h ⊢
  simp only [CreateOutcome.bind_eq_created, CreateOutcome.check_eq_created,
    CreateOutcome.readStr_eq_created, CreateOutcome.ofOption_eq_created,
    CreateOutcome.pure_eq_created] at h ⊢
  obtain ⟨_, hmalloc, _, hname, _, hcount, _, hiface, fds, hfds, epollFds, hepoll, _, hhosts,
    allowed, hallowed, ⟨t, epoll⟩, hdef, _, hstart, rfl⟩ := h
  have hseen := createDefaultTap_seen hcalloc rfl (Nat.zero_le _) hdef
  have hnone := heapLook_create hcalloc
  simp only [Tunnel.withMap, hnone] at hseen
  exact ⟨(), hmalloc, (), hname, (), hcount, (), hiface, fds, hfds, epollFds, hepoll, (), hhosts,
    allowed, hallowed, _, hseen, (), hstart, rfl⟩

/-- An exact addition to the table is one to the finite map. -/
theorem exact_of_exactAdds {s : Sys MapHeap} {wa : ℕ × Action HeapEnv}
    (hinv : AgreeInv HeapCurrent heapLook s) (h : ExactAdds s wa) :
    Exact heapOps HeapCurrent heapLook s wa := by
  intro env id d h' hact hpc hadd
  have hgood := hinv.good
  obtain ⟨m, hm, -⟩ := hgood.2
  obtain ⟨hnum, hexact⟩ := h env m id d hact hm hpc
  have hid : id + 1 = s.tunnel.numTapDevs := by
    have hasserts := hinv.asserts wa.1
    cases hp : (s.workers wa.1).pc with
    | handle tev rest p =>
      rw [hp] at hpc hasserts
      obtain rfl := Option.some.inj hpc
      exact hasserts.1
    | _ =>
      rw [hp] at hpc
      cases hpc
  exact hexact.adds (by omega) hgood hm hadd

theorem agreeInv_step {s s' : Sys MapHeap} {wa : ℕ × Action HeapEnv}
    (hinv : AgreeInv HeapCurrent heapLook s) (h : ExactAdds s wa) (hstep : Step heapOps s wa s') :
    AgreeInv HeapCurrent heapLook s' := by
  obtain ⟨w, a⟩ := wa
  refine hinv.step answers_heapOps hstep fun env id d h' hact hpc _ hret => ?_
  obtain ⟨hgood, hlook⟩ := exact_of_exactAdds hinv h env id d h' hact hpc hret
  refine ⟨hgood, by rw [hlook, Function.update_self], fun k i hk hki => ?_⟩
  rw [hlook, Function.update_of_ne hk]
  exact hki

/-- The tunnel with its table simulates the one with a finite map. -/
theorem simulates_table : Simulates (Step heapOps) (Step finiteMapOps) (Sys.seen heapLook)
    (fun e => some (e.act.1, e.act.2.plain)) (AgreeInv HeapCurrent heapLook) ExactAdds where
  keeps _ _ _ hs hexact hstep := agreeInv_step hs hexact hstep
  seen s wa s' b hs hexact hstep hb := (simulates_finite answers_heapOps safe_heapOps).seen s wa s' b
    ⟨hs.good, hs.size⟩ (exact_of_exactAdds hs hexact) hstep hb
  silent _ _ _ _ _ _ hnone := by cases hnone

/-- Memory that is zeroed says nothing. -/
theorem exactAdd_zeroed (m : EndpointMap) (e : Endpoint) (id : ℕ) :
    ExactAdd (heapEnv (.inPlace fun _ => {})) m e id := by
  unfold ExactAdd
  split_ifs
  · exact .inr rfl
  · refine ⟨rfl, _, rfl, fun k v hv => ?_⟩
    rw [EndpointMap.appended_blank] at hv
    cases hv

end Heap

/-- **A tunnel with its table runs as one with a finite map**, as long as every call of
`endpoint_map_add` is exact: with the same calls, to the same devices, descriptors and
workers.  So what is proved of tunnels with a finite map holds of every such run of the
real one. -/
theorem runs_finite (env : CreateEnv HeapEnv) (params : TunnelParams) (s₀ s : Sys MapHeap)
    (tr : Trace MapHeap HeapEnv) (hcalloc : env.mapCreate.calloc = true)
    (hcreate : tunnelCreate heapOps env params = .created s₀) (hrun : Run (Step heapOps) s₀ tr s)
    (hexact : ∀ e ∈ tr, ExactAdds e.pre e.act) :
    tunnelCreate finiteMapOps env.plain params = .created (s₀.seen heapLook) ∧
      ∃ tr', Run (Step finiteMapOps) (s₀.seen heapLook) tr' (s.seen heapLook) ∧
        tr'.map (·.act) = tr.map fun e => (e.act.1, e.act.2.plain) := by
  have hagree := agreeInv_heap hcalloc hcreate (.nil s₀) fun _ he => absurd he List.not_mem_nil
  obtain ⟨tr', hrun', hacts⟩ := simulates_table.run hrun hexact hagree
  refine ⟨tunnelCreate_seen hcalloc hcreate, tr', hrun', hacts.trans ?_⟩
  rw [List.filterMap_eq_map']

/-- A table that has grown by zeroed memory. -/
theorem runs_finite_grown : ∃ s₀ s tr tr',
    tunnelCreate heapOps (openEnv (heapEnv (.inPlace fun _ => {}))) (openParams 2) = .created s₀ ∧
    Run (Step heapOps) s₀ tr s ∧ s.tunnel.numTapDevs = 33 ∧
    Run (Step finiteMapOps) (s₀.seen heapLook) tr' (s.seen heapLook) ∧
    tr'.map (·.act) = tr.map fun e => (e.act.1, e.act.2.plain) := by
  obtain ⟨s₀, s, tr, hcreate, hrun, hnum, htr⟩ := exists_peerRun
  obtain ⟨-, tr', hrun', hacts⟩ := runs_finite _ _ s₀ s tr rfl hcreate hrun fun e he env m id d hact _ _ => by
    obtain ⟨hle, hadd⟩ := htr e he
    rw [hadd env hact]
    exact ⟨by omega, exactAdd_zeroed m d.src id⟩
  exact ⟨s₀, s, tr, tr', hcreate, hrun, hnum, hrun', hacts⟩

section Hub

variable {s : Sys MapHeap} {wa : ℕ × Action HeapEnv}

/-- The hub sees no map. -/
theorem hubAction_seen (e : Event (Sys MapHeap) (ℕ × Action HeapEnv)) :
    hubAction ⟨e.pre.seen heapLook, (e.act.1, e.act.2.plain), e.post.seen heapLook⟩ = hubAction e := by
  obtain ⟨u, ⟨w, a⟩, v⟩ := e
  cases a with
  | read id fd r => cases r <;> rfl
  | recvfrom r => cases r <;> rfl
  | _ => rfl

theorem CleanAlloc.seen (h : CleanAlloc s wa) : CleanAlloc (s.seen heapLook) (wa.1, wa.2.plain) := by
  intro env henv
  have hact : wa.2 = .allocNewTap env := by
    cases ha : wa.2 with
    | allocNewTap env' =>
      rw [ha] at henv
      injection henv with henv
      rw [henv]
    | _ =>
      rw [ha] at henv
      cases henv
  obtain ⟨hclean, hnum⟩ := h env hact
  refine ⟨hclean.imp_left fun hgrow => ?_, hnum⟩
  have hsame := growTapDevs_withMap (heapLook s.tunnel.map) env s.tunnel
  rw [hgrow] at hsame
  exact hsame

end Hub

/-- **The tunnel with its table is a hub**, in every run, in every interleaving, in which every
call of `endpoint_map_add` is exact and no call of `tunnel_alloc_new_tap` fails after it has
registered a descriptor.  The table takes the place of the finite map (`runs_finite`), and the
finite map that of the ports (`refines_hub`); neither is seen from outside. -/
theorem table_refines_hub (env : CreateEnv HeapEnv) (params : TunnelParams) (s₀ s : Sys MapHeap)
    (tr : Trace MapHeap HeapEnv) (hcalloc : env.mapCreate.calloc = true)
    (hcreate : tunnelCreate heapOps env params = .created s₀) (hrun : Run (Step heapOps) s₀ tr s)
    (hexact : ∀ e ∈ tr, ExactAdds e.pre e.act) (hclean : ∀ e ∈ tr, CleanAlloc e.pre e.act) :
    ∃ htr, Run (HubStep s₀.tunnel.allows) ⟨(defaultEndpoint env params).toList, 0, 0⟩ htr s.hub ∧
      htr.map (·.act) = tr.filterMap hubAction := by
  have hagree := agreeInv_heap hcalloc hcreate (.nil s₀) fun _ he => absurd he List.not_mem_nil
  obtain ⟨hinv, hhub⟩ := hub_created (tunnelCreate_seen hcalloc hcreate)
  have hboth := Simulates.comp (g := fun wa : ℕ × Action HeapEnv => (wa.1, wa.2.plain)) simulates_table
    (simulates_hub s₀.tunnel.allows)
  obtain ⟨htr, hrun', hacts⟩ := hboth.run hrun (fun e he => ⟨hexact e he, (hclean e he).seen⟩)
    ⟨hagree, hinv, rfl⟩
  rw [hhub] at hrun'
  refine ⟨htr, hrun', hacts.trans (List.filterMap_congr fun e _ => hubAction_seen e)⟩

theorem table_refines_hub_one : ∃ (s₀ s : Sys MapHeap) (tr : Trace MapHeap HeapEnv)
    (htr : List (Event Hub HubAction)),
    tunnelCreate heapOps (openEnv (heapEnv (.inPlace fun _ => {}))) (openParams 2) = .created s₀ ∧
    Run (Step heapOps) s₀ tr s ∧ s.hub.ports = [switchHost 2] ∧
    Run (HubStep s₀.tunnel.allows) ⟨[], 0, 0⟩ htr s.hub ∧
    htr.map (·.act) = tr.filterMap hubAction := by
  have hreplay : ∃ s₀ : Sys MapHeap,
      tunnelCreate heapOps (openEnv (heapEnv (.inPlace fun _ => {}))) (openParams 2) = .created s₀ ∧
      s₀.tunnel.numTapDevs ≤ s₀.tunnel.tapDevs.length ∧
      (replay heapOps s₀ 0 (wakeActions HeapEnv ++
        admitActions (heapEnv (.inPlace fun _ => {})) (switchHost 2) (40 + ·) 40)).any
        (fun s => s.hub.ports == [switchHost 2] && s.tunnel.numTapDevs == 1) = true :=
    ⟨_, rfl, Nat.le_refl 0, by decide +kernel⟩
  obtain ⟨s₀, hcreate, hle, hany⟩ := hreplay
  obtain ⟨s, hs, hp⟩ := (Option.any_eq_true _ _).1 hany
  rw [Bool.and_eq_true, beq_iff_eq, beq_iff_eq] at hp
  obtain ⟨tr, hrun, -, htr⟩ := mem_replay hle hs
  have hexact : ∀ e ∈ tr, ExactAdds e.pre e.act := by
    intro e he env m id d hact _ _
    obtain ⟨hmem, -, hext⟩ := htr e he
    rw [hact] at hmem
    have henv : env = heapEnv (.inPlace fun _ => {}) := by simpa [wakeActions, admitActions] using hmem
    have hdevs := hext.numTapDevs
    rw [henv]
    exact ⟨by omega, exactAdd_zeroed m d.src id⟩
  have hclean : ∀ e ∈ tr, CleanAlloc e.pre e.act := by
    intro e he
    obtain ⟨hmem, -, hext⟩ := htr e he
    have hdevs := hext.numTapDevs
    exact cleanAlloc_of_admits hmem (by omega)
  obtain ⟨htr', hhub, hacts⟩ := table_refines_hub _ _ s₀ s tr rfl hcreate hrun hexact hclean
  exact ⟨s₀, s, tr, htr', hcreate, hrun, hp.1, hhub, hacts⟩

end UdpEthTunnel
