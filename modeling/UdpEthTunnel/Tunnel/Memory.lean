/-
# How much memory a tunnel takes

The table of the devices and that of the endpoints double when they are full.  Each endpoint
that has been let in has a device and an entry, and there are no others, as long as `realloc`
appends no memory that looks like entries.  So in every interleaving neither table has more
than twice the room that the endpoints let in take up, and what has been copied from one
table to the next is no more than that (`memory_bounded`).
-/

import UdpEthTunnel.EndpointMap.Size
import UdpEthTunnel.Tunnel.Table

namespace UdpEthTunnel

open Tunnel Runs Doubling

/-! ### The table of the devices -/

section Devices

variable {M E : Type} {ops : MapOps M E} {s s' : Sys M} {w : ℕ} {a : Action E} {t t' : Tunnel M}

theorem newTapDevsSize_eq (n : ℕ) : newTapDevsSize n = max 1 (2 * n) := by
  unfold newTapDevsSize
  split_ifs <;> omega

/-- The table after a call of `tunnel_alloc_new_tap`. -/
theorem length_of_allocNewTap {env : AllocTapEnv} {epoll epoll' : EpollSets} {e : Endpoint}
    {r : Option ℕ} (h : tunnelAllocNewTap env t epoll e = .ret r t' epoll') :
    t'.tapDevs.length = t.tapDevs.length ∨
      t.tapDevs.length ≤ t.numTapDevs ∧ t'.tapDevs.length = newTapDevsSize t.tapDevs.length := by
  have hgrow : ∀ t₁, growTapDevs env t = some t₁ → t₁.tapDevs.length = t.tapDevs.length ∨
      t.tapDevs.length ≤ t.numTapDevs ∧ t₁.tapDevs.length = newTapDevsSize t.tapDevs.length := by
    intro t₁ hg
    unfold growTapDevs tapDevsAllocated at hg
    split_ifs at hg with hfull
    · obtain ⟨tail, -, rfl⟩ := Option.map_eq_some_iff.1 hg
      have hlt := lt_newTapDevsSize t.tapDevs.length
      refine .inr ⟨hfull, ?_⟩
      simp only [List.length_append, List.length_map, List.length_range]
      omega
    · obtain rfl := Option.some.inj hg
      exact .inl rfl
  have hset : ∀ (t₁ : Tunnel M) d, (t₁.setDev t₁.numTapDevs d).tapDevs.length = t₁.tapDevs.length :=
    fun t₁ d => List.length_set
  rcases allocNewTap_cases t env epoll e with ⟨-, hret⟩ | ⟨t₁, hg, ⟨-, hret⟩ | ⟨-, hret | ⟨fds,
    epoll₁, ok, -, ⟨-, hret⟩ | ⟨-, hret⟩⟩⟩⟩ <;> rw [hret] at h
  · injection h with _ ht _
    exact .inl (ht ▸ rfl)
  · cases h
  · cases h
  · injection h with _ ht _
    rw [← ht, hset]
    exact hgrow t₁ hg
  · injection h with _ ht _
    rw [← ht]
    have hlen := hset t₁ ⟨e, some ((List.range t₁.numQueues).map fds),
      some (List.replicate t₁.numQueues {})⟩
    exact hlen ▸ hgrow t₁ hg

/-- **The table of the devices grows by doubling.** -/
theorem devs_grow (hle : s.tunnel.numTapDevs ≤ s.tunnel.tapDevs.length) (hs : StepOf ops s w a s') :
    Grows 1 s.tunnel.numTapDevs s.tunnel.tapDevs.length s'.tunnel.numTapDevs
      s'.tunnel.tapDevs.length := by
  have hext := hs.extends hle
  refine ⟨hext.numTapDevs, ?_⟩
  have hnum := hext.numTapDevs
  have halloc : ∀ {env e r}, tunnelAllocNewTap env s.tunnel s.epoll e = .ret r s'.tunnel s'.epoll →
      s'.tunnel.tapDevs.length = s.tunnel.tapDevs.length ∨ s.tunnel.tapDevs.length ≤ s'.tunnel.numTapDevs ∧
        s'.tunnel.tapDevs.length = max 1 (2 * s.tunnel.tapDevs.length) := by
    intro env e r h
    rw [← newTapDevsSize_eq]
    exact (length_of_allocNewTap h).imp_right fun h => ⟨h.1.trans hnum, h.2⟩
  rcases hs.tunnel_cases with hsame | ⟨_, _, d, env, -, -, ⟨hret, -⟩ | ⟨id, hret, -⟩⟩ |
    ⟨_, _, id, d, env, map, -, -, -, ht, -⟩
  · exact .inl hsame.size
  · exact halloc hret
  · exact halloc hret
  · exact .inl (by rw [ht])

/-- A worker gets to where it enters a tap id in the map by allocating it. -/
theorem StepOf.to_add (hs : StepOf ops s w a s') {tev : TunnelEpollEvent}
    {rest : List TunnelEpollEvent} {id : ℕ} {d : Datagram}
    (hpc' : (s'.workers w).pc = .handle tev rest (.add id d)) :
    (s.workers w).pc = .handle tev rest (.add id d) ∨
      ∃ env e id, tunnelAllocNewTap env s.tunnel s.epoll e = .ret (some id) s'.tunnel s'.epoll := by
  have hgoto : ∀ {pc}, pc.point ≠ some (.add id d) → ((s.goto w pc).workers w).pc ≠
      .handle tev rest (.add id d) := by
    intro pc hne h
    rw [Sys.pc_goto] at h
    exact hne (h ▸ rfl)
  have hlock : ∀ {l pc}, pc.point ≠ some (.add id d) → ((s.lockGoto w l pc).workers w).pc ≠
      .handle tev rest (.add id d) := by
    intro l pc hne h
    rw [Sys.pc_lockGoto] at h
    exact hne (h ▸ rfl)
  have hnext : ∀ batch, (nextEvent batch).point ≠ some (.add id d) := by
    intro batch
    rcases nextEvent_cases batch with h | ⟨tev, rest, -, ⟨-, h⟩ | ⟨-, h⟩⟩ <;> rw [h] <;>
      simp [Pc.point]
  have haccount : ∀ {x f pc}, pc.point ≠ some (.add id d) →
      ((s.account w x f pc).workers w).pc = .handle tev rest (.add id d) →
      (s.workers w).pc = .handle tev rest (.add id d) := by
    intro x f pc hne h
    rcases s.account_cases w x f pc with he | ⟨t, -, he⟩ <;> rw [he] at h
    · exact h
    · rw [Sys.pc_goto] at h
      exact absurd (h ▸ rfl) hne
  cases hs with
  | start hpc => simp [Sys.workers_setWorker] at hpc'
  | alloc tev' rest' d' env id' t epoll hpc halloc => exact .inr ⟨env, d'.src, id', halloc⟩
  | dieInMap | dieInAlloc => exact .inl hpc'
  | sendto => exact .inl (haccount (by simp [Pc.point]) hpc')
  | write => exact .inl (haccount (by simp [Pc.point]) hpc')
  | recvfrom tev' rest' r =>
    refine absurd hpc' (hgoto ?_)
    rcases afterRecv_cases s.tunnel.mtu r with ⟨-, hr⟩ | ⟨d, -, ⟨-, hr⟩ | ⟨-, hr⟩⟩ <;> rw [hr] <;>
      simp [Pc.point]
  | lookup tev' rest' d' env tapId =>
    refine absurd hpc' (hgoto ?_)
    rcases afterLookup_cases (s.tunnel.allows d'.src.addr) tapId d' with
      ⟨-, hr⟩ | ⟨-, ⟨-, hr⟩ | ⟨-, hr⟩⟩ <;> rw [hr] <;> simp [Pc.point]
  | relookup tev' rest' d' env tapId =>
    refine absurd hpc' (hgoto ?_)
    rcases afterRelookup_cases tapId d' with ⟨-, hr⟩ | ⟨-, hr⟩ <;> rw [hr] <;> simp [Pc.point]
  | rdlockBatch batch => exact absurd hpc' (hlock (hnext batch))
  | rearm tev' rest' => exact absurd hpc' (hgoto (hnext rest'))
  | scopeEnd | unlockMiss | wrlock | unlockHit | rdlockHit =>
    exact absurd hpc' (hlock (by simp [Pc.point]))
  | read tev' rest' fd r => exact absurd hpc' (hgoto (by cases r <;> simp [Pc.point]))
  | epollFail | epollWait | allocFail | add | rearmFail => exact absurd hpc' (hgoto (by simp [Pc.point]))

end Devices

/-! ### The table of the endpoints -/

section Table

variable {s s' : Sys MapHeap} {w : ℕ} {a : Action HeapEnv} {wa : ℕ × Action HeapEnv}

/-- The entries that the table has in use, and that it has room for. -/
def Sys.numEntries (s : Sys MapHeap) : ℕ := s.tunnel.map.live.elim 0 (·.numEntries)

def Sys.allocEntries (s : Sys MapHeap) : ℕ := s.tunnel.map.live.elim 0 (·.allocEntries)

/-- A step that, if it adds to a live table, adds where the table is, and gets no entries with
the memory for it. -/
def BlankAdds (s : Sys MapHeap) (wa : ℕ × Action HeapEnv) : Prop :=
  ∀ env m id d, wa.2 = .mapAdd env → s.tunnel.map.live = some m →
    (s.workers wa.1).pc.point = some (.add id d) →
      s.tunnel.numTapDevs ≤ 2 ^ 30 ∧
        if m.numEntries < m.allocEntries then
          (tryInsert m d.src id).isSome = true ∨ env.add.malloc = true
        else env.add.malloc = true ∧
          ∃ tail, env.add.realloc = .inPlace tail ∧ ∀ i, (tail i).present = false

theorem BlankAdds.exact (h : BlankAdds s wa) : ExactAdds s wa := by
  intro env m id d hact hm hpc
  obtain ⟨hnum, hadd⟩ := h env m id d hact hm hpc
  refine ⟨hnum, ?_⟩
  unfold ExactAdd
  split_ifs at hadd ⊢ with hroom
  · exact hadd
  · obtain ⟨hmalloc, tail, hrealloc, hblank⟩ := hadd
    refine ⟨hmalloc, tail, hrealloc, fun k v hv => ?_⟩
    rw [EndpointMap.appended_of_blank hblank] at hv
    cases hv

/-- **Every entry has a device**, and while a worker holds a tap id that it has not entered
there is one device more. -/
structure EntriesInv (s : Sys MapHeap) : Prop where
  agree : AgreeInv HeapCurrent heapLook s
  entries : s.numEntries ≤ s.tunnel.numTapDevs
  pending : ∀ w tev rest id d, (s.workers w).pc = .handle tev rest (.add id d) →
    s.numEntries + 1 ≤ s.tunnel.numTapDevs

/-- What a call of `endpoint_map_add` does to the table. -/
theorem BlankAdds.grows (h : BlankAdds s (w, .mapAdd env)) (hagree : AgreeInv HeapCurrent heapLook s)
    {tev : TunnelEpollEvent} {rest : List TunnelEpollEvent} {id : ℕ} {d : Datagram} {map : MapHeap}
    (hpc : (s.workers w).pc = .handle tev rest (.add id d))
    (hadd : heapOps.add env s.tunnel.map d.src id = .ret map)
    (hs' : s'.tunnel = { s.tunnel with map := map }) : s'.numEntries ≤ s.numEntries + 1 ∧
      Grows 32 s.numEntries s.allocEntries s'.numEntries s'.allocEntries := by
  obtain ⟨-, m, hm, hwf⟩ := hagree.good
  obtain ⟨-, hkept⟩ := h env m id d rfl hm (by rw [hpc]; rfl)
  obtain ⟨q, hadd⟩ := heapOps_add hadd
  obtain ⟨p, out, hmap, hp, hout, hx⟩ := heapAdd_of_live hm hadd
  have hret : (∃ m', out = .kept m') ∧ (m.allocEntries ≤ m.numEntries → env.add.realloc.Blank) := by
    split_ifs at hkept with hroom
    · obtain ⟨m', hret⟩ := EndpointMap.ret_of_room hroom hkept hout
      exact ⟨⟨m', EndpointMap.kept_of_room hroom hout hret⟩, fun hfull => absurd hroom (Nat.not_lt.2 hfull)⟩
    · obtain ⟨hmalloc, tail, hrealloc, htail⟩ := hkept
      exact ⟨EndpointMap.kept_of_inPlace (Nat.le_of_not_lt hroom) hrealloc hmalloc hout,
        fun _ => hrealloc ▸ htail⟩
  obtain ⟨⟨m', rfl⟩, hblank⟩ := hret
  obtain ⟨-, hone, hgrows⟩ := hwf.add_grows hblank hout rfl
  obtain rfl : map = (s.tunnel.map.afterAdd p (.kept m')).2 := congrArg Prod.snd hx
  have hlive : s'.tunnel.map.live = some m' := by
    rw [hs']
    exact MapHeap.live_eq_some.2 ⟨p, hmap, MapHeap.table_afterAdd hp _⟩
  unfold Sys.numEntries Sys.allocEntries
  rw [hm, hlive]
  exact ⟨hone, hgrows⟩

theorem Sys.entries_congr (h : s'.tunnel.map = s.tunnel.map) :
    s'.numEntries = s.numEntries ∧ s'.allocEntries = s.allocEntries := by
  unfold Sys.numEntries Sys.allocEntries
  rw [h]
  exact ⟨rfl, rfl⟩

/-- **A step of the table.** -/
theorem EntriesInv.step (h : EntriesInv s) (hadds : BlankAdds s (w, a))
    (hstep : Step heapOps s (w, a) s') : EntriesInv s' ∧
      Grows 32 s.numEntries s.allocEntries s'.numEntries s'.allocEntries := by
  have hagree := agreeInv_step h.agree hadds.exact hstep
  obtain ⟨-, hw, hs⟩ := hstep.stepOf
  have hsame : s'.tunnel.map = s.tunnel.map → s.tunnel.numTapDevs ≤ s'.tunnel.numTapDevs →
      (∀ tev rest id d, (s'.workers w).pc = .handle tev rest (.add id d) →
        s.numEntries + 1 ≤ s'.tunnel.numTapDevs) → EntriesInv s' ∧
      Grows 32 s.numEntries s.allocEntries s'.numEntries s'.allocEntries := by
    intro hmap hnum hpending
    obtain ⟨hentries, halloc⟩ := Sys.entries_congr hmap
    rw [hentries, halloc]
    refine ⟨⟨hagree, hentries ▸ h.entries.trans hnum, fun v tev rest id d hv => ?_⟩, le_rfl, .inl rfl⟩
    rw [hentries]
    rcases eq_or_ne v w with rfl | hvw
    · exact hpending tev rest id d hv
    · rw [hs.workers_ne hvw] at hv
      exact (h.pending v tev rest id d hv).trans hnum
  rcases hs.tunnel_cases with hdevs | ⟨tev, rest, d, env, rfl, hpc, ⟨halloc, hpc'⟩ | ⟨id, halloc, hpc'⟩⟩ |
    ⟨tev, rest, id, d, env, map, rfl, hpc, hret, ht, hpc'⟩
  · refine hsame hdevs.map hdevs.numTapDevs.ge fun tev rest id d hv => ?_
    rcases hs.to_add hv with hold | ⟨env, e, id, halloc⟩
    · exact (h.pending w tev rest id d hold).trans hdevs.numTapDevs.ge
    · have hnum := (allocNewTap_some h.agree.size halloc).numTapDevs
      have hsame := hdevs.numTapDevs
      omega
  · obtain ⟨-, hmap, hnum, -⟩ := allocNewTap_none h.agree.size halloc
    refine hsame hmap hnum.ge fun tev' rest' id' d' hv => ?_
    rw [hpc'] at hv
    cases hv
  · have hnew := allocNewTap_some h.agree.size halloc
    refine hsame hnew.map (by rw [hnew.numTapDevs]; omega) fun _ _ _ _ _ => ?_
    rw [hnew.numTapDevs]
    exact Nat.succ_le_succ h.entries
  · obtain ⟨hone, hgrows⟩ := hadds.grows h.agree hpc hret ht
    have hpending := h.pending w tev rest id d hpc
    have hnum : s'.tunnel.numTapDevs = s.tunnel.numTapDevs := by rw [ht]
    refine ⟨⟨hagree, by omega, fun v tev' rest' id' d' hv => ?_⟩, hgrows⟩
    -- another worker with a tap id in hand would hold the lock for writing, as this one does
    rcases eq_or_ne v w with rfl | hvw
    · rw [hpc'] at hv
      cases hv
    · rw [hs.workers_ne hvw] at hv
      exact absurd (h.agree.locks.eq_of_write (h.agree.locks.write_of_point hv trivial)
        (h.agree.locks.write_of_point hpc trivial)) hvw

/-- The table of the devices of a new tunnel. -/
theorem devs_of_created {M E : Type} {ops : MapOps M E} {env : CreateEnv E} {params : TunnelParams}
    {u : Sys M} (h : tunnelCreate ops env params = .created u) :
    u.tunnel.tapDevs.length ≤ max 1 (2 * u.tunnel.numTapDevs) := by
  have halloc : ∃ t : Tunnel M, t.tapDevs = [] ∧ t.numTapDevs = 0 ∧ (u.tunnel = t ∨ ∃ epoll e id,
      tunnelAllocNewTap env.alloc t epoll e = .ret (some id) u.tunnel u.epoll) := by
    unfold tunnelCreate at h
    simp only [CreateOutcome.bind_eq_created, CreateOutcome.check_eq_created,
      CreateOutcome.readStr_eq_created, CreateOutcome.ofOption_eq_created,
      CreateOutcome.pure_eq_created] at h
    obtain ⟨_, -, _, -, _, -, _, -, fds, -, epollFds, -, _, -, allowed, -, ⟨t, epoll⟩, hdef, _, -,
      rfl⟩ := h
    rcases createDefaultTap_alloc hdef with rfl | ⟨map, e, id, halloc⟩
    · exact ⟨_, rfl, rfl, .inl rfl⟩
    · exact ⟨_, rfl, rfl, .inr ⟨_, e, id, halloc⟩⟩
  obtain ⟨t, hnil, hnum, hsame | ⟨epoll, e, id, hret⟩⟩ := halloc
  · rw [hsame, hnil]
    exact Nat.zero_le _
  · have hlen := length_of_allocNewTap hret
    rw [hnil, newTapDevsSize_eq, List.length_nil] at hlen
    omega

/-- A new tunnel has at most the entry of its default endpoint. -/
theorem entriesInv_created {env : CreateEnv HeapEnv} {params : TunnelParams}
    (hcalloc : env.mapCreate.calloc = true) (hcreate : tunnelCreate heapOps env params = .created s) :
    EntriesInv s ∧ s.allocEntries ≤ max 32 (2 * s.numEntries) := by
  have hagree := agreeInv_heap hcalloc hcreate (.nil s) fun _ he => absurd he List.not_mem_nil
  obtain ⟨hworkers, -, t, hbare, hcase⟩ := tunnelCreate_created hcreate
  have hidle : ∀ w tev rest id d, (s.workers w).pc = .handle tev rest (.add id d) →
      s.numEntries + 1 ≤ s.tunnel.numTapDevs := by
    intro w tev rest id d hw
    rw [hworkers] at hw
    cases hw
  have hnew : ∀ {m}, endpointMapCreate env.mapCreate.calloc env.mapCreate.rand = some m →
      m.numEntries = 0 ∧ m.allocEntries = 32 := by
    intro m hm
    rw [hcalloc] at hm
    obtain rfl := Option.some.inj hm
    exact ⟨rfl, rfl⟩
  have htable : ∃ m, s.tunnel.map.live = some m ∧ m.numEntries ≤ s.tunnel.numTapDevs ∧
      m.allocEntries ≤ max 32 (2 * m.numEntries) := by
    rcases hcase with ⟨-, -, rfl, -⟩ | ⟨e, hdef⟩
    · rw [hbare.map]
      rcases heapCreate_cases env.mapCreate with ⟨hfalse, -⟩ | ⟨m, hm, -, hlive, -⟩
      · rw [hcalloc] at hfalse
        cases hfalse
      · obtain ⟨hnum, halloc⟩ := hnew hm
        exact ⟨m, hlive, by omega, by omega⟩
    · obtain ⟨map, hadd, htap⟩ := hdef.add
      rw [hbare.map] at hadd
      obtain ⟨m, m', hm, hroom, hout, -, hlive⟩ := heapAddAssign_create hadd
      obtain ⟨hnum, halloc⟩ := hnew hm
      obtain ⟨-, hone, hgrows⟩ := (EndpointMap.wellFormed_create hm).add_grows
        (fun hfull => absurd hroom (Nat.not_lt.2 hfull)) hout rfl
      have hdevs : s.tunnel.numTapDevs = t.numTapDevs + 1 := htap.numTapDevs
      refine ⟨m', ?_, by omega, hgrows.bounded (by omega)⟩
      rw [htap.map]
      exact hlive
  obtain ⟨m, hlive, hnum, halloc⟩ := htable
  have hsizes : s.numEntries = m.numEntries ∧ s.allocEntries = m.allocEntries := by
    unfold Sys.numEntries Sys.allocEntries
    rw [hlive]
    exact ⟨rfl, rfl⟩
  rw [hsizes.2, hsizes.1]
  exact ⟨⟨hagree, hsizes.1 ▸ hnum, hidle⟩, halloc⟩

/-- **The memory that a tunnel takes.**  In every run, in every interleaving of the workers, in
which each call of `endpoint_map_add` adds where the table is and gets no entries with its
memory: the table of the devices has at most twice the room for the devices, and the table of
the endpoints, from 32 on, at most twice as many slots; there is at most one entry for each
device; and all that has been copied by the growth of a table fits into it. -/
theorem memory_bounded (env : CreateEnv HeapEnv) (params : TunnelParams) (s₀ s : Sys MapHeap)
    (tr : Trace MapHeap HeapEnv) (hcalloc : env.mapCreate.calloc = true)
    (hcreate : tunnelCreate heapOps env params = .created s₀) (hrun : Run (Step heapOps) s₀ tr s)
    (hadds : ∀ e ∈ tr, BlankAdds e.pre e.act) :
    s.tunnel.tapDevs.length ≤ max 1 (2 * s.tunnel.numTapDevs) ∧
    s.numEntries ≤ s.tunnel.numTapDevs ∧ s.allocEntries ≤ max 32 (2 * s.numEntries) ∧
    (tr.map fun e => moved e.pre.tunnel.tapDevs.length e.post.tunnel.tapDevs.length).sum ≤
      s.tunnel.tapDevs.length ∧
    (tr.map fun e => moved e.pre.allocEntries e.post.allocEntries).sum ≤ s.allocEntries := by
  obtain ⟨hinv₀, halloc₀⟩ := entriesInv_created hcalloc hcreate
  have hstep : ∀ (u : Sys MapHeap) wa v, EntriesInv u → BlankAdds u wa → Step heapOps u wa v →
      EntriesInv v := fun u wa v hu hG hstep => (hu.step hG hstep).1
  have hsteps : ∀ e ∈ tr, EntriesInv e.pre ∧ Step heapOps e.pre e.act e.post := fun e he =>
    hrun.pre_of_mem hstep hadds hinv₀ he
  have htable : ∀ e ∈ tr, Grows 32 e.pre.numEntries e.pre.allocEntries e.post.numEntries
      e.post.allocEntries := fun e he => ((hsteps e he).1.step (hadds e he) (hsteps e he).2).2
  have hdevs : ∀ e ∈ tr, Grows 1 e.pre.tunnel.numTapDevs e.pre.tunnel.tapDevs.length
      e.post.tunnel.numTapDevs e.post.tunnel.tapDevs.length := fun e he =>
    devs_grow (hsteps e he).1.agree.size (hsteps e he).2.stepOf.2.2
  have hinv := hrun.invariant_of hstep hadds hinv₀
  have hmovedDevs := moved_le (·.tunnel.numTapDevs) (·.tunnel.tapDevs.length) hrun hdevs
  have hmovedTable := moved_le Sys.numEntries Sys.allocEntries hrun htable
  exact ⟨bounded (·.tunnel.numTapDevs) (·.tunnel.tapDevs.length) hrun hdevs (devs_of_created hcreate),
    hinv.entries, bounded Sys.numEntries Sys.allocEntries hrun htable halloc₀,
    (Nat.le_add_right _ _).trans hmovedDevs, (Nat.le_add_right _ _).trans hmovedTable⟩

/-- Thirty-three devices: the table of the devices has room for at most 66, and that of the
endpoints has at most 66 slots. -/
theorem memory_bounded_grown : ∃ s₀ s tr,
    tunnelCreate heapOps (openEnv (heapEnv (.inPlace fun _ => {}))) (openParams 2) = .created s₀ ∧
    Run (Step heapOps) s₀ tr s ∧ s.tunnel.numTapDevs = 33 ∧ s.tunnel.tapDevs.length ≤ 66 ∧
    s.allocEntries ≤ 66 ∧
    (tr.map fun e => moved e.pre.allocEntries e.post.allocEntries).sum ≤ s.allocEntries := by
  obtain ⟨s₀, s, tr, hcreate, hrun, hnum, htr⟩ := exists_peerRun
  obtain ⟨hdevs, hentries, halloc, -, hmoved⟩ := memory_bounded _ _ s₀ s tr rfl hcreate hrun
    fun e he env m id d hact _ _ => by
      obtain ⟨hle, hadd⟩ := htr e he
      rw [hadd env hact]
      refine ⟨by omega, ?_⟩
      split_ifs
      · exact .inr rfl
      · exact ⟨rfl, _, rfl, fun _ => rfl⟩
  exact ⟨s₀, s, tr, hcreate, hrun, hnum, by omega, by omega, hmoved⟩

end Table

end UdpEthTunnel
