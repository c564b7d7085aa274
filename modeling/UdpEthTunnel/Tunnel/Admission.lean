/-
# Who gets through to a tap device

An endpoint is admitted if it is the default endpoint or the allow list matches its
address.  The allow list is asked only for endpoints that the map does not know, so
admission rests on what the map knows: as long as it knows admitted endpoints only, a
worker writes for admitted endpoints only (`AdmitInv`).

The entries of the map are those that were added, except that a full table grows by
memory that is not cleared and is read as entries.  If that memory holds no endpoint
that is not admitted, and `realloc` leaves the table where it is, admission holds
along every run (`admission`); otherwise a stranger can get through
(`admission_fails`).
-/

import UdpEthTunnel.EndpointMap.Entries
import UdpEthTunnel.Tunnel.CurrentMap

namespace UdpEthTunnel

open Tunnel Runs

section Admit

variable {M E : Type}

/-- The default endpoint, if there is one: the address its name stands for, and the
port. -/
def defaultEndpoint (env : CreateEnv E) (params : TunnelParams) : Option Endpoint :=
  params.defaultRemoteHost.bind fun host =>
    (env.lookupHost host).map fun addr => ⟨addr, params.remotePort⟩

/-- The endpoint is the default one, or the allow list matches its address. -/
def Admitted (t : Tunnel M) (dflt : Option Endpoint) (e : Endpoint) : Prop :=
  dflt = some e ∨ t.allows e.addr = true

/-- What is known of the datagram in hand: behind the allow list, that it matched; at
the write, that the source is admitted. -/
def Point.Admits (t : Tunnel M) (A : Endpoint → Prop) : Point → Prop
  | .unlockMiss d | .wrlock d | .relookup d | .unlockHit _ d | .rdlock _ d | .alloc d | .add _ d =>
    t.allows d.src.addr = true
  | .write _ d => A d.src
  | .tapRead | .tapSend _ | .recv | .lookup _ | .rearm => True

/-- A lookup finds nobody but the endpoints in `A`. -/
def FindsOnly (ops : MapOps M E) (Good : M → Prop) (A : Endpoint → Prop) : Prop :=
  ∀ env m e i, Good m → ops.lookup env m e = .ret i → 0 ≤ i → A e

/-- **The invariant of admission.** -/
structure AdmitInv (Good : M → Prop) (A : Endpoint → Prop) (s : Sys M) : Prop where
  size : s.tunnel.numTapDevs ≤ s.tunnel.tapDevs.length
  allowed : ∀ e : Endpoint, s.tunnel.allows e.addr = true → A e
  good : Good s.tunnel.map
  admits : ∀ w p, (s.workers w).pc.point = some p → p.Admits s.tunnel A

variable {ops : MapOps M E} {Good : M → Prop} {A : Endpoint → Prop} {s s' : Sys M} {w : ℕ}
  {a : Action E} {t t' : Tunnel M}

theorem allows_congr (h : t'.allowedAddrList = t.allowedAddrList) : t'.allows = t.allows := by
  funext x
  unfold allows
  rw [h]

theorem Point.Admits.congr {p : Point} (hp : p.Admits t A) (h : t'.allows = t.allows) :
    p.Admits t' A := by
  cases p <;> simp only [Point.Admits, h] at hp ⊢ <;> exact hp

/-- The points that a loop starts from say nothing. -/
theorem admits_nextEvent (batch : List TunnelEpollEvent) {p : Point}
    (hp : (nextEvent batch).point = some p) : p.Admits t A := by
  rcases nextEvent_cases batch with h | ⟨tev, rest, -, ⟨-, h⟩ | ⟨-, h⟩⟩ <;> rw [h] at hp <;> cases hp <;>
    trivial

/-- What the worker knows after its own step. -/
theorem AdmitInv.admits_self (hfind : FindsOnly ops Good A) (h : AdmitInv Good A s)
    (hs : StepOf ops s w a s') {p : Point} (hp : (s'.workers w).pc.point = some p) :
    p.Admits s.tunnel A := by
  have hself : ∀ {tev rest q}, (s.workers w).pc = .handle tev rest q → q.Admits s.tunnel A :=
    fun hpc => h.admits w _ (by rw [hpc]; rfl)
  have haccount : ∀ {id f tev rest q}, q = .tapRead ∨ q = .recv →
      ((s.account w id f (.handle tev rest q)).workers w).pc.point = some p → p.Admits s.tunnel A := by
    intro id f tev rest q hq hp
    rcases s.account_cases w id f (.handle tev rest q) with he | ⟨t, -, he⟩ <;> rw [he] at hp
    · exact h.admits w p hp
    · rw [Sys.pc_goto] at hp
      rcases hq with rfl | rfl <;> cases hp <;> trivial
  cases hs with
  | sendto => exact haccount (.inl rfl) hp
  | write => exact haccount (.inr rfl) hp
  | dieInMap => exact h.admits w p hp
  | dieInAlloc => exact h.admits w p hp
  | start => simp [Sys.workers_setWorker, Pc.point] at hp
  | epollFail | epollWait | rearmFail => rw [Sys.pc_goto] at hp; cases hp
  | scopeEnd => rw [Sys.pc_lockGoto] at hp; cases hp
  | allocFail => rw [Sys.pc_goto] at hp; cases hp; trivial
  | rdlockBatch batch => rw [Sys.pc_lockGoto] at hp; exact admits_nextEvent batch hp
  | rearm tev rest => rw [Sys.pc_goto] at hp; exact admits_nextEvent rest hp
  | read tev rest fd r =>
    rw [Sys.pc_goto] at hp
    cases r <;> cases hp <;> trivial
  | recvfrom tev rest r =>
    rw [Sys.pc_goto] at hp
    rcases afterRecv_cases s.tunnel.mtu r with ⟨-, hr⟩ | ⟨d, -, ⟨-, hr⟩ | ⟨-, hr⟩⟩ <;> rw [hr] at hp <;>
      cases hp <;> trivial
  | lookup tev rest d env tapId hpc hlookup =>
    rw [Sys.pc_goto] at hp
    rcases afterLookup_cases (s.tunnel.allows d.src.addr) tapId d with
      ⟨h₀, hr⟩ | ⟨-, ⟨hallow, hr⟩ | ⟨-, hr⟩⟩ <;> rw [hr] at hp <;> cases hp
    · exact hfind env _ _ _ h.good hlookup h₀
    · exact hallow
    · trivial
  | relookup tev rest d env tapId hpc hlookup =>
    rw [Sys.pc_goto] at hp
    have hd : s.tunnel.allows d.src.addr = true := hself hpc
    rcases afterRelookup_cases tapId d with ⟨-, hr⟩ | ⟨-, hr⟩ <;> rw [hr] at hp <;> cases hp <;> exact hd
  | unlockMiss _ _ d hpc | wrlock _ _ d hpc | unlockHit _ _ _ d hpc =>
    have hd : s.tunnel.allows d.src.addr = true := hself hpc
    rw [Sys.pc_lockGoto] at hp
    cases hp
    exact hd
  | rdlockHit _ _ _ d hpc =>
    have hd : s.tunnel.allows d.src.addr = true := hself hpc
    rw [Sys.pc_lockGoto] at hp
    cases hp
    exact h.allowed _ hd
  | alloc _ _ d _ _ _ _ hpc =>
    have hd : s.tunnel.allows d.src.addr = true := hself hpc
    rw [Sys.pc_goto] at hp
    cases hp
    exact hd
  | add _ _ _ d _ _ hpc =>
    have hd : s.tunnel.allows d.src.addr = true := hself hpc
    rw [Sys.pc_goto] at hp
    cases hp
    exact h.allowed _ hd

/-- **Every step keeps the invariant**, if the map learns of no stranger. -/
theorem AdmitInv.step (hfind : FindsOnly ops Good A) (h : AdmitInv Good A s)
    (hstep : Step ops s (w, a) s')
    (hadd : ∀ env id (d : Datagram) m', a = .mapAdd env → A d.src →
      ops.add env s.tunnel.map d.src id = .ret m' → Good m') :
    AdmitInv Good A s' := by
  obtain ⟨-, -, hs⟩ := hstep.stepOf
  have hext := hs.extends h.size
  have hallows := allows_congr hext.allowed
  refine ⟨hext.size, fun e he => h.allowed e (by rwa [hallows] at he), ?_, fun v p hp => ?_⟩
  · rcases hs.tunnel_cases with hsame | ⟨_, _, d, env, -, -, ⟨halloc, -⟩ | ⟨id, halloc, -⟩⟩ |
      ⟨_, _, id, d, env, map, rfl, hpc, hret, ht, -⟩
    · exact hsame.map ▸ h.good
    · exact (allocNewTap_none h.size halloc).2.1 ▸ h.good
    · exact (allocNewTap_some h.size halloc).map ▸ h.good
    · have hd : A d.src := h.allowed _ (h.admits w (.add id d) (by rw [hpc]; rfl))
      rw [ht]
      exact hadd env id d map rfl hd hret
  · rcases eq_or_ne v w with rfl | hne
    · exact (h.admits_self hfind hs hp).congr hallows
    · rw [hs.workers_ne hne] at hp
      exact (h.admits v p hp).congr hallows

/-- A refused datagram is dropped: with its source not admitted, the worker that has
it in hand is about to look it up, and changes nothing. -/
theorem AdmitInv.refused (h : AdmitInv Good A s) (hs : StepOf ops s w a s') {d : Datagram}
    (hd : (s.workers w).pc.datagram = some d) (hA : ¬ A d.src) : s'.tunnel = s.tunnel := by
  have hpoint : (s.workers w).pc.point = some (.lookup d) := by
    obtain ⟨p, hp, hpd⟩ := Option.bind_eq_some_iff.1 hd
    have hadm := h.admits w p hp
    rw [hp]
    cases p <;> cases hpd <;> first
      | rfl
      | exact absurd (h.allowed _ hadm) hA
      | exact absurd hadm hA
  cases hs <;> first
    | rfl
    | (rename_i hpc _; rw [hpc] at hpoint; cases hpoint)
    | (rename_i hpc; rw [hpc] at hpoint; cases hpoint)

/-- Receiving a datagram changes nothing. -/
theorem StepOf.tunnel_of_received (hs : StepOf ops s w a s') {d : Datagram}
    (hd : a.received = some d) : s'.tunnel = s.tunnel := by
  cases hs with
  | recvfrom => rfl
  | dieInMap => rfl
  | _ => cases hd

/-- Without an allow list, no step adds a device. -/
theorem AdmitInv.closed (h : AdmitInv Good A s) (hs : StepOf ops s w a s')
    (hnone : s.tunnel.allowedAddrList = none) :
    s'.tunnel.numTapDevs = s.tunnel.numTapDevs ∧ s'.tunnel.remote = s.tunnel.remote := by
  rcases hs.tunnel_cases with hsame | ⟨_, _, d, env, -, hpc, -⟩ | ⟨_, _, id, d, env, map, -, -, -, ht, -⟩
  · exact ⟨hsame.numTapDevs, hsame.remote⟩
  · have hallow : s.tunnel.allows d.src.addr = true := h.admits w (.alloc d) (by rw [hpc]; rfl)
    unfold allows at hallow
    rw [hnone] at hallow
    cases hallow
  · rw [ht]
    exact ⟨rfl, rfl⟩

end Admit

/-! ### The map in memory -/

section Heap

/-- An entry that a lookup finds is of an endpoint in `A`. -/
def Knows (A : Endpoint → Prop) (e : Endpoint) (v : BitVec 31) : Prop := 0 ≤ v.toInt → A e

/-- `t->map` is `NULL` or a live table that knows endpoints in `A` only. -/
def HeapAdmits (A : Endpoint → Prop) (h : MapHeap) : Prop :=
  h.map = none ∨ ∃ m, h.live = some m ∧ m.EntriesIn (Knows A)

/-- A step that adds to a full table neither moves it nor appends memory that shows an
endpoint outside `A`. -/
def AdmitsOnly (A : Endpoint → Prop) (s : Sys MapHeap) (wa : ℕ × Action HeapEnv) : Prop :=
  ∀ env m, wa.2 = .mapAdd env → s.tunnel.map.live = some m → m.allocEntries ≤ m.numEntries →
    (∀ tail, env.add.realloc ≠ .moved tail) ∧
      EndpointMap.TailIn (Knows A) m.allocEntries env.add.realloc

variable {A : Endpoint → Prop} {h h' : MapHeap} {env : HeapEnv} {e : Endpoint} {id : ℕ}

theorem findsOnly_heapOps : FindsOnly heapOps (HeapAdmits A) A := by
  rintro env h e i (hnull | ⟨m, hm, hin⟩) hret h₀
  · simp only [heapOps, hnull] at hret
    cases hret
  · rw [heapLookup_of_live hm] at hret
    injection hret with hret
    obtain ⟨x, hx, hp, rfl, hv⟩ := EndpointMap.lookup_mem (m := m) (e := e) (by omega)
    exact hin x hx hp (by omega)

/-- What is added to a table that stays where it is. -/
theorem HeapAdmits.add (hh : HeapAdmits A h) (he : A e)
    (honly : ∀ m, h.live = some m → m.allocEntries ≤ m.numEntries →
      (∀ tail, env.add.realloc ≠ .moved tail) ∧
        EndpointMap.TailIn (Knows A) m.allocEntries env.add.realloc)
    (hadd : heapOps.add env h e id = .ret h') : HeapAdmits A h' := by
  obtain ⟨q, hadd⟩ := heapOps_add hadd
  rcases hh with hnull | ⟨m, hm, hin⟩
  · simp only [heapAdd, hnull] at hadd
    cases hadd
  · obtain ⟨p, out, hmap, hp, hout, hx⟩ := heapAdd_of_live hm hadd
    obtain ⟨m', hheld, hstays⟩ : ∃ m', out.held = some m' ∧ (out = .kept m' ∨ out = .nullKept m') := by
      cases EndpointMap.addOf hout with
      | direct m' => exact ⟨m', rfl, .inl rfl⟩
      | rebuilt m' => exact ⟨m', rfl, .inl rfl⟩
      | grown tail m' => exact ⟨m', rfl, .inl rfl⟩
      | noCopy => exact ⟨m, rfl, .inr rfl⟩
      | noGrowth => exact ⟨m, rfl, .inr rfl⟩
      | noCopyGrown tail => exact ⟨m.grow tail, rfl, .inr rfl⟩
      | grownMoved tail _ _ _ hfull hr => exact absurd hr ((honly m hm hfull).1 tail)
      | noCopyMoved tail hfull hr => exact absurd hr ((honly m hm hfull).1 tail)
    have hin' := hin.add (fun _ => he) (fun hfull => (honly m hm hfull).2) hout hheld
    have hh' : h' = (h.afterAdd p out).2 := congrArg Prod.snd hx
    have htable := MapHeap.table_afterAdd hp out
    have hmap' : h'.map = some p := by
      rw [hh']
      rcases hstays with rfl | rfl <;> exact hmap
    refine .inr ⟨m', MapHeap.live_eq_some.2 ⟨p, hmap', ?_⟩, hin'⟩
    rw [hh', htable]
    rcases hstays with rfl | rfl <;> rfl

theorem AdmitInv.heap_step {s s' : Sys MapHeap} {wa : ℕ × Action HeapEnv}
    (h : AdmitInv (HeapAdmits A) A s) (honly : AdmitsOnly A s wa) (hstep : Step heapOps s wa s') :
    AdmitInv (HeapAdmits A) A s' := by
  obtain ⟨w, a⟩ := wa
  refine h.step findsOnly_heapOps hstep fun env id d h' hact hA hret => ?_
  exact h.good.add hA (fun m hm hfull => honly env m hact hm hfull) hret

variable {cenv : CreateEnv HeapEnv} {params : TunnelParams} {s₀ : Sys MapHeap}

/-- A new tunnel admits who it is configured to admit. -/
theorem admitInv_created (hcreate : tunnelCreate heapOps cenv params = .created s₀) :
    AdmitInv (HeapAdmits (Admitted s₀.tunnel (defaultEndpoint cenv params)))
      (Admitted s₀.tunnel (defaultEndpoint cenv params)) s₀ ∧
    (s₀.tunnel.allowedAddrList = none → ∃ e, defaultEndpoint cenv params = some e ∧
      s₀.tunnel.numTapDevs = 1 ∧ s₀.tunnel.remote (0 : ℕ) = some e) := by
  obtain ⟨hworkers, -, t, hbare, hcase⟩ := tunnelCreate_created hcreate
  have hadmits : ∀ w p, (s₀.workers w).pc.point = some p →
      p.Admits s₀.tunnel (Admitted s₀.tunnel (defaultEndpoint cenv params)) := by
    intro w p hp
    rw [hworkers] at hp
    cases hp
  rcases hcase with ⟨-, hhosts, rfl, -⟩ | ⟨e, hdef⟩
  · refine ⟨⟨by rw [hbare.numTapDevs]; exact Nat.zero_le _, fun e he => .inr he, ?_, hadmits⟩,
      fun hnone => ?_⟩
    · rw [hbare.map]
      rcases heapCreate_cases cenv.mapCreate with ⟨-, hnull⟩ | ⟨m, hm, -, hlive, -⟩
      · exact .inl hnull
      · exact .inr ⟨m, hlive, EndpointMap.entriesIn_create hm⟩
    · have hallowed := hbare.allowed
      cases htext : params.allowedRemoteHosts with
      | none => exact absurd htext hhosts
      | some text =>
        rw [htext] at hallowed
        exact absurd hnone hallowed.2
  · obtain ⟨host, hhost, haddr⟩ := hdef.host
    obtain ⟨map, hadd, hnew⟩ := hdef.add
    have hdflt : defaultEndpoint cenv params = some e := by
      unfold defaultEndpoint
      rw [hhost, Option.bind_some, haddr, Option.map_some, ← hdef.port]
    have hid : s₀.tunnel.numTapDevs = 1 := by
      rw [hnew.numTapDevs]
      exact congrArg (· + 1) hbare.numTapDevs
    refine ⟨⟨hnew.ext.size, fun e he => .inr he, ?_, hadmits⟩, fun _ =>
      ⟨e, hdflt, hid, hnew.remote⟩⟩
    rw [hbare.map] at hadd
    obtain ⟨m, m', hm, hroom, hout, -, hlive⟩ := heapAddAssign_create hadd
    rw [hnew.map]
    refine .inr ⟨m', hlive, (EndpointMap.entriesIn_create hm).add (fun _ => .inl hdflt) ?_ hout rfl⟩
    intro hfull
    omega

end Heap

/-- What admission means for a run from `s₀` to `s`.

Every write carries a datagram of an admitted endpoint.  Without an allow list there is
one device, that of the default endpoint.  And a datagram whose source is not admitted
changes nothing in the tunnel, neither when it is received nor later. -/
structure Admission (dflt : Option Endpoint) (s₀ s : Sys MapHeap) (tr : Trace MapHeap HeapEnv) :
    Prop where
  writes : ∀ tr₁ tr₂ u v w fd bytes r now, tr = tr₁ ++ ⟨u, (w, .write fd bytes r now), v⟩ :: tr₂ →
    ∃ d, (received w tr₁).getLast? = some d ∧ bytes = d.payload.take (2 * s₀.tunnel.mtu) ∧
      Admitted s₀.tunnel dflt d.src
  closed : s₀.tunnel.allowedAddrList = none → ∃ e, dflt = some e ∧ s.tunnel.numTapDevs = 1 ∧
    s.tunnel.remote (0 : ℕ) = some e
  refused : ∀ e ∈ tr, ∀ d, ¬ Admitted s₀.tunnel dflt d.src →
    e.act.2.received = some d ∨ (e.pre.workers e.act.1).pc.datagram = some d →
      e.post.tunnel = e.pre.tunnel

/-- **Only admitted endpoints get through.**  `worker_thread` asks the allow list only about an
endpoint that the map does not find, so what is written to a device is as good as what the
map finds.  It finds what was added, for the default endpoint and for sources that the list
matches, and what `realloc` appends to a full table: in every run whose additions to a full
map neither move it nor append memory that shows a stranger, each write carries the datagram
that its worker received last, and that came from an admitted source; datagrams of others
leave the tunnel as it was. -/
theorem admission (env : CreateEnv HeapEnv) (params : TunnelParams) (s₀ s : Sys MapHeap)
    (tr : Trace MapHeap HeapEnv) (hcreate : tunnelCreate heapOps env params = .created s₀)
    (hrun : Run (Step heapOps) s₀ tr s)
    (hadds : ∀ e ∈ tr, AdmitsOnly (Admitted s₀.tunnel (defaultEndpoint env params)) e.pre e.act) :
    Admission (defaultEndpoint env params) s₀ s tr := by
  obtain ⟨h₀, hclosed⟩ := admitInv_created hcreate
  have hidle : ∀ w, (s₀.workers w).pc = .start := fun w => by rw [(tunnelCreate_created hcreate).1]
  have hinv : ∀ {tr u}, Run (Step heapOps) s₀ tr u →
      (∀ e ∈ tr, AdmitsOnly (Admitted s₀.tunnel (defaultEndpoint env params)) e.pre e.act) →
        AdmitInv (HeapAdmits (Admitted s₀.tunnel (defaultEndpoint env params)))
          (Admitted s₀.tunnel (defaultEndpoint env params)) u := fun hrun hadds =>
    hrun.invariant_of (fun _ _ _ hu honly hstep => hu.heap_step honly hstep) hadds h₀
  refine ⟨?_, fun hnone => ?_, ?_⟩
  · rintro tr₁ tr₂ u v w fd bytes r now rfl
    obtain ⟨d, hlast, -, hbytes, tev, rest, id, hpc⟩ := write_carries hidle h₀.size hrun
    have hu := hinv hrun.cut.1 fun e he => hadds e (List.mem_append_left _ he)
    exact ⟨d, hlast, hbytes, hu.admits w (.write id (d.cut _)) (by rw [hpc]; rfl)⟩
  · obtain ⟨e, hdflt, hnum, hremote⟩ := hclosed hnone
    have hsame := hrun.invariant_of
      (I := fun u => AdmitInv (HeapAdmits (Admitted s₀.tunnel (defaultEndpoint env params)))
          (Admitted s₀.tunnel (defaultEndpoint env params)) u ∧ u.tunnel.allowedAddrList = none ∧
        u.tunnel.numTapDevs = s₀.tunnel.numTapDevs ∧ u.tunnel.remote = s₀.tunnel.remote)
      (fun u wa v hu honly hstep => ?_) hadds ⟨h₀, hnone, rfl, rfl⟩
    · exact ⟨e, hdflt, hsame.2.2.1.trans hnum, by rw [hsame.2.2.2]; exact hremote⟩
    · obtain ⟨hadm, hlist, hnumTap, hrem⟩ := hu
      have hs := hstep.stepOf.2.2
      obtain ⟨hnum', hrem'⟩ := hadm.closed hs hlist
      exact ⟨hadm.heap_step honly hstep, (hs.extends hadm.size).allowed.trans hlist,
        hnum'.trans hnumTap, hrem'.trans hrem⟩
  · intro e he d hA hd
    obtain ⟨tr₁, tr₂, rfl⟩ := List.append_of_mem he
    obtain ⟨hpre, hstep, -⟩ := hrun.cut
    have hu := hinv hpre fun e he => hadds e (List.mem_append_left _ he)
    have hs := hstep.stepOf.2.2
    rcases hd with hd | hd
    · exact hs.tunnel_of_received hd
    · exact hu.refused hs hd hA

/-- A run that fills the table, grows it where it is, and admits no stranger. -/
theorem admission_grown : ∃ s₀ s tr,
    tunnelCreate heapOps (openEnv (heapEnv (.inPlace fun _ => {}))) (openParams 2) = .created s₀ ∧
      Run (Step heapOps) s₀ tr s ∧ s.tunnel.numTapDevs = 33 ∧ Admission none s₀ s tr := by
  obtain ⟨s₀, s, tr, hcreate, hrun, hnum, htr⟩ := exists_peerRun
  refine ⟨s₀, s, tr, hcreate, hrun, hnum, admission _ _ s₀ s tr hcreate hrun ?_⟩
  intro e he env m hact hm hfull
  rw [(htr e he).2 env hact]
  constructor
  · rintro tail ⟨⟩
  · intro i _ hpresent
    cases hpresent

/-- An endpoint of the unspecified address `::`. -/
def stranger : Endpoint := ⟨⟨0⟩, 5⟩

/-- Memory that holds what looks like an entry of the stranger. -/
def strangeTail (i : ℕ) : EndpointMapEntry :=
  if i = 0 then { remoteAddr := stranger.addr, port := stranger.port, tapId := 0, present := true }
  else {}

/-- The table grows by such memory, and the stranger sends a datagram. -/
def strangerActions : List (Action HeapEnv) :=
  peerActions (.inPlace strangeTail) 33 ++
    [.recvfrom (some ⟨true, stranger, [9]⟩), .lookup (heapEnv (.inPlace strangeTail))]

/-- **A stranger gets through** to the first device, once the table has grown by memory
that looks like its entry. -/
theorem admission_fails : ¬ ∀ (env : CreateEnv HeapEnv) (params : TunnelParams)
    (s₀ s : Sys MapHeap) (tr : Trace MapHeap HeapEnv),
    tunnelCreate heapOps env params = .created s₀ → Run (Step heapOps) s₀ tr s →
      Admission (defaultEndpoint env params) s₀ s tr := by
  intro h
  have hreplay : ∃ s₀ : Sys MapHeap,
      tunnelCreate heapOps (openEnv (heapEnv (.inPlace strangeTail))) (openParams 2) = .created s₀ ∧
      s₀.tunnel.allows stranger.addr = false ∧
      (replay heapOps s₀ 0 strangerActions).any
        (fun s => (sysStep heapOps s (0, .write 100 [9] (some 1) 0)).isSome) = true :=
    ⟨_, rfl, by decide +kernel, by decide +kernel⟩
  obtain ⟨s₀, hcreate, hallows, hany⟩ := hreplay
  obtain ⟨s, hs, hp⟩ := (Option.any_eq_true _ _).1 hany
  obtain ⟨s', hs'⟩ := Option.isSome_iff_exists.1 hp
  obtain ⟨tr, hrun, hacts⟩ := run_of_exec hs
  obtain ⟨d, hlast, -, hadm⟩ :=
    (h _ _ s₀ s' _ hcreate (hrun.snoc hs')).writes tr [] s s' 0 100 [9] (some 1) 0 rfl
  have hlast' : (received 0 tr).getLast? = some ⟨true, stranger, [9]⟩ := by
    unfold received
    rw [byWorker_of_acts hacts, strangerActions, List.filterMap_append]
    exact List.getLast?_concat
  obtain rfl := Option.some.inj (hlast'.symm.trans hlast)
  rcases hadm with hdflt | hallow
  · cases hdflt
  · rw [hallows] at hallow
    cases hallow

end UdpEthTunnel
