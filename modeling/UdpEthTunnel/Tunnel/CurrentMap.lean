/-
# Is `t->map` the current table?

`worker_thread` calls `endpoint_map_add` for its effect and drops the pointer it
returns.  That is right as long as every such call succeeds and leaves the table
where it is (`SoundAdd`): then `t->map` is, along every run, the live table returned
last, and every device is found in it, once the call for it has returned
(`currentMap`).  It returns if some pass of the rebuild loop draws nonces that leave
every endpoint a slot (`NoncesFit`), and only then.  A full table that `realloc`
moves leaves `t->map` pointing to the block that was released
(`currentMap_fails`).
-/

import UdpEthTunnel.EndpointMap.Assignment
import UdpEthTunnel.EndpointMap.Retry
import UdpEthTunnel.Tunnel.Agreement
import UdpEthTunnel.Tunnel.Heap
import UdpEthTunnel.Tunnel.Trace

namespace UdpEthTunnel

open Tunnel Runs EndpointMap

/-- A call of `endpoint_map_add` for a new endpoint that succeeds, leaves the table
in its block, and loses none of its entries: memory that `realloc` appends in place
is read as entries of the table, and may give an endpoint another tap id. -/
def SoundAdd (env : HeapEnv) (m : EndpointMap) (e : Endpoint) (id : ℕ) : Prop :=
  if m.numEntries < m.allocEntries then
    (tryInsert m e id).isSome = true ∨ env.add.malloc = true
  else
    env.add.malloc = true ∧ ∃ tail, env.add.realloc = .inPlace tail ∧
      ∀ k v, m.appended tail k = some v → 0 ≤ endpointMapLookup m k →
        v.toInt = endpointMapLookup m k

/-- **The call ends**: the endpoint goes in directly, or in some pass of the rebuild loop the
nonces leave every endpoint of the table, appended ones included, a slot of its own. -/
def NoncesFit (env : HeapEnv) (m : EndpointMap) (e : Endpoint) (id : ℕ) : Prop :=
  (m.numEntries < m.allocEntries ∧ (tryInsert m e id).isSome = true) ∨
    ∃ tail k, (m.allocEntries ≤ m.numEntries → env.add.realloc = .inPlace tail) ∧
      (m.rebuilt tail).PassFits env.add.rand e k

/-- A step that is sound if it adds to a live table, and then with a tap id that fits
its field. -/
def SoundAdds (s : Sys MapHeap) (wa : ℕ × Action HeapEnv) : Prop :=
  ∀ env m id d, wa.2 = .mapAdd env → s.tunnel.map.live = some m →
    (s.workers wa.1).pc.point = some (.add id d) →
      s.tunnel.numTapDevs ≤ 2 ^ 30 ∧ SoundAdd env m d.src id

/-- `t->map` is the live table most recently returned, and every device is found in
it; a device whose worker is just about to add its endpoint excepted. -/
structure CurrentMap (s : Sys MapHeap) : Prop where
  live : ∃ m, s.tunnel.map.live = some m
  returned : s.tunnel.map.map = s.tunnel.map.returned
  found : ∀ (i : ℕ) (e : Endpoint), i < s.tunnel.numTapDevs → s.tunnel.remote i = some e →
    (∃ m, s.tunnel.map.live = some m ∧ endpointMapLookup m e = i) ∨
      ∃ w tev rest d, (s.workers w).pc = .handle tev rest (.add i d)

/-- A call of `endpoint_map_add` with the current table returns, after some number of passes of
the rebuild loop, and then the device is found. -/
def Returns (s : Sys MapHeap) (env : HeapEnv) (e : Endpoint) (id : ℕ) : Prop :=
  ∃ passes h', heapOps.add { env with passes := passes } s.tunnel.map e id = .ret h' ∧
    ∃ m', h'.live = some m' ∧ endpointMapLookup m' e = id

/-- **What becomes of a device whose endpoint is about to be added**: a sound call returns, and
leaves the device in the table, exactly when its nonces fit. -/
def PendingAdds (s : Sys MapHeap) : Prop :=
  ∀ w id d env m, (s.workers w).pc.point = some (.add id d) → s.tunnel.map.live = some m →
    s.tunnel.numTapDevs ≤ 2 ^ 30 → SoundAdd env m d.src id →
      (Returns s env d.src id ↔ NoncesFit env m d.src id)

/-- The finite map a live table stands for. -/
def heapLook (h : MapHeap) (e : Endpoint) : Option ℕ :=
  h.live.bind fun m => if 0 ≤ endpointMapLookup m e then some (endpointMapLookup m e).toNat else none

/-- A live, well-formed table that was the last one returned. -/
def HeapCurrent (h : MapHeap) : Prop :=
  h.map = h.returned ∧ ∃ m, h.live = some m ∧ m.WellFormed

section CurrentMap

variable {h h' : MapHeap} {m : EndpointMap} {env : HeapEnv} {e : Endpoint} {id i : ℕ}

theorem heapLook_eq_some (hm : h.live = some m) :
    heapLook h e = some i ↔ endpointMapLookup m e = i := by
  unfold heapLook
  rw [hm, Option.bind_some]
  split_ifs with h₀
  · rw [Option.some.injEq]
    omega
  · constructor
    · exact nofun
    · omega

theorem answers_heapOps : Answers heapOps HeapCurrent heapLook := by
  rintro env h e i ⟨-, m, hm, -⟩ hret
  rw [heapLookup_of_live hm] at hret
  injection hret with hret
  unfold heapLook
  rw [hm, Option.bind_some, hret]

/-- A sound call returns the block it was given, updated. -/
theorem SoundAdd.kept {out : AddOutcome} (hs : SoundAdd env m e id) (hid : id < 2 ^ 30)
    (hm : m.WellFormed)
    (h : endpointMapAdd env.add env.passes m e id = some out) : ∃ m', out = .kept m' ∧
      m'.WellFormed ∧ endpointMapLookup m' e = id ∧
        ∀ k, k ≠ e → 0 ≤ endpointMapLookup m k → endpointMapLookup m' k = endpointMapLookup m k := by
  have h₀ : (0 : Int) ≤ id := Int.natCast_nonneg id
  have hlt : (id : Int) < 2 ^ 30 := by omega
  unfold SoundAdd at hs
  split_ifs at hs with hroom
  · obtain ⟨m', hret⟩ := EndpointMap.ret_of_room hroom hs h
    obtain ⟨hm', hlook⟩ := hm.add_room hroom h₀ hlt h hret
    refine ⟨m', EndpointMap.kept_of_room hroom h hret, hm', by rw [hlook, if_pos rfl],
      fun k hk _ => by rw [hlook, if_neg hk]⟩
  · obtain ⟨hmalloc, tail, hrealloc, htail⟩ := hs
    have hfull := Nat.le_of_not_lt hroom
    obtain ⟨m', rfl⟩ := EndpointMap.kept_of_inPlace hfull hrealloc hmalloc h
    obtain ⟨hm', tail', hout, hlook⟩ := hm.add_full hfull h₀ hlt h rfl
    obtain rfl : tail = tail' := by
      rcases hout with ⟨hr, -⟩ | ⟨-, hr⟩
      · rw [hrealloc] at hr
        injection hr
      · cases hr
    refine ⟨m', rfl, hm', by rw [hlook, if_pos rfl], fun k hk hk₀ => ?_⟩
    rw [hlook, if_neg hk]
    cases happ : m.appended tail k with
    | none => rfl
    | some v => exact htail k v happ hk₀

/-- **A sound call adds to the table `t->map` points to.** -/
theorem SoundAdd.adds (hs : SoundAdd env m e id) (hid : id < 2 ^ 30) (hcur : HeapCurrent h)
    (hm : h.live = some m) (hadd : heapOps.add env h e id = .ret h') :
    Adds HeapCurrent heapLook h h' e id := by
  obtain ⟨hret, m₁, hm₁, hwf⟩ := hcur
  obtain rfl : m = m₁ := Option.some.inj (hm.symm.trans hm₁)
  obtain ⟨q, hadd⟩ := heapOps_add hadd
  obtain ⟨p, out, hmap, hp, hout, hx⟩ := heapAdd_of_live hm hadd
  obtain ⟨m', rfl, hm', hself, hothers⟩ := hs.kept hid hwf hout
  obtain rfl : h' = (h.afterAdd p (.kept m')).2 := congrArg Prod.snd hx
  have hlive : (h.afterAdd p (.kept m')).2.live = some m' :=
    MapHeap.live_eq_some.2 ⟨p, hmap, MapHeap.table_afterAdd hp _⟩
  refine ⟨⟨hmap, m', hlive, hm'⟩, (heapLook_eq_some hlive).2 hself, fun k i hk hki => ?_⟩
  rw [heapLook_eq_some hm] at hki
  rw [heapLook_eq_some hlive, hothers k hk (by omega), hki]

/-- **When a sound call ends.** -/
theorem SoundAdd.ends_iff (hs : SoundAdd env m e id) (hm : 0 < m.allocEntries) :
    (∃ passes, (endpointMapAdd env.add passes m e id).isSome = true) ↔ NoncesFit env m e id := by
  unfold SoundAdd at hs
  unfold NoncesFit endpointMapAdd
  split_ifs at hs with hroom
  · have hkeep : ∀ tail, m.rebuilt tail = m := fun tail => if_neg (Nat.not_le.2 hroom)
    simp only [ge_iff_le, Nat.not_le.2 hroom, if_false, hroom, true_and, hkeep, false_imp_iff]
    cases hi : tryInsert m e id with
    | some m' => simp
    | none =>
      have hmalloc : env.add.malloc = true := by simpa [hi] using hs
      simp only [hmalloc, if_true, Option.isSome_map, rebuildLoop_isSome_iff hm]
      constructor
      · rintro ⟨passes, k, -, hfits⟩
        exact .inr ⟨fun _ => {}, k, hfits⟩
      · rintro (hnone | ⟨-, k, hfits⟩)
        · cases hnone
        · exact ⟨k + 1, k, Nat.lt_succ_self k, hfits⟩
  · obtain ⟨hmalloc, tail, hrealloc, -⟩ := hs
    have hfull := Nat.le_of_not_lt hroom
    have hgrow : m.rebuilt tail = m.grow tail := if_pos hfull
    have hlarge : 0 < (m.grow tail).allocEntries := by
      rw [alloc_grow]
      omega
    simp only [ge_iff_le, hfull, if_true, hrealloc, hmalloc, Option.isSome_map,
      rebuildLoop_isSome_iff hlarge, hroom, false_and, false_or, true_imp_iff]
    constructor
    · rintro ⟨passes, k, -, hfits⟩
      exact ⟨tail, k, rfl, hgrow ▸ hfits⟩
    · rintro ⟨tail', k, htail, hfits⟩
      injection htail with htail
      subst htail
      exact ⟨k + 1, k, Nat.lt_succ_self k, hgrow ▸ hfits⟩

/-- **A sound call returns exactly when its nonces fit.** -/
theorem SoundAdd.returns_iff {s : Sys MapHeap} (hs : SoundAdd env m e id) (hid : id < 2 ^ 30)
    (hcur : HeapCurrent s.tunnel.map) (hm : s.tunnel.map.live = some m) :
    Returns s env e id ↔ NoncesFit env m e id := by
  obtain ⟨-, m₁, hm₁, hwf⟩ := hcur
  obtain rfl : m = m₁ := Option.some.inj (hm.symm.trans hm₁)
  have hlarge : 0 < m.allocEntries := Nat.lt_of_lt_of_le (by decide) hwf.large
  rw [← hs.ends_iff hlarge]
  constructor
  · rintro ⟨passes, h', hadd, -⟩
    obtain ⟨q, hadd⟩ := heapOps_add hadd
    obtain ⟨p, out, -, -, hout, -⟩ := heapAdd_of_live hm hadd
    exact ⟨passes, by rw [show endpointMapAdd env.add passes m e id = some out from hout]; rfl⟩
  · rintro ⟨passes, hsome⟩
    obtain ⟨out, hout⟩ := Option.isSome_iff_exists.1 hsome
    obtain ⟨p, hmap, hp⟩ := MapHeap.live_eq_some.1 hm
    obtain ⟨m', rfl, -, hself, -⟩ :=
      (show SoundAdd { env with passes := passes } m e id from hs).kept hid hwf hout
    have hadd : heapAdd { env with passes := passes } s.tunnel.map e id =
        .ret (s.tunnel.map.afterAdd p (.kept m')) := by
      simp only [heapAdd, hmap, hp, hout]
    refine ⟨passes, (s.tunnel.map.afterAdd p (.kept m')).2, ?_, m',
      MapHeap.live_eq_some.2 ⟨p, hmap, MapHeap.table_afterAdd hp _⟩, hself⟩
    simp only [heapOps, hadd]

/-- The device whose endpoint is about to be added is the last one. -/
theorem AgreeInv.id_of_add {Good : MapHeap → Prop} {look : MapHeap → Endpoint → Option ℕ}
    {s : Sys MapHeap} {w : ℕ} {d : Datagram} (h : AgreeInv Good look s)
    (hpc : (s.workers w).pc.point = some (.add id d)) : id + 1 = s.tunnel.numTapDevs := by
  have hw := h.asserts w
  cases hp : (s.workers w).pc with
  | handle tev rest p =>
    rw [hp] at hpc hw
    obtain rfl := Option.some.inj hpc
    exact hw.1
  | _ =>
    rw [hp] at hpc
    cases hpc

variable {cenv : CreateEnv HeapEnv} {params : TunnelParams} {s₀ s : Sys MapHeap}
  {tr : Trace MapHeap HeapEnv}

theorem agreeInv_heap (hcalloc : cenv.mapCreate.calloc = true)
    (hcreate : tunnelCreate heapOps cenv params = .created s₀) (hrun : Run (Step heapOps) s₀ tr s)
    (hadds : ∀ e ∈ tr, SoundAdds e.pre e.act) : AgreeInv HeapCurrent heapLook s := by
  have h₀ : AgreeInv HeapCurrent heapLook s₀ := by
    refine agreeInv_created ?_ (fun h e hadd => ?_) hcreate
    · rcases heapCreate_cases cenv.mapCreate with ⟨hfalse, -⟩ | ⟨m, hm, -, hlive, hret⟩
      · rw [hcalloc] at hfalse
        cases hfalse
      · exact ⟨hret, m, hlive, EndpointMap.wellFormed_create hm⟩
    · obtain ⟨m, m', hm, hroom, hout, hret, hlive⟩ := heapAddAssign_create hadd
      obtain ⟨hwf, hlook⟩ := (EndpointMap.wellFormed_create hm).add_room hroom (by omega) (by omega)
        hout rfl
      refine ⟨⟨hret, m', hlive, hwf⟩, (heapLook_eq_some hlive).2 ?_⟩
      rw [hlook, if_pos rfl]
  refine hrun.invariant_of (I := AgreeInv HeapCurrent heapLook) (G := SoundAdds) ?_ hadds h₀
  rintro u ⟨w, a⟩ v hu hsound hstep
  refine hu.step answers_heapOps hstep fun env id d h' hact hpc _ hret => ?_
  obtain ⟨-, m, hm, -⟩ := hu.good
  obtain ⟨hnum, hs⟩ := hsound env m id d hact hm hpc
  have hid := hu.id_of_add hpc
  exact hs.adds (by omega) hu.good hm hret

end CurrentMap

/-- **`t->map` is the current table**, in every run of the workers of a tunnel whose
calls of `endpoint_map_add` are sound: it is the live table that `endpoint_map_add` returned
last, and every device is found in it, but for one whose endpoint a worker is just about to
add.  That call returns, and leaves the device in the table, exactly when some pass of its
rebuild loop draws nonces that fit; where none does, the worker stays in it for ever. -/
theorem currentMap (env : CreateEnv HeapEnv) (params : TunnelParams) (s₀ s : Sys MapHeap)
    (tr : Trace MapHeap HeapEnv) (hcalloc : env.mapCreate.calloc = true)
    (hcreate : tunnelCreate heapOps env params = .created s₀) (hrun : Run (Step heapOps) s₀ tr s)
    (hadds : ∀ e ∈ tr, SoundAdds e.pre e.act) : CurrentMap s ∧ PendingAdds s := by
  have h := agreeInv_heap hcalloc hcreate hrun hadds
  obtain ⟨hret, m, hm, -⟩ := h.good
  constructor
  · refine ⟨⟨m, hm⟩, hret, fun i e hi hr => ?_⟩
    rcases h.found i e hi hr with hlook | hpending
    · exact .inl ⟨m, hm, (heapLook_eq_some hm).1 hlook⟩
    · exact .inr hpending
  · intro w id d env m hpc hm hnum hs
    have hid := h.id_of_add hpc
    exact hs.returns_iff (by omega) h.good hm

/-- The host 10.10.10.2, from one of its ports. -/
def peer (i : ℕ) : Endpoint := ⟨.v4Mapped 10 10 10 2, .ofNat 16 (32 + i)⟩

/-- A worker wakes up and admits the first `n` peers; 32 of them fill the table. -/
def peerActions (r : Realloc) (n : ℕ) : List (Action HeapEnv) :=
  wakeActions HeapEnv ++ (List.range n).flatMap fun i =>
    admitActions (heapEnv r) (peer i) (100 + 2 * i + ·) (100 + 2 * i)

/-- A table that grows by zeroed memory loses none of its entries. -/
theorem soundAdd_zeroed (m : EndpointMap) (e : Endpoint) (id : ℕ) :
    SoundAdd (heapEnv (.inPlace fun _ => {})) m e id := by
  unfold SoundAdd
  split_ifs with hroom
  · exact .inr rfl
  · refine ⟨rfl, _, rfl, fun k v hv => ?_⟩
    rw [EndpointMap.appended_blank] at hv
    cases hv

/-- A run that fills the table and grows it by zeroed memory where it is. -/
theorem exists_peerRun : ∃ s₀ s tr,
    tunnelCreate heapOps (openEnv (heapEnv (.inPlace fun _ => {}))) (openParams 2) = .created s₀ ∧
      Run (Step heapOps) s₀ tr s ∧ s.tunnel.numTapDevs = 33 ∧
      ∀ e ∈ tr, e.pre.tunnel.numTapDevs ≤ 33 ∧
        ∀ env, e.act.2 = .mapAdd env → env = heapEnv (.inPlace fun _ => {}) := by
  have hreplay : ∃ s₀ : Sys MapHeap,
      tunnelCreate heapOps (openEnv (heapEnv (.inPlace fun _ => {}))) (openParams 2) = .created s₀ ∧
      s₀.tunnel.numTapDevs ≤ s₀.tunnel.tapDevs.length ∧
      (replay heapOps s₀ 0 (peerActions (.inPlace fun _ => {}) 33)).any
        (fun s => s.tunnel.numTapDevs == 33) = true :=
    ⟨_, rfl, Nat.le_refl 0, by decide +kernel⟩
  obtain ⟨s₀, hcreate, hle, hany⟩ := hreplay
  obtain ⟨s, hs, hp⟩ := (Option.any_eq_true _ _).1 hany
  rw [beq_iff_eq] at hp
  obtain ⟨tr, hrun, -, htr⟩ := mem_replay hle hs
  refine ⟨s₀, s, tr, hcreate, hrun, hp, fun e he => ?_⟩
  obtain ⟨hmem, -, hext⟩ := htr e he
  refine ⟨hp ▸ hext.numTapDevs, fun env hact => ?_⟩
  rw [hact] at hmem
  have henv : (∃ i, i < 33) ∧ env = heapEnv (.inPlace fun _ => {}) := by
    simpa [peerActions, wakeActions, admitActions] using hmem
  exact henv.2

/-- A run that fills the table and grows it where it is. -/
theorem currentMap_grown : ∃ s₀ s tr,
    tunnelCreate heapOps (openEnv (heapEnv (.inPlace fun _ => {}))) (openParams 2) = .created s₀ ∧
      Run (Step heapOps) s₀ tr s ∧ s.tunnel.numTapDevs = 33 ∧ CurrentMap s ∧ PendingAdds s := by
  obtain ⟨s₀, s, tr, hcreate, hrun, hnum, htr⟩ := exists_peerRun
  refine ⟨s₀, s, tr, hcreate, hrun, hnum, currentMap _ _ s₀ s tr rfl hcreate hrun ?_⟩
  intro e he env m id d hact hm hpc
  obtain ⟨hle, henv⟩ := htr e he
  rw [henv env hact]
  exact ⟨by omega, soundAdd_zeroed m d.src id⟩

/-- **The 33rd endpoint leaves the tunnel with a released table**, when `realloc` moves
the table it has filled: `t->map` is not assigned. -/
theorem currentMap_fails : ¬ ∀ (env : CreateEnv HeapEnv) (params : TunnelParams)
    (s₀ s : Sys MapHeap) (tr : Trace MapHeap HeapEnv),
    tunnelCreate heapOps env params = .created s₀ → Run (Step heapOps) s₀ tr s → CurrentMap s := by
  intro h
  have hreplay : ∃ s₀ : Sys MapHeap,
      tunnelCreate heapOps (openEnv (heapEnv (.moved fun _ => {}))) (openParams 2) = .created s₀ ∧
      (replay heapOps s₀ 0 (peerActions (.moved fun _ => {}) 33)).any
        (fun s => s.tunnel.map.live.isNone && s.tunnel.map.map != s.tunnel.map.returned) = true :=
    ⟨_, rfl, by decide +kernel⟩
  obtain ⟨s₀, hcreate, hany⟩ := hreplay
  obtain ⟨s, hs, hp⟩ := (Option.any_eq_true _ _).1 hany
  obtain ⟨tr, hrun, -⟩ := run_of_exec hs
  obtain ⟨m, hm⟩ := (h _ _ s₀ s tr hcreate hrun).live
  rw [hm] at hp
  cases hp

end UdpEthTunnel
