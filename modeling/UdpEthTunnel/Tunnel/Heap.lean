/-
# The endpoint map in memory

The endpoint map as the tunnel really uses it: a table in a block of memory that
`t->map` points to.  `endpoint_map_add` may move the table and release the block it
was given; `tunnel_create` assigns the pointer it returns to `t->map`, and
`worker_thread` drops it.

A block is named by its place in the order of the allocations.  What a call finds in
a block that has been released is up to the allocator (`HeapEnv.stale`,
`HeapEnv.wreck`).
-/

import UdpEthTunnel.EndpointMap.Add
import UdpEthTunnel.Tunnel.Basic

namespace UdpEthTunnel

/-- The memory of the endpoint map. -/
structure MapHeap where
  /-- the tables, in the order of their allocation; `none` once released -/
  blocks : List (Option EndpointMap)
  /-- `t->map` -/
  map : Option ℕ
  /-- what `endpoint_map_create` and, since then, `endpoint_map_add` returned last,
  `NULL` apart -/
  returned : Option ℕ

namespace MapHeap

/-- The table at an address. -/
def table (h : MapHeap) (p : ℕ) : Option EndpointMap := h.blocks[p]?.join

/-- The table `t->map` points to, when it is a live one. -/
def live (h : MapHeap) : Option EndpointMap := h.map.bind h.table

/-- The memory after a call of `endpoint_map_add` on the block at `p`, and the pointer
the call returns. -/
def afterAdd (h : MapHeap) (p : ℕ) : AddOutcome → Option ℕ × MapHeap
  | .kept m => (some p, { h with blocks := h.blocks.set p (some m), returned := some p })
  | .moved m =>
    let new := h.blocks.length
    (some new, { h with blocks := h.blocks.set p none ++ [some m], returned := some new })
  | .nullKept m => (none, { h with blocks := h.blocks.set p (some m) })
  | .nullMoved => (none, { h with blocks := h.blocks.set p none })

end MapHeap

/-- What the C library does during a call into the endpoint map. -/
structure HeapEnv where
  calloc : Bool
  rand : ℕ → Rand
  add : AddEnv
  /-- how many passes of the rebuild loop are waited for -/
  passes : ℕ
  /-- what a lookup in a released block ends in -/
  stale : MapCall Int
  /-- what adding to a released block ends in -/
  wreck : MapCall (Option ℕ × MapHeap)

/-- `endpoint_map_add(t->map, &addr, port, tap_id)`: the pointer it returns, and the
memory after it. -/
def heapAdd (env : HeapEnv) (h : MapHeap) (e : Endpoint) (id : ℕ) : MapCall (Option ℕ × MapHeap) :=
  match h.map with
  | none => .crash
  | some p =>
    match h.table p with
    | none => env.wreck
    | some m =>
      match endpointMapAdd env.add env.passes m e id with
      | none => .stuck
      | some out => .ret (h.afterAdd p out)

/-- The endpoint map in memory. -/
def heapOps : MapOps MapHeap HeapEnv where
  create env :=
    match endpointMapCreate env.calloc env.rand with
    | none => { blocks := [], map := none, returned := none }
    | some m => { blocks := [some m], map := some 0, returned := some 0 }
  lookup env h e :=
    match h.map with
    | none => .crash
    | some p =>
      match h.table p with
      | none => env.stale
      | some m => .ret (endpointMapLookup m e)
  addAssign env h e id :=
    match heapAdd env h e id with
    | .stuck => .stuck
    | .crash => .crash
    | .ret (none, _) => .ret none
    | .ret (some p, h) => .ret (some { h with map := some p })
  add env h e id :=
    match heapAdd env h e id with
    | .stuck => .stuck
    | .crash => .crash
    | .ret (_, h) => .ret h

section Heap

variable {h h' : MapHeap} {m : EndpointMap} {env : HeapEnv} {e : Endpoint} {id p : ℕ} {i : Int}

theorem MapHeap.live_eq_some : h.live = some m ↔ ∃ p, h.map = some p ∧ h.table p = some m :=
  Option.bind_eq_some_iff

theorem MapHeap.lt_of_table (hp : h.table p = some m) : p < h.blocks.length := by
  unfold table at hp
  by_contra hlt
  rw [List.getElem?_eq_none (Nat.le_of_not_lt hlt)] at hp
  cases hp

/-- What the block at `p` holds after the call. -/
theorem MapHeap.table_afterAdd (hp : h.table p = some m) (out : AddOutcome) :
    (h.afterAdd p out).2.table p = match out with
      | .kept m' | .nullKept m' => some m'
      | .moved _ | .nullMoved => none := by
  have hlt := h.lt_of_table hp
  unfold table afterAdd
  cases out with
  | moved m' =>
    show (h.blocks.set p none ++ [some m'])[p]?.join = none
    rw [List.getElem?_append_left (by rwa [List.length_set]), List.getElem?_set_self hlt]
    rfl
  | _ => simp [hlt]

theorem heapLookup_of_live (hm : h.live = some m) :
    heapOps.lookup env h e = .ret (endpointMapLookup m e) := by
  obtain ⟨p, hmap, hp⟩ := MapHeap.live_eq_some.1 hm
  simp [heapOps, hmap, hp]

/-- **What a call of `endpoint_map_add` does to a live table.** -/
theorem heapAdd_of_live {x : Option ℕ × MapHeap} (hm : h.live = some m)
    (hadd : heapAdd env h e id = .ret x) : ∃ p out, h.map = some p ∧ h.table p = some m ∧
      endpointMapAdd env.add env.passes m e id = some out ∧ x = h.afterAdd p out := by
  obtain ⟨p, hmap, hp⟩ := MapHeap.live_eq_some.1 hm
  simp only [heapAdd, hmap, hp] at hadd
  cases hout : endpointMapAdd env.add env.passes m e id with
  | none =>
    rw [hout] at hadd
    cases hadd
  | some out =>
    rw [hout] at hadd
    injection hadd with hadd
    exact ⟨p, out, hmap, hp, rfl, hadd.symm⟩

theorem heapOps_add (hadd : heapOps.add env h e id = .ret h') :
    ∃ p, heapAdd env h e id = .ret (p, h') := by
  simp only [heapOps] at hadd
  split at hadd
  case h_1 => cases hadd
  case h_2 => cases hadd
  case h_3 p h₁ hret =>
    injection hadd with hadd
    exact ⟨p, hadd ▸ hret⟩

theorem heapOps_addAssign (hadd : heapOps.addAssign env h e id = .ret (some h')) :
    ∃ p h₁, heapAdd env h e id = .ret (some p, h₁) ∧ h' = { h₁ with map := some p } := by
  simp only [heapOps] at hadd
  split at hadd
  case h_1 => cases hadd
  case h_2 => cases hadd
  case h_3 => cases hadd
  case h_4 p h₁ hret =>
    injection hadd with hadd
    exact ⟨p, h₁, hret, (Option.some.inj hadd).symm⟩

/-- `endpoint_map_create` gives a live, empty table, which is the one returned, or
`NULL`. -/
theorem heapCreate_cases (env : HeapEnv) :
    (env.calloc = false ∧ (heapOps.create env).map = none) ∨
      ∃ m, endpointMapCreate env.calloc env.rand = some m ∧ m.numEntries = 0 ∧
        (heapOps.create env).live = some m ∧
        (heapOps.create env).map = (heapOps.create env).returned := by
  cases hc : env.calloc with
  | false =>
    have hm : endpointMapCreate env.calloc env.rand = none := by rw [hc]; rfl
    exact .inl ⟨rfl, by simp only [heapOps, hm]⟩
  | true =>
    have hm : ∃ m, endpointMapCreate env.calloc env.rand = some m ∧ m.numEntries = 0 := by
      rw [hc]
      exact ⟨_, rfl, rfl⟩
    obtain ⟨m, hm, hnum⟩ := hm
    refine .inr ⟨m, by rwa [hc] at hm, hnum, ?_⟩
    simp only [heapOps, hm]
    exact ⟨rfl, trivial⟩

/-- **The new table has room for the default endpoint**, which is added where it is. -/
theorem heapAdd_create {env' : HeapEnv} {x : Option ℕ × MapHeap}
    (hadd : heapAdd env' (heapOps.create env) e id = .ret x) :
    ∃ m m' p, endpointMapCreate env.calloc env.rand = some m ∧ m.numEntries < m.allocEntries ∧
      (heapOps.create env).table p = some m ∧
      endpointMapAdd env'.add env'.passes m e id = some (.kept m') ∧
      x = (heapOps.create env).afterAdd p (.kept m') := by
  rcases heapCreate_cases env with ⟨-, hnull⟩ | ⟨m, hm, hnum, hlive, -⟩
  · simp only [heapAdd, hnull] at hadd
    cases hadd
  · have hroom : m.numEntries < m.allocEntries := by
      have hl := (EndpointMap.wellFormed_create hm).large
      omega
    obtain ⟨p, out, -, hp, hout, hx⟩ := heapAdd_of_live hlive hadd
    obtain ⟨m', hret⟩ :=
      EndpointMap.ret_of_room hroom (.inl (EndpointMap.tryInsert_create hm e id)) hout
    obtain rfl := EndpointMap.kept_of_room hroom hout hret
    exact ⟨m, m', p, hm, hroom, hp, hout, hx⟩

theorem heapAddAssign_create {env' : HeapEnv}
    (hadd : heapOps.addAssign env' (heapOps.create env) e 0 = .ret (some h')) :
    ∃ m m', endpointMapCreate env.calloc env.rand = some m ∧
      m.numEntries < m.allocEntries ∧
      endpointMapAdd env'.add env'.passes m e (0 : ℕ) = some (.kept m') ∧ h'.map = h'.returned ∧
      h'.live = some m' := by
  obtain ⟨q, h₁, hcall, rfl⟩ := heapOps_addAssign hadd
  obtain ⟨m, m', p, hm, hroom, hp, hout, hx⟩ := heapAdd_create hcall
  obtain rfl : q = p := Option.some.inj (congrArg Prod.fst hx)
  obtain rfl : h₁ = ((heapOps.create env).afterAdd q (.kept m')).2 := congrArg Prod.snd hx
  exact ⟨m, m', hm, hroom, hout, rfl,
    MapHeap.live_eq_some.2 ⟨q, rfl, MapHeap.table_afterAdd hp (.kept m')⟩⟩

/-- Adding to the new table never fails. -/
theorem heapAddAssign_create_ne_null {env' : HeapEnv} :
    heapOps.addAssign env' (heapOps.create env) e id ≠ .ret none := by
  intro hadd
  simp only [heapOps] at hadd
  split at hadd
  case h_1 => cases hadd
  case h_2 => cases hadd
  case h_3 h₁ hcall =>
    obtain ⟨m, m', p, -, -, -, -, hx⟩ := heapAdd_create hcall
    cases congrArg Prod.fst hx
  case h_4 => cases hadd

end Heap

/-- A C library that draws the nonces 0 and 1, and that reallocates by `r`. -/
def heapEnv (r : Realloc) : HeapEnv :=
  { calloc := true, rand := fun i => .ofNat 31 (i % 2),
    add := { realloc := r, malloc := true, rand := fun i => .ofNat 31 (i % 2) }, passes := 1,
    stale := .ret 0, wreck := .stuck }

end UdpEthTunnel
