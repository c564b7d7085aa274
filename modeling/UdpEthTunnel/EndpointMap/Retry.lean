/-
# The retry loop of `endpoint_map_add`

The rebuild loop draws fresh nonces until a pass goes through, without a bound
and without growing the table.  `rebuild_possible_iff` says from which maps some
draw can end it: those whose endpoints, with the new one, are `Separable`.  The
condition is about the endpoints and the size of the table only; where it fails
the loop runs forever, under the write lock of the tunnel, whatever `rand()`
returns (`endpointMapAdd_eq_none`).

It fails already for three hosts of a network of IPv4 peers that all send from
the same port, the set-up of Example 2 of `README.md`
(`rebuild_not_always_possible`): the four address bytes that `hash_small` reads
are zero in all of them.
-/

import UdpEthTunnel.EndpointMap.Separation

namespace UdpEthTunnel

namespace EndpointMap

variable {m m' : EndpointMap} {e : Endpoint} {tapId : Int} {env : AddEnv} {passes : ℕ}
  {out : AddOutcome}

/-- The maps that `endpoint_map_create` and any calls of `endpoint_map_add` return. -/
inductive Reachable : EndpointMap → Prop
  | create {calloc : Bool} {rand : ℕ → Rand} {m : EndpointMap} :
      endpointMapCreate calloc rand = some m → Reachable m
  | add {m m' : EndpointMap} {env : AddEnv} {passes : ℕ} {e : Endpoint} {tapId : Int}
      {out : AddOutcome} : Reachable m → endpointMapAdd env passes m e tapId = some out →
      out.ret = some m' → Reachable m'

/-- The table the rebuild loop of `endpoint_map_add` works on: a full one has been
doubled, and `tail` is the memory `realloc` appended. -/
def rebuilt (m : EndpointMap) (tail : ℕ → EndpointMapEntry) : EndpointMap :=
  if m.numEntries ≥ m.allocEntries then m.grow tail else m

/-- A table is kept or doubled, so its size stays a power of two of at least 32. -/
theorem Reachable.size (h : Reachable m) : (∃ n, m.allocEntries = 2 ^ n) ∧ 32 ≤ m.allocEntries := by
  induction h with
  | create h => exact ⟨(wellFormed_create h).pow, (wellFormed_create h).large⟩
  | @add m m' env passes e tapId out _ h hret ih =>
    obtain ⟨⟨n, hn⟩, hl⟩ := ih
    have hgrown : ∀ tail a b m₁, rebuildPass (m.grow tail) (m.grow tail).entries a b e tapId = some m₁ →
        (∃ n, m₁.allocEntries = 2 ^ n) ∧ 32 ≤ m₁.allocEntries := by
      intro tail a b m₁ hpass
      have hgrow : (m.grow tail).allocEntries = 2 ^ (n + 1) := by rw [alloc_grow, hn, pow_succ]
      have hlarge : 32 ≤ (m.grow tail).allocEntries := by rw [alloc_grow]; omega
      rw [(rebuildPass_spec ⟨_, hgrow⟩ hlarge hpass).2.1]
      exact ⟨⟨_, hgrow⟩, hlarge⟩
    cases addOf h with
    | direct m₁ _ hi =>
      obtain rfl := Option.some.inj hret
      rw [(tryInsert_sameSlots hi).alloc]
      exact ⟨⟨n, hn⟩, hl⟩
    | rebuilt m₁ a b _ hpass =>
      obtain rfl := Option.some.inj hret
      rw [(rebuildPass_spec ⟨n, hn⟩ hl hpass).2.1]
      exact ⟨⟨n, hn⟩, hl⟩
    | grown tail m₁ a b _ _ hpass => exact Option.some.inj hret ▸ hgrown tail a b m₁ hpass
    | grownMoved tail m₁ a b _ _ hpass => exact Option.some.inj hret ▸ hgrown tail a b m₁ hpass
    | noCopy | noGrowth | noCopyGrown | noCopyMoved => cases hret

theorem Reachable.size_rebuilt (h : Reachable m) (tail : ℕ → EndpointMapEntry) :
    (∃ n, (m.rebuilt tail).allocEntries = 2 ^ n) ∧ 32 ≤ (m.rebuilt tail).allocEntries := by
  obtain ⟨⟨n, hn⟩, hl⟩ := h.size
  unfold rebuilt
  split_ifs
  · exact ⟨⟨n + 1, by rw [alloc_grow, hn, pow_succ]⟩, by rw [alloc_grow]; omega⟩
  · exact ⟨⟨n, hn⟩, hl⟩

/-- A table whose endpoints cannot be told apart keeps the rebuild loop running. -/
theorem rebuildLoop_eq_none (hp : ∃ n, m.allocEntries = 2 ^ n) (hl : 32 ≤ m.allocEntries)
    (h : ¬ m.Separable (insert e (keys m.entries))) (rand : ℕ → Rand) :
    rebuildLoop m m.entries e tapId passes rand = none := by
  rw [Option.eq_none_iff_forall_ne_some]
  intro m' hloop
  obtain ⟨a, b, hpass⟩ := rebuildLoop_pass hloop
  exact h ((exists_rebuildPass_iff hp hl _ _ _).1 ⟨a, b, by rw [hpass]; rfl⟩)

/-- **Where no pass can succeed, `endpoint_map_add` does not return**, whatever
`rand()` gives and however many passes are run. -/
theorem endpointMapAdd_eq_none (hm : m.Reachable) (hroom : m.numEntries < m.allocEntries)
    (hi : tryInsert m e tapId = none) (h : ¬ m.Separable (insert e (keys m.entries)))
    (hmalloc : env.malloc = true) : endpointMapAdd env passes m e tapId = none := by
  unfold endpointMapAdd
  simp only [ge_iff_le, Nat.not_le.2 hroom, if_false, hi, hmalloc, if_true]
  rw [rebuildLoop_eq_none hm.size.1 hm.size.2 h]
  rfl

end EndpointMap

open EndpointMap

/-- **When the retry loop can succeed.**  For every map that `endpoint_map_create`
and calls of `endpoint_map_add` lead to, and every further endpoint, some pair of
nonces makes a pass insert every entry of the table and the new endpoint exactly
when these endpoints can be told apart in a table of its size.  Both hashes combine
the nonce with the endpoint by an exclusive or, so two nonces move the slots of all
endpoints alike, and whether they can be told apart is decided without them. -/
theorem rebuild_possible_iff (m : EndpointMap) (h : m.Reachable) (tail : ℕ → EndpointMapEntry)
    (e : Endpoint) (tapId : Int) :
    (∃ a b, (rebuildPass (m.rebuilt tail) (m.rebuilt tail).entries a b e tapId).isSome) ↔
      (m.rebuilt tail).Separable (insert e (keys (m.rebuilt tail).entries)) :=
  exists_rebuildPass_iff (h.size_rebuilt tail).1 (h.size_rebuilt tail).2 _ _ _

theorem reachable_freshMap : freshMap.Reachable := by
  have hcreate : endpointMapCreate true (fun i => if i = 0 then 0 else 1) = some freshMap := rfl
  exact .create hcreate

/-- The map after two hosts of the network have sent a datagram: a pass can still take in a
host that sends from the next port. -/
theorem exists_twoHosts : ∃ m : EndpointMap, m.Reachable ∧ m.numEntries < m.allocEntries ∧
    m.allocEntries = 32 ∧ switchHost 2 ∈ keys m.entries ∧ switchHost 3 ∈ keys m.entries ∧
    tryInsert m (switchHost 4) 2 = none ∧ (rebuildPass m m.entries 0 2 nextPort 2).isSome := by
  have h₂ : ∃ m, endpointMapAdd quietEnv 0 freshMap (switchHost 2) 0 = some (.kept m) ∧
      ∃ m', endpointMapAdd quietEnv 0 m (switchHost 3) 1 = some (.kept m') ∧
        m'.numEntries < m'.allocEntries ∧ m'.allocEntries = 32 ∧
        switchHost 2 ∈ keys m'.entries ∧ switchHost 3 ∈ keys m'.entries ∧
        (tryInsert m' (switchHost 4) 2).isNone = true ∧
        (rebuildPass m' m'.entries 0 2 nextPort 2).isSome :=
    ⟨_, rfl, _, rfl, by decide, rfl, by decide, by decide, by decide, by decide⟩
  obtain ⟨m, hm, m', hm', hrest⟩ := h₂
  obtain ⟨hroom, halloc, hk₂, hk₃, hnone, hpass⟩ := hrest
  exact ⟨m', .add (.add reachable_freshMap hm rfl) hm' rfl, hroom, halloc, hk₂, hk₃,
    Option.isNone_iff_eq_none.1 hnone, hpass⟩

/-- Three hosts of one network cannot be told apart in the first table. -/
theorem not_separable_switchHosts {m : EndpointMap} (hm : m.allocEntries = 32)
    (h₂ : switchHost 2 ∈ keys m.entries) (h₃ : switchHost 3 ∈ keys m.entries) :
    ¬ m.Separable (insert (switchHost 4) (keys m.entries)) := by
  have hslot : ∀ e, m.slot 0 e = (hashSmall e 0).toNat &&& 31 := by
    intro e
    simp [slot, hm]
  refine not_separable_of_three (Finset.mem_insert_self ..) (Finset.mem_insert_of_mem h₂)
    (Finset.mem_insert_of_mem h₃) (by decide) (by decide) (by decide) ?_ ?_
  · rw [hslot, hslot]
    decide
  · rw [hslot, hslot]
    decide

/-- After two hosts of the network, a host that sends from the next port can be told apart from
them, because a pass takes it in; and no pass takes in a third that sends from their port, because
it cannot. -/
theorem rebuild_possible_iff_twoHosts : ∃ m : EndpointMap, m.Reachable ∧
    switchHost 2 ∈ keys m.entries ∧ switchHost 3 ∈ keys m.entries ∧
    m.Separable (insert nextPort (keys m.entries)) ∧
    ¬ ∃ a b, (rebuildPass m m.entries a b (switchHost 4) 2).isSome := by
  obtain ⟨m, hm, hroom, halloc, h₂, h₃, -, hpass⟩ := exists_twoHosts
  have hnext := rebuild_possible_iff m hm (fun _ => {}) nextPort 2
  have hthird := rebuild_possible_iff m hm (fun _ => {}) (switchHost 4) 2
  rw [show m.rebuilt (fun _ => {}) = m from if_neg (by omega)] at hnext hthird
  exact ⟨m, hm, h₂, h₃, hnext.1 ⟨0, 2, hpass⟩, mt hthird.1 (not_separable_switchHosts halloc h₂ h₃)⟩

/-- **Some maps leave the loop no way out**: after two hosts of the network of
Example 2, no pair of nonces lets a pass insert a third, and the call that adds
it does not return whatever `rand()` gives. -/
theorem rebuild_not_always_possible :
    (¬ ∀ m : EndpointMap, m.Reachable → ∀ tail e tapId,
      ∃ a b, (rebuildPass (m.rebuilt tail) (m.rebuilt tail).entries a b e tapId).isSome) ∧
    ∃ m : EndpointMap, m.Reachable ∧ ∀ (env : AddEnv) (passes : ℕ), env.malloc = true →
      endpointMapAdd env passes m (switchHost 4) 2 = none := by
  obtain ⟨m, hm, hroom, halloc, h₂, h₃, hinsert, -⟩ := exists_twoHosts
  have hsep := not_separable_switchHosts halloc h₂ h₃
  refine ⟨fun h => ?_, m, hm, fun env passes hmalloc =>
    endpointMapAdd_eq_none hm hroom hinsert hsep hmalloc⟩
  have hkeep : m.rebuilt (fun _ => {}) = m := if_neg (by omega)
  have hpass := h m hm (fun _ => {}) (switchHost 4) 2
  rw [hkeep, exists_rebuildPass_iff hm.size.1 hm.size.2] at hpass
  exact hsep hpass

end UdpEthTunnel
