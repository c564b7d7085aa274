/-
# What `endpoint_map_add` returns

With room in the table, `endpoint_map_add` inserts directly or rebuilds, and
either way the map it returns is the old one updated at the added endpoint
(`WellFormed.add_room`); on a full table it rebuilds the doubled one, whose
appended half is whatever `realloc` put there (`WellFormed.add_full`).
`endpointMapAdd_updates` is the first of these from the empty map on.
-/

import UdpEthTunnel.EndpointMap.Refinement

namespace UdpEthTunnel

open TwoChoice

namespace EndpointMap

variable {m m' : EndpointMap} {e : Endpoint} {tapId : Int} {env : AddEnv} {passes : ℕ}
  {out : AddOutcome}

/-- The ways a call of `endpoint_map_add` can end. -/
inductive AddOf (env : AddEnv) (m : EndpointMap) (e : Endpoint) (tapId : Int) : AddOutcome → Prop
  | direct (m' : EndpointMap) (hroom : m.numEntries < m.allocEntries)
      (hi : UdpEthTunnel.tryInsert m e tapId = some m') : AddOf env m e tapId (.kept m')
  | rebuilt (m' : EndpointMap) (a b : Rand) (hroom : m.numEntries < m.allocEntries)
      (hpass : rebuildPass m m.entries a b e tapId = some m') : AddOf env m e tapId (.kept m')
  | noCopy (hroom : m.numEntries < m.allocEntries)
      (hi : UdpEthTunnel.tryInsert m e tapId = none) (hmalloc : env.malloc = false) :
      AddOf env m e tapId (.nullKept m)
  | noGrowth (hfull : m.allocEntries ≤ m.numEntries) (hr : env.realloc = .failed) :
      AddOf env m e tapId (.nullKept m)
  | grown (tail : ℕ → EndpointMapEntry) (m' : EndpointMap) (a b : Rand)
      (hfull : m.allocEntries ≤ m.numEntries) (hr : env.realloc = .inPlace tail)
      (hpass : rebuildPass (m.grow tail) (m.grow tail).entries a b e tapId = some m') :
      AddOf env m e tapId (.kept m')
  | grownMoved (tail : ℕ → EndpointMapEntry) (m' : EndpointMap) (a b : Rand)
      (hfull : m.allocEntries ≤ m.numEntries) (hr : env.realloc = .moved tail)
      (hpass : rebuildPass (m.grow tail) (m.grow tail).entries a b e tapId = some m') :
      AddOf env m e tapId (.moved m')
  | noCopyGrown (tail : ℕ → EndpointMapEntry) (hfull : m.allocEntries ≤ m.numEntries)
      (hr : env.realloc = .inPlace tail) (hmalloc : env.malloc = false) :
      AddOf env m e tapId (.nullKept (m.grow tail))
  | noCopyMoved (tail : ℕ → EndpointMapEntry) (hfull : m.allocEntries ≤ m.numEntries)
      (hr : env.realloc = .moved tail) (hmalloc : env.malloc = false) :
      AddOf env m e tapId .nullMoved

/-- **There are no other ways.** -/
theorem addOf (h : endpointMapAdd env passes m e tapId = some out) : AddOf env m e tapId out := by
  unfold endpointMapAdd at h
  dsimp only at h
  rcases Nat.lt_or_ge m.numEntries m.allocEntries with hroom | hfull
  · rw [if_neg (Nat.not_le.2 hroom)] at h
    cases hi : UdpEthTunnel.tryInsert m e tapId with
    | some m' =>
      rw [hi] at h
      obtain rfl := Option.some.inj h
      exact .direct m' hroom hi
    | none =>
      rw [hi] at h
      dsimp only at h
      split_ifs at h with hmalloc
      · obtain ⟨m', hloop, rfl⟩ := Option.map_eq_some_iff.1 h
        obtain ⟨a, b, hpass⟩ := rebuildLoop_pass hloop
        exact .rebuilt m' a b hroom hpass
      · obtain rfl := Option.some.inj h
        exact .noCopy hroom hi (by simpa using hmalloc)
  · rw [if_pos hfull] at h
    cases hr : env.realloc with
    | failed =>
      rw [hr] at h
      obtain rfl := Option.some.inj h
      exact .noGrowth hfull hr
    | inPlace tail =>
      rw [hr] at h
      dsimp only at h
      split_ifs at h with hmalloc
      · obtain ⟨m', hloop, rfl⟩ := Option.map_eq_some_iff.1 h
        obtain ⟨a, b, hpass⟩ := rebuildLoop_pass hloop
        exact .grown tail m' a b hfull hr hpass
      · obtain rfl := Option.some.inj h
        exact .noCopyGrown tail hfull hr (by simpa using hmalloc)
    | moved tail =>
      rw [hr] at h
      dsimp only at h
      split_ifs at h with hmalloc
      · obtain ⟨m', hloop, rfl⟩ := Option.map_eq_some_iff.1 h
        obtain ⟨a, b, hpass⟩ := rebuildLoop_pass hloop
        exact .grownMoved tail m' a b hfull hr hpass
      · obtain rfl := Option.some.inj h
        exact .noCopyMoved tail hfull hr (by simpa using hmalloc)

/-- With room in the table, the map returned is in the block that was given. -/
theorem kept_of_room (hroom : m.numEntries < m.allocEntries)
    (h : endpointMapAdd env passes m e tapId = some out) (hret : out.ret = some m') :
    out = .kept m' := by
  cases addOf h <;> first | omega | cases hret
  · rfl
  · rfl

/-- With room in the table, a call returns a map if it inserts directly or gets the
memory for a copy. -/
theorem ret_of_room (hroom : m.numEntries < m.allocEntries)
    (hok : (UdpEthTunnel.tryInsert m e tapId).isSome = true ∨ env.malloc = true)
    (h : endpointMapAdd env passes m e tapId = some out) : ∃ m', out.ret = some m' := by
  cases addOf h with
  | direct m' => exact ⟨m', rfl⟩
  | rebuilt m' => exact ⟨m', rfl⟩
  | noCopy _ hi hmalloc =>
    rw [hi, hmalloc] at hok
    simp at hok
  | _ => omega

/-- An empty table takes every endpoint. -/
theorem tryInsert_create {calloc : Bool} {rand : ℕ → Rand}
    (h : endpointMapCreate calloc rand = some m) (e : Endpoint) (tapId : Int) :
    (UdpEthTunnel.tryInsert m e tapId).isSome = true := by
  unfold endpointMapCreate at h
  split_ifs at h
  have hentries : m.entries = List.replicate 32 {} := by
    rw [← Option.some.inj h]
  have hblank : (m.entry (m.hashA e)).present = false := by
    rw [entry, hentries, List.getD_eq_getElem?_getD, List.getElem?_replicate]
    split_ifs <;> rfl
  unfold UdpEthTunnel.tryInsert tryInsertLoop
  simp [hblank]

/-- On a full table that grows in place, a call returns the block it was given. -/
theorem kept_of_inPlace {tail : ℕ → EndpointMapEntry} (hfull : m.allocEntries ≤ m.numEntries)
    (hrealloc : env.realloc = .inPlace tail) (hmalloc : env.malloc = true)
    (h : endpointMapAdd env passes m e tapId = some out) : ∃ m', out = .kept m' := by
  cases addOf h with
  | grown _ m' => exact ⟨m', rfl⟩
  | noGrowth _ hr => rw [hrealloc] at hr; cases hr
  | grownMoved _ _ _ _ _ hr => rw [hrealloc] at hr; cases hr
  | noCopyMoved _ _ hr => rw [hrealloc] at hr; cases hr
  | noCopyGrown _ _ _ hm => rw [hmalloc] at hm; cases hm
  | _ => omega

/-- **With room in the table, `endpoint_map_add` updates the map.** -/
theorem WellFormed.add_room (hm : m.WellFormed) (hroom : m.numEntries < m.allocEntries)
    (h₀ : 0 ≤ tapId) (hlt : tapId < 2 ^ 30)
    (h : endpointMapAdd env passes m e tapId = some out) (hret : out.ret = some m') :
    m'.WellFormed ∧
      ∀ k, endpointMapLookup m' k = if k = e then tapId else endpointMapLookup m k := by
  cases addOf h with
  | direct m₁ _ hi =>
    obtain rfl := Option.some.inj hret
    exact ⟨hm.tryInsert hi, hm.lookup_tryInsert h₀ hlt hi⟩
  | rebuilt m₁ a b _ hpass =>
    obtain rfl := Option.some.inj hret
    exact ⟨(rebuildPass_spec hm.pow hm.large hpass).1, hm.lookup_rebuild h₀ hlt hpass⟩
  | noCopy => cases hret
  | _ => omega

/-- What the entries that `realloc` appends say of an endpoint: the last of them for
it counts. -/
def appended (m : EndpointMap) (tail : ℕ → EndpointMapEntry) : Endpoint → Option (BitVec 31) :=
  override (fun _ => none) (pairs ((List.range m.allocEntries).map tail))

/-- Zeroed memory says nothing. -/
theorem appended_blank (m : EndpointMap) (k : Endpoint) : m.appended (fun _ => {}) k = none := by
  have hpairs : pairs ((List.range m.allocEntries).map fun _ => ({} : EndpointMapEntry)) = [] := by
    simp [pairs]
  unfold appended
  rw [hpairs]
  rfl

/-- On a full table, a call that returns a map has filled the doubled one. -/
theorem rebuildPass_of_full (hfull : m.allocEntries ≤ m.numEntries)
    (h : endpointMapAdd env passes m e tapId = some out) (hret : out.ret = some m') :
    ∃ tail a b, (env.realloc = .inPlace tail ∧ out = .kept m' ∨
        env.realloc = .moved tail ∧ out = .moved m') ∧
      rebuildPass (m.grow tail) (m.grow tail).entries a b e tapId = some m' := by
  cases addOf h with
  | grown tail m₁ a b _ hr hpass =>
    obtain rfl := Option.some.inj hret
    exact ⟨tail, a, b, .inl ⟨hr, rfl⟩, hpass⟩
  | grownMoved tail m₁ a b _ hr hpass =>
    obtain rfl := Option.some.inj hret
    exact ⟨tail, a, b, .inr ⟨hr, rfl⟩, hpass⟩
  | noGrowth | noCopyGrown | noCopyMoved => cases hret
  | _ => omega

/-- **What fills the doubled table**: the new endpoint, before what the appended memory
says, before the entries that were there. -/
theorem rebuildPass_grow {tail : ℕ → EndpointMapEntry} {a b : Rand} (hm : 0 < m.allocEntries)
    (hpass : rebuildPass (m.grow tail) (m.grow tail).entries a b e tapId = some m') :
    m'.allocEntries = 2 * m.allocEntries ∧ Coherent m'.hashA m'.hashB m'.view ∧
      m'.numEntries = m'.entries.countP (·.present) ∧
      ∀ k, find m'.hashA m'.hashB m'.view k = if k = e then some (.ofInt 31 tapId) else
        (m.appended tail k).or (override (fun _ => none) (pairs m.entries) k) := by
  have hpos : 0 < (m.grow tail).allocEntries := by
    rw [alloc_grow]
    omega
  obtain ⟨halloc, hcoherent, hcount, hfind⟩ := rebuildPass_find hpos hpass
  refine ⟨by rw [halloc, alloc_grow, Nat.mul_comm], hcoherent, hcount, fun k => ?_⟩
  have hpairs : pairs (m.grow tail).entries =
      pairs m.entries ++ pairs ((List.range m.allocEntries).map tail) := by
    simp [pairs, grow]
  rw [hfind, hpairs, override_append, override_append]
  show (if k = e then _ else override _ _ k) = _
  rw [override_eq_or]
  rfl

/-- **On a full table, `endpoint_map_add` updates the map with what `realloc` has
appended to the table**, and then with the new endpoint. -/
theorem WellFormed.add_full (hm : m.WellFormed) (hfull : m.allocEntries ≤ m.numEntries)
    (h₀ : 0 ≤ tapId) (hlt : tapId < 2 ^ 30)
    (h : endpointMapAdd env passes m e tapId = some out) (hret : out.ret = some m') :
    m'.WellFormed ∧ ∃ tail, (env.realloc = .inPlace tail ∧ out = .kept m' ∨
        env.realloc = .moved tail ∧ out = .moved m') ∧
      ∀ k, endpointMapLookup m' k = if k = e then tapId else
        ((m.appended tail k).map BitVec.toInt).getD (endpointMapLookup m k) := by
  obtain ⟨tail, a, b, hout, hpass⟩ := rebuildPass_of_full hfull h hret
  have hl := hm.large
  obtain ⟨halloc, hcoherent, hcount, hfind⟩ := rebuildPass_grow (by omega) hpass
  obtain ⟨n, hn⟩ := hm.pow
  have hpow : ∃ n, m'.allocEntries = 2 ^ n := ⟨n + 1, by rw [halloc, hn, Nat.pow_succ, Nat.mul_comm]⟩
  refine ⟨⟨hpow, by omega, hcoherent, hcount⟩, tail, hout, fun k => ?_⟩
  rw [lookup_eq_find, lookup_eq_find, hfind, hm.override_pairs]
  split_ifs
  · simp [toInt_ofInt_tapId h₀ hlt]
  · cases m.appended tail k <;> rfl

end EndpointMap

/-- **The endpoint map refines a finite map.**  `endpoint_map_create` yields a
well-formed map; and a call of `endpoint_map_add` that finds room and returns,
by the direct insertion, the update in place or a rebuild of any number of
passes, returns a well-formed map that answers `tapId` at the added endpoint and
what the old map answered everywhere else. -/
theorem endpointMapAdd_updates :
    (∀ calloc rand m, endpointMapCreate calloc rand = some m → m.WellFormed) ∧
      ∀ (m : EndpointMap) (e : Endpoint) (tapId : Int) (env : AddEnv) (passes : ℕ)
        (out : AddOutcome) (m' : EndpointMap), m.WellFormed → m.numEntries < m.allocEntries →
        0 ≤ tapId → tapId < 2 ^ 30 → endpointMapAdd env passes m e tapId = some out →
        out.ret = some m' →
        m'.WellFormed ∧
          ∀ k, endpointMapLookup m' k = if k = e then tapId else endpointMapLookup m k :=
  ⟨fun _ _ _ h => EndpointMap.wellFormed_create h,
    fun _ _ _ _ _ _ _ hm hroom h₀ hlt h hret => hm.add_room hroom h₀ hlt h hret⟩

/-- A host `10.10.10.x` that sends from port 1234. -/
def switchHost (x : U8) : Endpoint := ⟨.v4Mapped 10 10 10 x, htons 1234⟩

/-- The C library during a call that needs nothing from it. -/
def quietEnv : AddEnv := { realloc := .failed, malloc := true, rand := fun _ => 0 }

/-- A map under the nonces 0 and 1. -/
def freshMap : EndpointMap :=
  { numEntries := 0, allocEntries := 32, nonceA := 0, nonceB := 1,
    entries := List.replicate 32 {}, size_eq := rfl }

/-- A host of the network that sends from port 1235: under the nonces 0 and 1 its slots are
those of port 1234, the other way round. -/
def nextPort : Endpoint := ⟨.v4Mapped 10 10 10 4, htons 1235⟩

/-- The C library during a call that rebuilds the table, with the nonces 0 and 1 and then
with 0 and 2. -/
def retryEnv : AddEnv :=
  { realloc := .failed, malloc := true,
    rand := fun i => if i = 1 then 1 else if i = 3 then 2 else 0 }

/-- Two hosts have taken both slots of a third.  A pass with the nonces of the table fails; the
next one, with other nonces, gives each of them a slot, and the first two keep their tap ids. -/
theorem endpointMapAdd_updates_rebuild :
    ∃ m₁ m₂ m₃, endpointMapAdd quietEnv 0 freshMap (switchHost 2) 7 = some (.kept m₁) ∧
      endpointMapAdd quietEnv 0 m₁ (switchHost 3) 8 = some (.kept m₂) ∧
      tryInsert m₂ nextPort 9 = none ∧ endpointMapAdd retryEnv 1 m₂ nextPort 9 = none ∧
      endpointMapAdd retryEnv 2 m₂ nextPort 9 = some (.kept m₃) ∧ m₃.WellFormed ∧
      endpointMapLookup m₃ nextPort = 9 ∧ endpointMapLookup m₃ (switchHost 2) = 7 ∧
      endpointMapLookup m₃ (switchHost 4) = -1 := by
  have hcalls : ∃ m₁, endpointMapAdd quietEnv 0 freshMap (switchHost 2) 7 = some (.kept m₁) ∧
      m₁.numEntries < m₁.allocEntries ∧
      ∃ m₂, endpointMapAdd quietEnv 0 m₁ (switchHost 3) 8 = some (.kept m₂) ∧
        m₂.numEntries < m₂.allocEntries ∧ (tryInsert m₂ nextPort 9).isNone = true ∧
        (endpointMapAdd retryEnv 1 m₂ nextPort 9).isNone = true ∧
        ∃ m₃, endpointMapAdd retryEnv 2 m₂ nextPort 9 = some (.kept m₃) :=
    ⟨_, rfl, by decide, _, rfl, by decide, by decide, by decide, _, rfl⟩
  obtain ⟨m₁, h₁, hroom₁, m₂, h₂, hroom₂, hfull, hpass, m₃, h₃⟩ := hcalls
  have hm : freshMap.WellFormed :=
    endpointMapAdd_updates.1 true (fun i => if i = 0 then 0 else 1) freshMap rfl
  obtain ⟨hm₁, hl₁⟩ := endpointMapAdd_updates.2 freshMap (switchHost 2) 7 quietEnv 0 _ m₁ hm
    (by decide) (by decide) (by decide) h₁ rfl
  obtain ⟨hm₂, hl₂⟩ := endpointMapAdd_updates.2 m₁ (switchHost 3) 8 quietEnv 0 _ m₂ hm₁ hroom₁
    (by decide) (by decide) h₂ rfl
  obtain ⟨hm₃, hl₃⟩ := endpointMapAdd_updates.2 m₂ nextPort 9 retryEnv 2 _ m₃ hm₂ hroom₂
    (by decide) (by decide) h₃ rfl
  refine ⟨m₁, m₂, m₃, h₁, h₂, Option.isNone_iff_eq_none.1 hfull, Option.isNone_iff_eq_none.1 hpass,
    h₃, hm₃, ?_, ?_, ?_⟩
  · rw [hl₃, if_pos rfl]
  · rw [hl₃, if_neg (by decide), hl₂, if_neg (by decide), hl₁, if_pos rfl]
  · rw [hl₃, if_neg (by decide), hl₂, if_neg (by decide), hl₁, if_neg (by decide)]
    rfl

end UdpEthTunnel
