/-
# The endpoint map is a finite map

The table of `endpoint_map.c`, read slot by slot (`EndpointMap.view`), is a
two-choice table: `try_insert` is `TwoChoice.put`, `endpoint_map_lookup` is
`TwoChoice.find`, and a pass of the rebuild loop is `TwoChoice.putAll` on the
empty table.  The representation invariant of the map (`EndpointMap.WellFormed`)
is that this table is coherent, together with the size and the count the struct
keeps.  `endpointMapAdd_updates` is the result: whatever way `endpoint_map_add`
takes, the map it returns is well formed and answers like the old one updated
at the added endpoint.
-/

import UdpEthTunnel.EndpointMap.Basic
import UdpEthTunnel.Lib.TwoChoice

namespace UdpEthTunnel

open TwoChoice

namespace EndpointMap

variable {m m' : EndpointMap} {e : Endpoint} {tapId : Int}

/-- The table as a two-choice table: slot `i` holds the endpoint and the tap id
of `entries[i]` when that entry is present. -/
def view (m : EndpointMap) : Table Endpoint (BitVec 31) ℕ := fun i =>
  if (m.entry i).present then some ((m.entry i).endpoint, (m.entry i).tapId) else none

/-- **The representation invariant.**  A power of two of at least 32 slots; every
present entry in one of the two slots of its endpoint, no endpoint present
twice, the first slot of an entry occupied (these three are `Coherent`); and
`num_entries` counts the present entries. -/
structure WellFormed (m : EndpointMap) : Prop where
  pow : ∃ n, m.allocEntries = 2 ^ n
  large : 32 ≤ m.allocEntries
  coherent : Coherent m.hashA m.hashB m.view
  count : m.numEntries = m.entries.countP (·.present)

/-- `m'` has the slots of `m`: the same size and nonces. -/
structure SameSlots (m m' : EndpointMap) : Prop where
  alloc : m'.allocEntries = m.allocEntries
  nonceA : m'.nonceA = m.nonceA
  nonceB : m'.nonceB = m.nonceB

theorem SameSlots.rfl : SameSlots m m := ⟨by rfl, by rfl, by rfl⟩

theorem SameSlots.trans {m'' : EndpointMap} (h : SameSlots m m') (h' : SameSlots m' m'') :
    SameSlots m m'' :=
  ⟨h'.alloc.trans h.alloc, h'.nonceA.trans h.nonceA, h'.nonceB.trans h.nonceB⟩

theorem SameSlots.hashA (h : SameSlots m m') : m'.hashA = m.hashA := by
  funext e
  simp only [EndpointMap.hashA, slot, h.alloc, h.nonceA]

theorem SameSlots.hashB (h : SameSlots m m') : m'.hashB = m.hashB := by
  funext e
  simp only [EndpointMap.hashB, slot, h.alloc, h.nonceB]

theorem sameSlots_setEntry (i : ℕ) (x : EndpointMapEntry) : SameSlots m (m.setEntry i x) :=
  ⟨by rfl, by rfl, by rfl⟩

theorem slot_lt (h : 0 < m.allocEntries) (nonce : U32) (e : Endpoint) :
    m.slot nonce e < m.allocEntries := by
  unfold slot
  split_ifs
  · exact (Nat.and_le_right.trans_lt (Nat.sub_one_lt h.ne'))
  · exact (Nat.and_le_right.trans_lt (Nat.sub_one_lt h.ne'))

theorem entry_setEntry {i : ℕ} (hi : i < m.allocEntries) (x : EndpointMapEntry) (j : ℕ) :
    (m.setEntry i x).entry j = if j = i then x else m.entry j := by
  unfold entry setEntry
  have hlen := m.size_eq
  simp only [List.getD_eq_getElem?_getD, List.getElem?_set]
  split_ifs with h₁ h₂ h₃
  · rfl
  · omega
  · omega
  · omega
  · omega
  · rfl

/-- Writing a present entry is an update of the two-choice table. -/
theorem view_setEntry {i : ℕ} (hi : i < m.allocEntries) {x : EndpointMapEntry}
    (hx : x.present = true) :
    (m.setEntry i x).view = Function.update m.view i (some (x.endpoint, x.tapId)) := by
  funext j
  unfold view
  rw [entry_setEntry hi]
  by_cases hj : j = i
  · subst hj
    simp [hx]
  · simp [hj]

theorem view_eq_some_iff {i : ℕ} {v : BitVec 31} : m.view i = some (e, v) ↔
    (m.entry i).present = true ∧ (m.entry i).endpoint = e ∧ (m.entry i).tapId = v := by
  unfold view
  split_ifs with h <;> simp [h]

/-- Where every entry stands in the first slot of its endpoint. -/
theorem eq_hashA_of_view (h : ∀ i < m.allocEntries, m.hashA (m.entry i).endpoint = i) {i : ℕ}
    {k : Endpoint} {v : BitVec 31} (hv : m.view i = some (k, v)) : i = m.hashA k := by
  obtain ⟨hp, rfl, -⟩ := view_eq_some_iff.1 hv
  by_cases hi : i < m.allocEntries
  · exact (h i hi).symm
  · rw [← m.size_eq] at hi
    simp [entry, List.getD_eq_getElem?_getD, hi] at hp

/-- The comparison of the code is equality of endpoints. -/
theorem endpoint_eq_iff (x : EndpointMapEntry) :
    (e.addr.addr = x.remoteAddr.addr ∧ x.port = e.port) ↔ x.endpoint = e := by
  obtain ⟨⟨addr⟩, port⟩ := e
  obtain ⟨⟨addr'⟩, port', present, tapId⟩ := x
  simp [EndpointMapEntry.endpoint, eq_comm]

/-! ### `try_insert` and `endpoint_map_lookup` -/

/-- **`try_insert` is `put`.** -/
theorem view_tryInsert (h : 0 < m.allocEntries) (e : Endpoint) (tapId : Int) :
    (tryInsert m e tapId).map view = put m.hashA m.hashB m.view e (.ofInt 31 tapId) := by
  have hA : m.hashA e < m.allocEntries := slot_lt h _ e
  have hB : m.hashB e < m.allocEntries := slot_lt h _ e
  have hkeep : ∀ {i}, i < m.allocEntries → (m.entry i).present = true → (m.entry i).endpoint = e →
      (m.setEntry i { m.entry i with tapId := .ofInt 31 tapId }).view =
        Function.update m.view i (some (e, .ofInt 31 tapId)) := by
    intro i hi hp he
    rw [view_setEntry hi (by exact hp), ← he]
    rfl
  have hnew : ∀ {i}, i < m.allocEntries → ∀ n, view
      { m.setEntry i { remoteAddr := e.addr, port := e.port, tapId := .ofInt 31 tapId,
                       present := true } with numEntries := n } =
        Function.update m.view i (some (e, .ofInt 31 tapId)) := by
    intro i hi n
    exact view_setEntry hi rfl
  unfold tryInsert put
  simp only [tryInsertLoop, endpoint_eq_iff]
  by_cases hpA : (m.entry (m.hashA e)).present = true
  · have hvA : m.view (m.hashA e) =
        some ((m.entry (m.hashA e)).endpoint, (m.entry (m.hashA e)).tapId) := if_pos hpA
    rw [if_pos hpA, hvA]
    by_cases heA : (m.entry (m.hashA e)).endpoint = e
    · simp only [heA, if_true, Option.map_some, hkeep hA hpA heA]
    · simp only [heA, if_false]
      by_cases hpB : (m.entry (m.hashB e)).present = true
      · have hvB : m.view (m.hashB e) =
            some ((m.entry (m.hashB e)).endpoint, (m.entry (m.hashB e)).tapId) := if_pos hpB
        rw [if_pos hpB, hvB]
        by_cases heB : (m.entry (m.hashB e)).endpoint = e
        · simp only [heB, if_true, Option.map_some, hkeep hB hpB heB]
        · simp only [heB, if_false, Option.map_none]
      · have hvB : m.view (m.hashB e) = none := if_neg hpB
        rw [if_neg hpB, hvB, Option.map_some, hnew hB]
  · have hvA : m.view (m.hashA e) = none := if_neg hpA
    rw [if_neg hpA, hvA, Option.map_some, hnew hA]

/-- What `try_insert` writes: a new tap id into the present entry of the endpoint, or
a fresh entry into a free slot. -/
theorem tryInsert_cases (h : tryInsert m e tapId = some m') :
    ∃ i, (i = m.hashA e ∨ i = m.hashB e) ∧
      (((m.entry i).present = true ∧ (m.entry i).endpoint = e ∧
          m' = m.setEntry i { m.entry i with tapId := .ofInt 31 tapId }) ∨
        ((m.entry i).present = false ∧
          m' = { m.setEntry i { remoteAddr := e.addr, port := e.port, tapId := .ofInt 31 tapId,
                                present := true } with numEntries := m.numEntries + 1 })) := by
  unfold tryInsert at h
  simp only [tryInsertLoop] at h
  split_ifs at h with hA heA hB heB
  · exact ⟨_, .inl rfl, .inl ⟨hA, (endpoint_eq_iff _).1 heA, (Option.some.inj h).symm⟩⟩
  · exact ⟨_, .inr rfl, .inl ⟨hB, (endpoint_eq_iff _).1 heB, (Option.some.inj h).symm⟩⟩
  · exact ⟨_, .inr rfl, .inr ⟨by simpa using hB, (Option.some.inj h).symm⟩⟩
  · exact ⟨_, .inl rfl, .inr ⟨by simpa using hA, (Option.some.inj h).symm⟩⟩

theorem tryInsert_sameSlots (h : tryInsert m e tapId = some m') : SameSlots m m' := by
  obtain ⟨i, -, ⟨-, -, rfl⟩ | ⟨-, rfl⟩⟩ := tryInsert_cases h
  · exact sameSlots_setEntry i _
  · exact ⟨rfl, rfl, rfl⟩

/-- `try_insert` keeps `num_entries` equal to the number of present entries. -/
theorem tryInsert_count (hm : 0 < m.allocEntries)
    (hc : m.numEntries = m.entries.countP (·.present)) (h : tryInsert m e tapId = some m') :
    m'.numEntries = m'.entries.countP (·.present) := by
  obtain ⟨i, hi, hcase⟩ := tryInsert_cases h
  have hlt : i < m.entries.length := by
    rw [m.size_eq]
    rcases hi with rfl | rfl <;> exact slot_lt hm _ e
  have hentry : m.entry i = m.entries[i] := by
    simp [entry, List.getD_eq_getElem?_getD, hlt]
  have hpos : m.entries[i].present = true → 0 < m.entries.countP (·.present) := fun hp =>
    List.countP_pos_iff.2 ⟨_, List.getElem_mem hlt, hp⟩
  rcases hcase with ⟨hp, -, rfl⟩ | ⟨hp, rfl⟩ <;> rw [hentry] at hp
  · have := hpos hp
    simp only [setEntry, List.countP_set hlt, hentry, hp, if_true]
    omega
  · simp only [setEntry, List.countP_set hlt, hp, if_true, Bool.false_eq_true, if_false]
    omega

/-- **`try_insert` keeps the invariant.** -/
theorem WellFormed.tryInsert (hm : m.WellFormed) (h : tryInsert m e tapId = some m') :
    m'.WellFormed := by
  have hpos : 0 < m.allocEntries := by have := hm.large; omega
  have hslots := tryInsert_sameSlots h
  have hview := view_tryInsert hpos e tapId
  rw [h, Option.map_some] at hview
  refine ⟨hslots.alloc ▸ hm.pow, hslots.alloc ▸ hm.large, ?_, tryInsert_count hpos hm.count h⟩
  rw [hslots.hashA, hslots.hashB]
  exact hm.coherent.put hview.symm

/-- **`endpoint_map_lookup` is `find`**, with `-1` for a miss. -/
theorem lookup_eq_find (m : EndpointMap) (e : Endpoint) :
    endpointMapLookup m e = ((find m.hashA m.hashB m.view e).map BitVec.toInt).getD (-1) := by
  have hval : ∀ i, valueAt m.view e i =
      if (m.entry i).present ∧ e.addr.addr = (m.entry i).remoteAddr.addr ∧
        (m.entry i).port = e.port then some (m.entry i).tapId else none := by
    intro i
    unfold valueAt view
    simp only [endpoint_eq_iff]
    by_cases hp : (m.entry i).present = true <;> simp [hp]
  unfold endpointMapLookup find
  simp only [lookupLoop, hval]
  split_ifs <;> rfl

theorem view_of_blank {n : ℕ} (h : m.entries = List.replicate n {}) : m.view = empty := by
  refine funext fun i => if_neg ?_
  by_cases hi : i < n <;> simp [entry, h, List.getD_eq_getElem?_getD, hi]

/-- A table of zeroed entries is well formed. -/
theorem wellFormed_of_blank (hp : ∃ n, m.allocEntries = 2 ^ n) (hl : 32 ≤ m.allocEntries)
    (h : m.entries = List.replicate m.allocEntries {}) (h₀ : m.numEntries = 0) :
    m.WellFormed where
  pow := hp
  large := hl
  coherent := view_of_blank h ▸ coherent_empty
  count := by rw [h₀, h, List.countP_replicate]; rfl

/-- `endpoint_map_create` yields a well-formed map. -/
theorem wellFormed_create {calloc : Bool} {rand : ℕ → Rand}
    (h : endpointMapCreate calloc rand = some m) : m.WellFormed := by
  unfold endpointMapCreate at h
  split_ifs at h
  obtain rfl := Option.some.inj h
  exact wellFormed_of_blank ⟨5, rfl⟩ le_rfl rfl rfl

/-! ### The rebuild -/

@[simp] theorem alloc_reset (m : EndpointMap) (a b : Rand) :
    (m.reset a b).allocEntries = m.allocEntries := rfl

@[simp] theorem alloc_grow (m : EndpointMap) (tail : ℕ → EndpointMapEntry) :
    (m.grow tail).allocEntries = m.allocEntries * 2 := rfl

theorem view_reset (m : EndpointMap) (a b : Rand) : (m.reset a b).view = empty :=
  view_of_blank rfl

/-- The pairs a pass inserts for the entries of the copied table. -/
def pairs (table : List EndpointMapEntry) : List (Endpoint × BitVec 31) :=
  (table.filter (·.present)).map fun x => (x.endpoint, x.tapId)

/-- The inner loop of a pass inserts the pairs of the table. -/
theorem view_reinsert (table : List EndpointMapEntry) (h : 0 < m.allocEntries) :
    (reinsert m table).map view = putAll m.hashA m.hashB m.view (pairs table) ∧
      ∀ m', reinsert m table = some m' → SameSlots m m' := by
  induction table generalizing m with
  | nil => exact ⟨rfl, fun m' hm' => Option.some.inj hm' ▸ SameSlots.rfl⟩
  | cons x xs ih =>
    unfold reinsert
    by_cases hx : x.present = true
    · have hput := view_tryInsert h x.endpoint x.tapId.toInt
      rw [BitVec.ofInt_toInt] at hput
      have hpairs : pairs (x :: xs) = (x.endpoint, x.tapId) :: pairs xs := by simp [pairs, hx]
      rw [if_pos hx, hpairs, putAll, ← hput]
      cases hi : tryInsert m x.endpoint x.tapId.toInt with
      | none => simp
      | some m₁ =>
        have hslots := tryInsert_sameSlots hi
        obtain ⟨hview, hsame⟩ := ih (m := m₁) (hslots.alloc ▸ h)
        rw [hslots.hashA, hslots.hashB] at hview
        exact ⟨hview, fun m' hm' => hslots.trans (hsame m' hm')⟩
    · have hpairs : pairs (x :: xs) = pairs xs := by simp [pairs, hx]
      rw [if_neg hx, hpairs]
      exact ih h

/-- **A pass of the rebuild loop fills the empty table** with the present entries
and the new one. -/
theorem view_rebuildPass (table : List EndpointMapEntry) (a b : Rand) (e : Endpoint)
    (tapId : Int) (h : 0 < m.allocEntries) :
    (rebuildPass m table a b e tapId).map view =
      putAll (m.reset a b).hashA (m.reset a b).hashB empty
        (pairs table ++ [(e, .ofInt 31 tapId)]) := by
  obtain ⟨hview, hsame⟩ := view_reinsert (m := m.reset a b) table h
  rw [view_reset] at hview
  rw [putAll_append, ← hview]
  unfold rebuildPass
  cases hr : reinsert (m.reset a b) table with
  | none => rfl
  | some m₁ =>
    have hslots := hsame m₁ hr
    have hput := view_tryInsert (m := m₁) (hslots.alloc ▸ h) e tapId
    rw [hslots.hashA, hslots.hashB] at hput
    simp only [Option.map_some, Option.bind_some, putAll, hput, Option.bind_fun_some]

/-- The inner loop of a pass keeps `num_entries` equal to the number of present entries. -/
theorem reinsert_count {table : List EndpointMapEntry} (hm : 0 < m.allocEntries)
    (hc : m.numEntries = m.entries.countP (·.present)) (h : reinsert m table = some m') :
    m'.numEntries = m'.entries.countP (·.present) := by
  induction table generalizing m with
  | nil => exact Option.some.inj h ▸ hc
  | cons x xs ih =>
    unfold reinsert at h
    split_ifs at h
    · cases hi : tryInsert m x.endpoint x.tapId.toInt with
      | none => simp [hi] at h
      | some m₁ =>
        rw [hi] at h
        exact ih ((tryInsert_sameSlots hi).alloc ▸ hm) (tryInsert_count hm hc hi) h
    · exact ih hm hc h

/-- **What a successful pass returns**: a coherent table of the same size that holds the
present entries of the copied table, later ones first, and the new one. -/
theorem rebuildPass_find {table : List EndpointMapEntry} {a b : Rand} (hm : 0 < m.allocEntries)
    (h : rebuildPass m table a b e tapId = some m') :
    m'.allocEntries = m.allocEntries ∧ Coherent m'.hashA m'.hashB m'.view ∧
      m'.numEntries = m'.entries.countP (·.present) ∧
      find m'.hashA m'.hashB m'.view =
        override (fun _ => none) (pairs table ++ [(e, .ofInt 31 tapId)]) := by
  have hview := view_rebuildPass table a b e tapId hm
  rw [h, Option.map_some] at hview
  unfold rebuildPass at h
  cases hr : UdpEthTunnel.reinsert (m.reset a b) table with
  | none => simp [hr] at h
  | some m₁ =>
    rw [hr] at h
    have hsame := (view_reinsert (m := m.reset a b) table hm).2 m₁ hr
    have hslots := hsame.trans (tryInsert_sameSlots h)
    have hblank : (m.reset a b).numEntries = (m.reset a b).entries.countP (·.present) := by
      show 0 = (List.replicate m.allocEntries ({} : EndpointMapEntry)).countP _
      rw [List.countP_replicate]
      rfl
    have hcount := reinsert_count (m := m.reset a b) hm hblank hr
    refine ⟨hslots.alloc, ?_, tryInsert_count (hsame.alloc ▸ hm) hcount h, ?_⟩
    · rw [hslots.hashA, hslots.hashB]
      exact coherent_empty.putAll hview.symm
    · rw [hslots.hashA, hslots.hashB, coherent_empty.find_putAll hview.symm]
      congr 1

/-- In a table of a power of two of at least 32 slots, the map is well formed. -/
theorem rebuildPass_spec {table : List EndpointMapEntry} {a b : Rand}
    (hp : ∃ n, m.allocEntries = 2 ^ n) (hl : 32 ≤ m.allocEntries)
    (h : rebuildPass m table a b e tapId = some m') :
    m'.WellFormed ∧ m'.allocEntries = m.allocEntries ∧
      find m'.hashA m'.hashB m'.view =
        override (fun _ => none) (pairs table ++ [(e, .ofInt 31 tapId)]) := by
  obtain ⟨halloc, hcoherent, hcount, hfind⟩ := rebuildPass_find (by omega) h
  exact ⟨⟨halloc ▸ hp, halloc ▸ hl, hcoherent, hcount⟩, halloc, hfind⟩

/-- The rebuild loop returns what one of its passes returns. -/
theorem rebuildLoop_pass {table : List EndpointMapEntry} {passes : ℕ} {rand : ℕ → Rand}
    (h : rebuildLoop m table e tapId passes rand = some m') :
    ∃ a b, rebuildPass m table a b e tapId = some m' := by
  induction passes generalizing rand with
  | zero => simp [rebuildLoop] at h
  | succ passes ih =>
    unfold rebuildLoop at h
    cases hr : rebuildPass m table (rand 0) (rand 1) e tapId with
    | none => rw [hr] at h; exact ih h
    | some m₁ => rw [hr] at h; exact ⟨_, _, hr.trans h⟩

theorem mem_pairs_entries {v : BitVec 31} : (e, v) ∈ pairs m.entries ↔
    ∃ i, m.view i = some (e, v) := by
  simp only [pairs, List.mem_map, List.mem_filter, Prod.mk.injEq, view_eq_some_iff]
  constructor
  · rintro ⟨x, ⟨hx, hp⟩, he, hv⟩
    obtain ⟨i, hi, rfl⟩ := List.mem_iff_getElem.1 hx
    have hentry : m.entry i = m.entries[i] := by simp [entry, List.getD_eq_getElem?_getD, hi]
    exact ⟨i, hentry ▸ hp, hentry ▸ he, hentry ▸ hv⟩
  · rintro ⟨i, hp, he, hv⟩
    have hi : i < m.entries.length := by
      by_contra hi
      simp [entry, List.getD_eq_getElem?_getD, hi] at hp
    have hentry : m.entry i = m.entries[i] := by simp [entry, List.getD_eq_getElem?_getD, hi]
    exact ⟨_, ⟨List.getElem_mem hi, hentry ▸ hp⟩, hentry ▸ he, hentry ▸ hv⟩

/-- The map has an entry of the endpoint with the tap id. -/
def HasEntry (m : EndpointMap) (k : Endpoint) (v : BitVec 31) : Prop := ∃ i, m.view i = some (k, v)

/-- Entries written over nothing, where no endpoint is present twice. -/
theorem override_pairs_eq_some_iff {k : Endpoint} {v : BitVec 31}
    (hu : ∀ {i j k v w}, m.view i = some (k, v) → m.view j = some (k, w) → i = j) :
    override (fun _ => none) (pairs m.entries) k = some v ↔ m.HasEntry k v := by
  have hgive : ∀ w, m.HasEntry k w → override (fun _ => none) (pairs m.entries) k = some w := by
    rintro w ⟨i, hi⟩
    refine override_of_mem (mem_pairs_entries.2 ⟨i, hi⟩) fun w' hw' => ?_
    obtain ⟨j, hj⟩ := mem_pairs_entries.1 hw'
    rw [hu hj hi, hi] at hj
    exact (Prod.mk.inj (Option.some.inj hj)).2.symm
  constructor
  · intro h
    by_cases hmem : ∃ w, m.HasEntry k w
    · obtain ⟨w, hw⟩ := hmem
      obtain rfl : w = v := Option.some.inj ((hgive w hw).symm.trans h)
      exact hw
    · rw [override_of_not_mem fun w hw => hmem ⟨w, mem_pairs_entries.1 hw⟩] at h
      exact absurd h nofun
  · exact hgive v

/-- The entries of a well-formed map, written over nothing, are the map. -/
theorem WellFormed.override_pairs (hm : m.WellFormed) :
    override (fun _ => none) (pairs m.entries) = find m.hashA m.hashB m.view := by
  funext k
  ext v
  exact (override_pairs_eq_some_iff hm.coherent.unique).trans hm.coherent.find_eq_some_iff.symm

/-- The bit-field keeps a tap id below `2 ^ 30`. -/
theorem toInt_ofInt_tapId (h₀ : 0 ≤ tapId) (h : tapId < 2 ^ 30) :
    (BitVec.ofInt 31 tapId).toInt = tapId := by
  have h31 : ((2 ^ 31 : ℕ) : Int) = 2147483648 := rfl
  rw [BitVec.toInt_ofInt, Int.bmod_eq_of_le] <;> rw [h31] <;> omega

/-- The lookups of a map whose finite map is an updated one. -/
theorem lookup_of_find {f : Endpoint → Option (BitVec 31)} (h₀ : 0 ≤ tapId) (h : tapId < 2 ^ 30)
    (hf : ∀ k, find m'.hashA m'.hashB m'.view k = if k = e then some (.ofInt 31 tapId) else f k)
    (hold : f = find m.hashA m.hashB m.view) (k : Endpoint) :
    endpointMapLookup m' k = if k = e then tapId else endpointMapLookup m k := by
  rw [lookup_eq_find, lookup_eq_find, hf, hold]
  split_ifs
  · simp [toInt_ofInt_tapId h₀ h]
  · rfl

/-- **A direct insertion updates the map.** -/
theorem WellFormed.lookup_tryInsert (hm : m.WellFormed) (h₀ : 0 ≤ tapId) (hlt : tapId < 2 ^ 30)
    (h : UdpEthTunnel.tryInsert m e tapId = some m') (k : Endpoint) :
    endpointMapLookup m' k = if k = e then tapId else endpointMapLookup m k := by
  have hslots := tryInsert_sameSlots h
  have hview := view_tryInsert (m := m) (by have := hm.large; omega) e tapId
  rw [h, Option.map_some] at hview
  refine lookup_of_find h₀ hlt (fun k => ?_) rfl k
  rw [hslots.hashA, hslots.hashB]
  exact hm.coherent.find_put hview.symm k

/-- **A rebuild without growth updates the map.** -/
theorem WellFormed.lookup_rebuild (hm : m.WellFormed) {a b : Rand} (h₀ : 0 ≤ tapId)
    (hlt : tapId < 2 ^ 30) (h : rebuildPass m m.entries a b e tapId = some m') (k : Endpoint) :
    endpointMapLookup m' k = if k = e then tapId else endpointMapLookup m k := by
  obtain ⟨-, -, hfind⟩ := rebuildPass_spec hm.pow hm.large h
  refine lookup_of_find h₀ hlt (fun k => ?_) rfl k
  rw [hfind, override_append, hm.override_pairs]
  rfl

end EndpointMap

end UdpEthTunnel
