/-
# When the rebuild loop can succeed

Both hashes of `endpoint_map.c` are XORs, so the slot of an endpoint is its slot
under the zero nonce, XOR a number that depends on the nonce alone
(`EndpointMap.slot_eq_xor`).  Two consequences follow for the candidate slots of
`try_insert`.  They are paired: endpoints that share one share both
(`paired_xor`), so the order of insertion is irrelevant.  And no nonce
separates endpoints whose unkeyed hashes agree: the nonces only choose the
difference `d` of the two slots, and a pass succeeds exactly when at most two of
the endpoints have their unkeyed slot in `{c, c ^^^ d}`, for every `c`
(`exists_rebuildPass_iff`).

For tables of up to 256 slots the unkeyed hash reads four of the sixteen bytes
of the address, all of them zero in an IPv4-mapped address.
-/

import UdpEthTunnel.EndpointMap.Add
import UdpEthTunnel.Lib.PairedSlots

namespace UdpEthTunnel

open TwoChoice

/-- `hash` is the unkeyed hash XOR the nonce. -/
theorem hash_eq_xor (e : Endpoint) (nonce : U32) :
    hash e nonce = hash e 0 ^^^ hash ⟨⟨0⟩, 0⟩ nonce := by
  simp only [hash, List.range, List.range.loop, List.foldl_cons, List.foldl_nil]
  simp [IpAddr.dword]
  ac_rfl

/-- `hash_small` is the unkeyed hash XOR the folded nonce. -/
theorem hashSmall_eq_xor (e : Endpoint) (nonce : U32) :
    hashSmall e nonce = hashSmall e 0 ^^^ hashSmall ⟨⟨0⟩, 0⟩ nonce := by
  simp only [hashSmall, List.range, List.range.loop, List.foldl_cons, List.foldl_nil]
  simp [IpAddr.byte]
  ac_rfl

namespace EndpointMap

variable {m : EndpointMap} {e : Endpoint} {tapId : Int}

/-- What a nonce contributes to every slot: the slot of the all-zero endpoint. -/
def nonceSlot (m : EndpointMap) (nonce : U32) : ℕ := m.slot nonce ⟨⟨0⟩, 0⟩

/-- **The slot under a nonce** is the unkeyed slot XOR what the nonce contributes. -/
theorem slot_eq_xor (m : EndpointMap) (nonce : U32) (e : Endpoint) :
    m.slot nonce e = m.slot 0 e ^^^ m.nonceSlot nonce := by
  unfold nonceSlot slot
  split_ifs
  · rw [hashSmall_eq_xor e nonce, BitVec.toNat_xor, Nat.and_xor_distrib_right]
  · rw [hash_eq_xor e nonce, BitVec.toNat_xor, Nat.and_xor_distrib_right]

/-- Under the nonces of a pass the candidate slots are XORs of the unkeyed slot. -/
theorem hashA_reset (m : EndpointMap) (a b : Rand) :
    (m.reset a b).hashA = (m.slot 0 · ^^^ m.nonceSlot (a.setWidth 32)) :=
  funext fun e => slot_eq_xor m _ e

theorem hashB_reset (m : EndpointMap) (a b : Rand) :
    (m.reset a b).hashB = (m.slot 0 · ^^^ m.nonceSlot (b.setWidth 32)) :=
  funext fun e => slot_eq_xor m _ e

theorem hash_zero (nonce : U32) : hash ⟨⟨0⟩, 0⟩ nonce = nonce := by
  simp [hash, List.range, List.range.loop, IpAddr.dword]

theorem hashSmall_zero {d : ℕ} (h : d < 256) :
    (hashSmall ⟨⟨0⟩, 0⟩ ((BitVec.ofNat 31 d).setWidth 32)).toNat = d := by
  have hb : ∀ i, 0 < i → d >>> (8 * i) = 0 := fun i hi =>
    Nat.shiftRight_eq_zero _ _
      (h.trans_le (Nat.pow_le_pow_right Nat.two_pos (by omega : 8 ≤ 8 * i)))
  have h₁ := hb 1 (by decide)
  have h₂ := hb 2 (by decide)
  have h₃ := hb 3 (by decide)
  have hd : d % 2147483648 % 4294967296 = d := by omega
  simp only [hashSmall, List.range, List.range.loop, List.foldl_cons, List.foldl_nil]
  simp [IpAddr.byte, BitVec.extractLsb'_toNat, hd, h₁, h₂, h₃]
  omega

/-- **What the nonces can contribute**: everything below the size of the table and
the range of `rand()`. -/
theorem exists_nonceSlot_iff {n d : ℕ} (hn : m.allocEntries = 2 ^ n) :
    (∃ r : Rand, m.nonceSlot (r.setWidth 32) = d) ↔ d < 2 ^ n ∧ d < 2 ^ 31 := by
  constructor
  · rintro ⟨r, rfl⟩
    refine ⟨hn ▸ slot_lt (hn ▸ Nat.two_pow_pos n) _ _, ?_⟩
    unfold nonceSlot slot
    split_ifs
    · exact Nat.and_le_left.trans_lt ((hashSmall _ _).isLt.trans (by decide))
    · rw [hash_zero, BitVec.toNat_setWidth_of_le (by decide)]
      exact Nat.and_le_left.trans_lt r.isLt
  · rintro ⟨hd, hd31⟩
    refine ⟨.ofNat 31 d, ?_⟩
    unfold nonceSlot slot
    split_ifs with hsmall
    · rw [hashSmall_zero (by omega), hn, Nat.and_two_pow_sub_one_eq_mod, Nat.mod_eq_of_lt hd]
    · rw [hash_zero, BitVec.toNat_setWidth_of_le (by decide), BitVec.toNat_ofNat,
        Nat.mod_eq_of_lt hd31, hn, Nat.and_two_pow_sub_one_eq_mod, Nat.mod_eq_of_lt hd]

/-- The endpoints of the present entries of a table. -/
def keys (table : List EndpointMapEntry) : Finset Endpoint := ((pairs table).map Prod.fst).toFinset

/-- The endpoints of a table are those that have an entry. -/
theorem mem_keys_iff {k : Endpoint} : k ∈ keys m.entries ↔ ∃ v, m.HasEntry k v := by
  unfold keys HasEntry
  simp only [List.mem_toFinset, List.mem_map, Prod.exists, exists_and_right, exists_eq_right,
    mem_pairs_entries]

/-- Where no endpoint is present twice, the present entries are as many as the endpoints. -/
theorem card_keys
    (hu : ∀ {i j k v w}, m.view i = some (k, v) → m.view j = some (k, w) → i = j) :
    (keys m.entries).card = m.entries.countP (·.present) := by
  have hnodup : ((pairs m.entries).map Prod.fst).Nodup := by
    unfold pairs
    rw [List.map_map, List.Nodup, List.pairwise_map, List.pairwise_filter,
      List.pairwise_iff_getElem]
    intro i j hi hj hij hpi hpj heq
    have hentry : ∀ {l}, (h : l < m.entries.length) → m.entry l = m.entries[l] := by
      intro l h
      simp [entry, List.getD_eq_getElem?_getD, h]
    have hvi : m.view i = some (m.entries[i].endpoint, m.entries[i].tapId) := by
      rw [view_eq_some_iff, hentry hi]
      exact ⟨hpi, rfl, rfl⟩
    have hvj : m.view j = some (m.entries[i].endpoint, m.entries[j].tapId) := by
      rw [view_eq_some_iff, hentry hj]
      exact ⟨hpj, heq.symm, rfl⟩
    have := hu hvi hvj
    omega
  unfold keys
  rw [List.toFinset_card_of_nodup hnodup, List.length_map, pairs, List.length_map,
    List.countP_eq_length_filter]

/-- **The endpoints `ks` can be told apart in a table of this size.**  For some
difference `d ≠ 0` below the size of the table and the range of `rand()`, at
most two of them have their unkeyed slot in `{c, c ^^^ d}`, where `c` is the
unkeyed slot of any of them. -/
def Separable (m : EndpointMap) (ks : Finset Endpoint) : Prop :=
  ∃ d, d ≠ 0 ∧ d < m.allocEntries ∧ d < 2 ^ 31 ∧
    ∀ k ∈ ks, (ks.filter fun k' => m.slot 0 k' = m.slot 0 k ∨
      m.slot 0 k' = m.slot 0 k ^^^ d).card ≤ 2

/-- The endpoints a pass inserts. -/
theorem toFinset_pairs_append (table : List EndpointMapEntry) (e : Endpoint) (tapId : Int) :
    ((pairs table ++ [(e, BitVec.ofInt 31 tapId)]).map Prod.fst).toFinset =
      insert e (keys table) := by
  simp [keys, Finset.union_comm]

/-- A pass succeeds when its nonces leave room for every endpoint. -/
theorem rebuildPass_isSome_iff (hm : 0 < m.allocEntries) (table : List EndpointMapEntry)
    (a b : Rand) (e : Endpoint) (tapId : Int) :
    (rebuildPass m table a b e tapId).isSome ↔
      Fits (m.slot 0 · ^^^ m.nonceSlot (a.setWidth 32))
        (m.slot 0 · ^^^ m.nonceSlot (b.setWidth 32)) (insert e (keys table)) := by
  rw [← toFinset_pairs_append table e tapId, ← putAll_empty_isSome_iff paired_xor, ← hashA_reset,
    ← hashB_reset, ← view_rebuildPass table a b e tapId hm, Option.isSome_map]

/-- **When some pair of nonces makes a pass succeed.** -/
theorem exists_rebuildPass_iff (hp : ∃ n, m.allocEntries = 2 ^ n) (hl : 32 ≤ m.allocEntries)
    (table : List EndpointMapEntry) (e : Endpoint) (tapId : Int) :
    (∃ a b, (rebuildPass m table a b e tapId).isSome) ↔
      m.Separable (insert e (keys table)) := by
  obtain ⟨n, hn⟩ := hp
  have hn₀ : 0 < min n 31 := by
    refine lt_min (Nat.pos_of_ne_zero fun h => ?_) (by decide)
    rw [hn, h] at hl
    omega
  have hmin : ∀ d, d < 2 ^ min n 31 ↔ d < 2 ^ n ∧ d < 2 ^ 31 := by
    intro d
    rcases le_total n 31 with h | h
    · rw [min_eq_left h]
      exact ⟨fun hd => ⟨hd, hd.trans_le (Nat.pow_le_pow_right Nat.two_pos h)⟩, And.left⟩
    · rw [min_eq_right h]
      exact ⟨fun hd => ⟨hd.trans_le (Nat.pow_le_pow_right Nat.two_pos h), hd⟩, And.right⟩
  have hseeds : _ ↔ ∃ d < 2 ^ min n 31, d ≠ 0 ∧ ∀ k ∈ insert e (keys table),
      (near (m.slot 0) d (insert e (keys table)) k).card ≤ 2 := exists_fits_xor_iff hn₀
  simp only [hmin, ← exists_nonceSlot_iff hn] at hseeds
  simp only [rebuildPass_isSome_iff (m := m) (by omega)]
  constructor
  · rintro ⟨a, b, hf⟩
    obtain ⟨d, ⟨r, rfl⟩, hd⟩ := hseeds.1 ⟨_, ⟨a, rfl⟩, _, ⟨b, rfl⟩, hf⟩
    have hr := (exists_nonceSlot_iff hn).1 ⟨r, rfl⟩
    exact ⟨_, hd.1, hn ▸ hr.1, hr.2, hd.2⟩
  · rintro ⟨d, hd₀, hd, hd31, hcard⟩
    obtain ⟨_, ⟨a, rfl⟩, _, ⟨b, rfl⟩, hf⟩ :=
      hseeds.2 ⟨d, (exists_nonceSlot_iff hn).2 ⟨hn ▸ hd, hd31⟩, hd₀, hcard⟩
    exact ⟨a, b, hf⟩

/-- Three endpoints with one unkeyed slot cannot be told apart. -/
theorem not_separable_of_three {ks : Finset Endpoint} {e₁ e₂ e₃ : Endpoint}
    (h₁ : e₁ ∈ ks) (h₂ : e₂ ∈ ks) (h₃ : e₃ ∈ ks) (h₁₂ : e₁ ≠ e₂) (h₁₃ : e₁ ≠ e₃) (h₂₃ : e₂ ≠ e₃)
    (hs₂ : m.slot 0 e₂ = m.slot 0 e₁) (hs₃ : m.slot 0 e₃ = m.slot 0 e₁) : ¬ m.Separable ks := by
  rintro ⟨d, -, -, -, hcard⟩
  have hsub : {e₁, e₂, e₃} ⊆ ks.filter fun k' => m.slot 0 k' = m.slot 0 e₁ ∨
      m.slot 0 k' = m.slot 0 e₁ ^^^ d := by
    intro k hk
    simp only [Finset.mem_insert, Finset.mem_singleton] at hk
    rcases hk with rfl | rfl | rfl
    · exact Finset.mem_filter.2 ⟨h₁, .inl rfl⟩
    · exact Finset.mem_filter.2 ⟨h₂, .inl hs₂⟩
    · exact Finset.mem_filter.2 ⟨h₃, .inl hs₃⟩
  have hthree := Finset.card_le_card hsub
  rw [Finset.card_eq_three.2 ⟨e₁, e₂, e₃, h₁₂, h₁₃, h₂₃, rfl⟩] at hthree
  have := hcard e₁ h₁
  omega

end EndpointMap

end UdpEthTunnel
