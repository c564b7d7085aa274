/-
# Growing a full table

`endpoint_map_add` doubles a full table by `realloc`, copies all of the doubled table
and inserts the present entries of the copy.  The upper half is not cleared before it is
copied: it is memory that `realloc` has appended, and what looks like a present entry
there is inserted too.

So the contents survive growth (`Grown`) exactly when that memory has nothing to say
(`Harmless`) and the new tap id fits its bit-field (`grown_iff`).
-/

import UdpEthTunnel.EndpointMap.Separation

namespace UdpEthTunnel

open TwoChoice

namespace EndpointMap

/-- A full map: every present entry is in one of the two slots of its endpoint and no
endpoint is there twice. -/
structure Full (m : EndpointMap) : Prop where
  pow : ∃ n, m.allocEntries = 2 ^ n
  full : m.numEntries = m.allocEntries
  home : ∀ {i k v}, m.view i = some (k, v) → i = m.hashA k ∨ i = m.hashB k
  unique : ∀ {i j k v w}, m.view i = some (k, v) → m.view j = some (k, w) → i = j

/-- **Growth preserves the contents**: `m'` has twice the slots of `m`, holds the entries
of `m` and the added one and no other. -/
structure Grown (m : EndpointMap) (e : Endpoint) (tapId : Int) (m' : EndpointMap) : Prop where
  size : m'.allocEntries = 2 * m.allocEntries
  added : endpointMapLookup m' e = tapId
  kept : ∀ k v, k ≠ e → m.HasEntry k v → endpointMapLookup m' k = v.toInt
  others : ∀ k, k ≠ e → (∀ v, ¬ m.HasEntry k v) → endpointMapLookup m' k = -1
  count : m'.numEntries = (insert e (keys m.entries)).card

/-- The appended memory says nothing of the endpoints other than `e` that the map does not
say itself. -/
def Harmless (m : EndpointMap) (tail : ℕ → EndpointMapEntry) (e : Endpoint) : Prop :=
  ∀ k v, k ≠ e → m.appended tail k = some v → m.HasEntry k v

variable {m m' : EndpointMap} {e k : Endpoint} {tapId : Int} {v : BitVec 31} {env : AddEnv}
  {passes : ℕ} {out : AddOutcome} {tail : ℕ → EndpointMapEntry}

/-- The tap ids that the bit-field keeps. -/
theorem toInt_ofInt_tapId_iff :
    (BitVec.ofInt 31 tapId).toInt = tapId ↔ -2 ^ 30 ≤ tapId ∧ tapId < 2 ^ 30 := by
  rw [BitVec.toInt_ofInt]
  constructor
  · intro h
    have hlow := Int.le_bmod (x := tapId) (m := 2 ^ 31) (by decide)
    have hhigh := Int.bmod_lt (x := tapId) (m := 2 ^ 31) (by decide)
    omega
  · rintro ⟨hlow, hhigh⟩
    exact Int.bmod_eq_of_le (by omega) (by omega)

/-- **The map that a call on a full table returns**: the entries of the old map,
overridden by those of the appended memory and by the added one. -/
structure Doubled (m : EndpointMap) (tail : ℕ → EndpointMapEntry) (e : Endpoint) (tapId : Int)
    (m' : EndpointMap) : Prop where
  size : m'.allocEntries = 2 * m.allocEntries
  coherent : Coherent m'.hashA m'.hashB m'.view
  count : m'.numEntries = m'.entries.countP (·.present)
  find : ∀ k, TwoChoice.find m'.hashA m'.hashB m'.view k =
    if k = e then some (.ofInt 31 tapId) else
      (m.appended tail k).or (override (fun _ => none) (pairs m.entries) k)

theorem Full.doubled (hm : m.Full) (hr : env.realloc = .inPlace tail ∨ env.realloc = .moved tail)
    (h : endpointMapAdd env passes m e tapId = some out) (hret : out.ret = some m') :
    m.Doubled tail e tapId m' := by
  obtain ⟨n, hn⟩ := hm.pow
  have hpos : 0 < m.allocEntries := hn ▸ Nat.two_pow_pos n
  obtain ⟨tail', a, b, hout, hpass⟩ := rebuildPass_of_full hm.full.ge h hret
  have htail : tail' = tail := by
    rcases hout with ⟨hr', -⟩ | ⟨hr', -⟩ <;> rcases hr with hr | hr <;> rw [hr] at hr' <;>
      cases hr' <;> rfl
  obtain ⟨hsize, hcoherent, hcount, hfind⟩ := rebuildPass_grow hpos (htail ▸ hpass)
  exact ⟨hsize, hcoherent, hcount, hfind⟩

namespace Doubled

theorem lookup_added (h : m.Doubled tail e tapId m') :
    endpointMapLookup m' e = (BitVec.ofInt 31 tapId).toInt := by
  rw [lookup_eq_find, h.find, if_pos rfl]
  rfl

/-- What the appended memory says is believed. -/
theorem lookup_appended (h : m.Doubled tail e tapId m') (hk : k ≠ e)
    (hv : m.appended tail k = some v) : endpointMapLookup m' k = v.toInt := by
  rw [lookup_eq_find, h.find, if_neg hk, hv]
  rfl

theorem lookup_kept (h : m.Doubled tail e tapId m') (hm : m.Full) (hharmless : m.Harmless tail e)
    (hk : k ≠ e) (hv : m.HasEntry k v) : endpointMapLookup m' k = v.toInt := by
  have hold := (override_pairs_eq_some_iff hm.unique).2 hv
  cases happ : m.appended tail k with
  | none =>
    rw [lookup_eq_find, h.find, if_neg hk, happ, hold]
    rfl
  | some w =>
    have hw := (override_pairs_eq_some_iff hm.unique).2 (hharmless k w hk happ)
    obtain rfl : v = w := Option.some.inj (hold.symm.trans hw)
    exact h.lookup_appended hk happ

theorem lookup_others (h : m.Doubled tail e tapId m') (hm : m.Full)
    (hharmless : m.Harmless tail e) (hk : k ≠ e) (hnone : ∀ v, ¬ m.HasEntry k v) :
    endpointMapLookup m' k = -1 := by
  have happ : m.appended tail k = none :=
    Option.eq_none_iff_forall_ne_some.2 fun v hv => hnone v (hharmless k v hk hv)
  have hold : override (fun _ => none) (pairs m.entries) k = none :=
    Option.eq_none_iff_forall_ne_some.2 fun v hv =>
      hnone v ((override_pairs_eq_some_iff hm.unique).1 hv)
  rw [lookup_eq_find, h.find, if_neg hk, happ, hold]
  rfl

/-- The endpoints of the map are the old ones, the added one and those of the memory. -/
theorem mem_keys (h : m.Doubled tail e tapId m') (hm : m.Full) :
    k ∈ keys m'.entries ↔
      k ∈ insert e (keys m.entries) ∨ k ≠ e ∧ (m.appended tail k).isSome = true := by
  have hnew : k ∈ keys m'.entries ↔
      (TwoChoice.find m'.hashA m'.hashB m'.view k).isSome = true := by
    rw [mem_keys_iff, Option.isSome_iff_exists]
    exact exists_congr fun v => h.coherent.find_eq_some_iff.symm
  have hold : k ∈ keys m.entries ↔
      (override (fun _ => none) (pairs m.entries) k).isSome = true := by
    rw [mem_keys_iff, Option.isSome_iff_exists]
    exact exists_congr fun v => (override_pairs_eq_some_iff hm.unique).symm
  rw [hnew, h.find, Finset.mem_insert, hold]
  by_cases hk : k = e
  · simp [hk]
  · rw [if_neg hk, Option.isSome_or, Bool.or_eq_true, or_comm]
    simp [hk]

theorem card (h : m.Doubled tail e tapId m') : m'.numEntries = (keys m'.entries).card := by
  rw [h.count, card_keys h.coherent.unique]

/-- Memory that is not harmless is noticed: by the count, or by a lookup. -/
theorem harmless_of_grown (h : m.Doubled tail e tapId m') (hm : m.Full)
    (hgrown : m.Grown e tapId m') : m.Harmless tail e := by
  intro k v hk hv
  have hsub : insert e (keys m.entries) ⊆ keys m'.entries :=
    fun k hk => (h.mem_keys hm).2 (.inl hk)
  have heq : insert e (keys m.entries) = keys m'.entries := by
    refine Finset.eq_of_subset_of_card_le hsub ?_
    rw [← h.card, hgrown.count]
  have hmem : k ∈ insert e (keys m.entries) := by
    rw [heq, h.mem_keys hm]
    exact .inr ⟨hk, by rw [hv]; rfl⟩
  obtain ⟨w, hw⟩ := mem_keys_iff.1 ((Finset.mem_insert.1 hmem).resolve_left hk)
  have hvw : v.toInt = w.toInt := (h.lookup_appended hk hv).symm.trans (hgrown.kept k w hk hw)
  exact BitVec.toInt_inj.1 hvw ▸ hw

theorem keys_of_harmless (h : m.Doubled tail e tapId m') (hm : m.Full)
    (hharmless : m.Harmless tail e) : keys m'.entries = insert e (keys m.entries) := by
  ext k
  rw [h.mem_keys hm]
  refine or_iff_left_of_imp ?_
  rintro ⟨hk, happ⟩
  obtain ⟨v, hv⟩ := Option.isSome_iff_exists.1 happ
  exact Finset.mem_insert_of_mem (mem_keys_iff.2 ⟨v, hharmless k v hk hv⟩)

end Doubled

end EndpointMap

open EndpointMap

/-- **When growth preserves the contents.** For a full map and any memory that `realloc`
appends, the map returned holds the old entries and the added one, and no other, exactly
when the tap id fits its 31 bits and the appended memory says nothing new of any other
endpoint. -/
theorem grown_iff {m m' : EndpointMap} {e : Endpoint} {tapId : Int} {env : AddEnv} {passes : ℕ}
    {out : AddOutcome} {tail : ℕ → EndpointMapEntry} (hm : m.Full)
    (hr : env.realloc = .inPlace tail ∨ env.realloc = .moved tail)
    (h : endpointMapAdd env passes m e tapId = some out) (hret : out.ret = some m') :
    m.Grown e tapId m' ↔ (-2 ^ 30 ≤ tapId ∧ tapId < 2 ^ 30) ∧ m.Harmless tail e := by
  have hnew := hm.doubled hr h hret
  constructor
  · intro hgrown
    have hfits := toInt_ofInt_tapId_iff.1 (hnew.lookup_added.symm.trans hgrown.added)
    exact ⟨hfits, hnew.harmless_of_grown hm hgrown⟩
  · rintro ⟨hfits, hharmless⟩
    refine ⟨hnew.size, hnew.lookup_added.trans (toInt_ofInt_tapId_iff.2 hfits), ?_, ?_, ?_⟩
    · exact fun k v => hnew.lookup_kept hm hharmless
    · exact fun k => hnew.lookup_others hm hharmless
    · rw [hnew.card, hnew.keys_of_harmless hm hharmless]

/-- The host with address `x` as its first bytes, at port 0. -/
def lowHost (x : ℕ) : Endpoint := ⟨⟨.ofNat 128 x⟩, 0⟩

/-- A full map of 32 hosts under the nonces 0 and 1. -/
def fullMap : EndpointMap :=
  { numEntries := 32, allocEntries := 32, nonceA := 0, nonceB := 1,
    entries := (List.range 32).map fun i =>
      { remoteAddr := (lowHost i).addr, port := 0, present := true, tapId := .ofNat 31 i },
    size_eq := rfl }

theorem full_fullMap : fullMap.Full := by
  have hslot : ∀ i < 32, fullMap.hashA (fullMap.entry i).endpoint = i := by decide +kernel
  have hhome : ∀ {i k v}, fullMap.view i = some (k, v) → i = fullMap.hashA k :=
    fun h => eq_hashA_of_view hslot h
  exact ⟨⟨5, rfl⟩, rfl, fun h => .inl (hhome h), fun h h' => (hhome h).trans (hhome h').symm⟩

/-- The C library when a table grows in place by the memory `tail`. -/
def growEnv (tail : ℕ → EndpointMapEntry) : AddEnv :=
  { realloc := .inPlace tail, malloc := true, rand := fun _ => 0 }

/-- Growth by zeroed memory preserves the contents. -/
theorem grown_zeroed : ∃ out m',
    endpointMapAdd (growEnv fun _ => {}) 1 fullMap (lowHost 32) 32 = some out ∧
      out.ret = some m' ∧ fullMap.Grown (lowHost 32) 32 m' := by
  have hrun : (endpointMapAdd (growEnv fun _ => {}) 1 fullMap (lowHost 32) 32).any
      (·.ret.isSome) = true := by decide +kernel
  obtain ⟨out, h, hsome⟩ := (Option.any_eq_true _ _).1 hrun
  obtain ⟨m', hret⟩ := Option.isSome_iff_exists.1 hsome
  refine ⟨out, m', h, hret, (grown_iff full_fullMap (.inl rfl) h hret).2 ⟨by decide, ?_⟩⟩
  intro k v _ hv
  rw [appended_blank] at hv
  cases hv

/-- A block that holds an old entry of another map. -/
def staleTail : ℕ → EndpointMapEntry := fun i =>
  if i = 0 then { remoteAddr := (lowHost 99).addr, port := 0, present := true, tapId := 5 } else {}

/-- Growth by memory that holds an old entry adds its endpoint. -/
theorem grown_fails : ∃ out m',
    endpointMapAdd (growEnv staleTail) 1 fullMap (lowHost 32) 32 = some out ∧
      out.ret = some m' ∧ endpointMapLookup fullMap (lowHost 99) = -1 ∧
      endpointMapLookup m' (lowHost 99) = 5 ∧ ¬ fullMap.Grown (lowHost 32) 32 m' := by
  have hrun : (endpointMapAdd (growEnv staleTail) 1 fullMap (lowHost 32) 32).any
      (·.ret.any fun m' => endpointMapLookup m' (lowHost 99) == 5 && m'.numEntries == 34) =
        true := by decide +kernel
  obtain ⟨out, h, hsome⟩ := (Option.any_eq_true _ _).1 hrun
  obtain ⟨m', hret, htest⟩ := (Option.any_eq_true _ _).1 hsome
  rw [Bool.and_eq_true, beq_iff_eq, beq_iff_eq] at htest
  refine ⟨out, m', h, hret, by decide +kernel, htest.1, fun hgrown => ?_⟩
  have hcard : (insert (lowHost 32) (keys fullMap.entries)).card = 33 := by decide +kernel
  have hcount := hgrown.count
  omega

end UdpEthTunnel
