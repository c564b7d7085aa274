/-
# How a table grows

A call of `endpoint_map_add` that returns a map, and gets no entries from `realloc` with the
memory, leaves the endpoints of the old map and the added one (`WellFormed.added`).  So the
table doubles when it is full and otherwise keeps its size, and no call adds more than one
entry (`WellFormed.add_grows`).
-/

import UdpEthTunnel.EndpointMap.Separation
import UdpEthTunnel.Lib.Doubling

namespace UdpEthTunnel

open TwoChoice Doubling

/-- No entry is in the memory that `realloc` appends. -/
def Realloc.Blank : Realloc → Prop
  | .failed => True
  | .inPlace tail | .moved tail => ∀ i, (tail i).present = false

namespace EndpointMap

variable {m m' : EndpointMap} {e k : Endpoint} {tapId : Int} {env : AddEnv} {passes : ℕ}
  {out : AddOutcome} {tail : ℕ → EndpointMapEntry}

theorem appended_of_blank (h : ∀ i, (tail i).present = false) (k : Endpoint) :
    m.appended tail k = none := by
  have hpairs : pairs ((List.range m.allocEntries).map tail) = [] := by
    simp [pairs, h]
  unfold appended
  rw [hpairs]
  rfl

/-- The endpoints of a table are those that are found in it. -/
theorem mem_keys_of_coherent (h : Coherent m.hashA m.hashB m.view) :
    k ∈ keys m.entries ↔ (find m.hashA m.hashB m.view k).isSome = true := by
  rw [mem_keys_iff, Option.isSome_iff_exists]
  exact exists_congr fun v => h.find_eq_some_iff.symm

/-- The endpoints of a table that is found to be the old one with one endpoint updated. -/
theorem keys_of_find (hm : m.WellFormed) (hm' : Coherent m'.hashA m'.hashB m'.view)
    (tapId : BitVec 31) (hfind : ∀ k, find m'.hashA m'.hashB m'.view k =
      if k = e then some tapId else find m.hashA m.hashB m.view k) :
    keys m'.entries = insert e (keys m.entries) := by
  ext k
  rw [mem_keys_of_coherent hm', Finset.mem_insert, mem_keys_of_coherent hm.coherent, hfind]
  by_cases hk : k = e
  · simp [hk]
  · simp [hk]

/-- **The endpoints and the size of a table after a call.** -/
theorem WellFormed.added (hm : m.WellFormed)
    (hblank : m.allocEntries ≤ m.numEntries → env.realloc.Blank)
    (h : endpointMapAdd env passes m e tapId = some out) (hret : out.ret = some m') :
    m'.WellFormed ∧ keys m'.entries = insert e (keys m.entries) ∧
      (m'.allocEntries = m.allocEntries ∨
        m.allocEntries ≤ m.numEntries ∧ m'.allocEntries = 2 * m.allocEntries) := by
  have hl := hm.large
  rcases Nat.lt_or_ge m.numEntries m.allocEntries with hroom | hfull
  · cases addOf h with
    | direct m₁ _ hi =>
      obtain rfl := Option.some.inj hret
      have hwf := hm.tryInsert hi
      have hslots := tryInsert_sameSlots hi
      have hview := view_tryInsert (m := m) (by omega) e tapId
      rw [hi, Option.map_some] at hview
      refine ⟨hwf, keys_of_find hm hwf.coherent (.ofInt 31 tapId) fun k => ?_, .inl hslots.alloc⟩
      rw [hslots.hashA, hslots.hashB]
      exact hm.coherent.find_put hview.symm k
    | rebuilt m₁ a b _ hpass =>
      obtain rfl := Option.some.inj hret
      obtain ⟨hwf, halloc, hfind⟩ := rebuildPass_spec hm.pow hm.large hpass
      refine ⟨hwf, keys_of_find hm hwf.coherent (.ofInt 31 tapId) fun k => ?_, .inl halloc⟩
      rw [hfind, override_append, hm.override_pairs]
      rfl
    | noCopy => cases hret
    | _ => omega
  · obtain ⟨tail, a, b, hout, hpass⟩ := rebuildPass_of_full hfull h hret
    obtain ⟨halloc, hcoherent, hcount, hfind⟩ := rebuildPass_grow (by omega) hpass
    have htail : ∀ i, (tail i).present = false := by
      replace hblank := hblank hfull
      rcases hout with ⟨hr, -⟩ | ⟨hr, -⟩ <;> rw [hr] at hblank <;> exact hblank
    obtain ⟨n, hn⟩ := hm.pow
    have hpow : ∃ n, m'.allocEntries = 2 ^ n :=
      ⟨n + 1, by rw [halloc, hn, Nat.pow_succ, Nat.mul_comm]⟩
    refine ⟨⟨hpow, by omega, hcoherent, hcount⟩, keys_of_find hm hcoherent (.ofInt 31 tapId)
      fun k => ?_, .inr ⟨hfull, halloc⟩⟩
    rw [hfind, appended_of_blank htail, hm.override_pairs]
    rfl

/-- **A table grows by doubling**, and by one entry at most. -/
theorem WellFormed.add_grows (hm : m.WellFormed)
    (hblank : m.allocEntries ≤ m.numEntries → env.realloc.Blank)
    (h : endpointMapAdd env passes m e tapId = some out) (hret : out.ret = some m') :
    m'.WellFormed ∧ m'.numEntries ≤ m.numEntries + 1 ∧
      Grows 32 m.numEntries m.allocEntries m'.numEntries m'.allocEntries := by
  obtain ⟨hwf, hkeys, halloc⟩ := hm.added hblank h hret
  have hold : m.numEntries = (keys m.entries).card := by
    rw [hm.count, card_keys hm.coherent.unique]
  have hnew : m'.numEntries = (insert e (keys m.entries)).card := by
    rw [hwf.count, ← card_keys hwf.coherent.unique, hkeys]
  have hle := Finset.card_le_card (Finset.subset_insert e (keys m.entries))
  have hl := hm.large
  refine ⟨hwf, by rw [hold, hnew]; exact Finset.card_insert_le _ _, by omega, ?_⟩
  rcases halloc with hsame | ⟨hfull, hdouble⟩
  · exact .inl hsame
  · exact .inr ⟨by omega, by omega⟩

end EndpointMap

end UdpEthTunnel
