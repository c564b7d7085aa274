/-
# Insertion without eviction places all that can be placed

A cuckoo table moves an entry away when a new one finds both its slots taken.
`try_insert` of `endpoint_map.c` never does, and for hashes in general it would then miss
placements.  For these hashes it misses none: endpoints that share a candidate slot share
both, so nothing that moves makes room.  A list of endpoints goes into an empty table
exactly when they can have slots of their own (`insertAll_isSome_iff`), and a pass of the
rebuild loop fails exactly when they cannot (`rebuildPass_eq_none_iff`).
-/

import UdpEthTunnel.EndpointMap.Separation

namespace UdpEthTunnel

open TwoChoice

namespace EndpointMap

variable {m m' : EndpointMap} {e : Endpoint} {tapId : Int}

/-- `try_insert` for one endpoint after another; `none` when one of the calls returns
`false`. -/
def insertAll (m : EndpointMap) : List (Endpoint × Int) → Option EndpointMap
  | [] => some m
  | x :: xs =>
    match tryInsert m x.1 x.2 with
    | none => none
    | some m' => insertAll m' xs

/-- No entry is present. -/
def Blank (m : EndpointMap) : Prop := ∀ x ∈ m.entries, x.present = false

/-- Every endpoint of `ks` has one of its two slots to itself. -/
def HaveSlots (m : EndpointMap) (ks : Finset Endpoint) : Prop :=
  ∃ f : Endpoint → ℕ, (∀ k ∈ ks, f k = m.hashA k ∨ f k = m.hashB k) ∧
    ∀ k ∈ ks, ∀ k' ∈ ks, f k = f k' → k = k'

theorem haveSlots_iff {ks : Finset Endpoint} :
    m.HaveSlots ks ↔ ∃ f, Assigns m.hashA m.hashB ks f := by
  refine exists_congr fun f => ⟨fun h => ⟨h.1, fun k hk k' hk' => h.2 k hk k' hk'⟩, fun h => ?_⟩
  exact ⟨h.home, fun k hk k' hk' => h.injOn hk hk'⟩

/-- Endpoints that share a candidate slot share both. -/
theorem paired_hash (m : EndpointMap) : Paired m.hashA m.hashB := by
  have hA : m.hashA = (m.slot 0 · ^^^ m.nonceSlot m.nonceA) := funext (slot_eq_xor m _)
  have hB : m.hashB = (m.slot 0 · ^^^ m.nonceSlot m.nonceB) := funext (slot_eq_xor m _)
  rw [hA, hB]
  exact paired_xor

theorem Blank.view (h : m.Blank) : m.view = empty := by
  refine funext fun i => if_neg ?_
  rcases Nat.lt_or_ge i m.entries.length with hi | hi
  · have hentry : m.entry i = m.entries[i] := by simp [entry, List.getD_eq_getElem?_getD, hi]
    rw [hentry, h _ (List.getElem_mem hi)]
    exact Bool.false_ne_true
  · rw [entry, List.getD_eq_default _ _ hi]
    exact Bool.false_ne_true

/-- A list of insertions is `putAll`. -/
theorem view_insertAll (xs : List (Endpoint × Int)) (h : 0 < m.allocEntries) :
    (insertAll m xs).map EndpointMap.view =
      putAll m.hashA m.hashB m.view (xs.map fun x => (x.1, .ofInt 31 x.2)) := by
  induction xs generalizing m with
  | nil => rfl
  | cons x xs ih =>
    rw [insertAll, List.map_cons, putAll, ← view_tryInsert h x.1 x.2]
    cases hi : tryInsert m x.1 x.2 with
    | none => rfl
    | some m₁ =>
      have hslots := tryInsert_sameSlots hi
      rw [Option.map_some, Option.bind_some, ← hslots.hashA, ← hslots.hashB]
      exact ih (hslots.alloc ▸ h)

/-- **A list of endpoints goes into an empty table** exactly when they can have slots of
their own. -/
theorem insertAll_isSome_iff (hm : 0 < m.allocEntries) (hblank : m.Blank)
    (xs : List (Endpoint × Int)) :
    (insertAll m xs).isSome ↔ m.HaveSlots (xs.map Prod.fst).toFinset := by
  have hkeys : (xs.map fun x => (x.1, BitVec.ofInt 31 x.2)).map Prod.fst = xs.map Prod.fst := by
    rw [List.map_map]
    rfl
  rw [haveSlots_iff, ← hkeys, ← putAll_empty_isSome_iff_assigns m.paired_hash, ← hblank.view,
    ← view_insertAll xs hm, Option.isSome_map]

/-- **A pass of the rebuild loop fails** exactly when the endpoints cannot have slots of
their own under its nonces. -/
theorem rebuildPass_eq_none_iff (hm : 0 < m.allocEntries) (table : List EndpointMapEntry)
    (a b : Rand) (e : Endpoint) (tapId : Int) :
    rebuildPass m table a b e tapId = none ↔ ¬ (m.reset a b).HaveSlots (insert e (keys table)) := by
  rw [haveSlots_iff, ← toFinset_pairs_append table e tapId,
    ← putAll_empty_isSome_iff_assigns (m.reset a b).paired_hash,
    ← view_rebuildPass table a b e tapId hm, Option.isSome_map, Bool.not_eq_true,
    Option.isSome_eq_false_iff, Option.isNone_iff_eq_none]

/-- The two nonces of pass `k` leave every endpoint, those of the table and the new one, a slot
of its own. -/
def PassFits (m : EndpointMap) (rand : ℕ → Rand) (e : Endpoint) (k : ℕ) : Prop :=
  (m.reset (rand (2 * k)) (rand (2 * k + 1))).HaveSlots (insert e (keys m.entries))

/-- **When the rebuild loop has ended**: one of its passes had nonces that fit. -/
theorem rebuildLoop_isSome_iff (hm : 0 < m.allocEntries) (e : Endpoint) (tapId : Int)
    (passes : ℕ) (rand : ℕ → Rand) :
    (rebuildLoop m m.entries e tapId passes rand).isSome = true ↔
      ∃ k < passes, m.PassFits rand e k := by
  induction passes generalizing rand with
  | zero => exact iff_of_false (by simp [rebuildLoop]) (by simp)
  | succ passes ih =>
    have hfirst := rebuildPass_eq_none_iff hm m.entries (rand 0) (rand 1) e tapId
    unfold rebuildLoop
    cases hpass : rebuildPass m m.entries (rand 0) (rand 1) e tapId with
    | some m' =>
      rw [hpass] at hfirst
      exact iff_of_true rfl ⟨0, Nat.succ_pos passes, not_not.1 (hfirst.not.1 (Option.some_ne_none m'))⟩
    | none =>
      dsimp only
      rw [ih]
      constructor
      · rintro ⟨k, hk, hfits⟩
        exact ⟨k + 1, Nat.succ_lt_succ hk, hfits⟩
      · rintro ⟨k, hk, hfits⟩
        cases k with
        | zero => exact absurd hfits (hfirst.1 hpass)
        | succ k => exact ⟨k, Nat.lt_of_succ_lt_succ hk, hfits⟩

/-- An insertion into a well-formed table fails exactly when the endpoints, old and new,
cannot have slots of their own. -/
theorem WellFormed.tryInsert_eq_none_iff (hm : m.WellFormed) (e : Endpoint) (tapId : Int) :
    UdpEthTunnel.tryInsert m e tapId = none ↔ ¬ m.HaveSlots (insert e (keys m.entries)) := by
  have hholds : Holds m.view (keys m.entries) := by
    intro k
    rw [mem_keys_iff]
    exact exists_comm
  have hview := view_tryInsert (m := m) (by have := hm.large; omega) e tapId
  rw [haveSlots_iff, ← put_isSome_iff_assigns m.paired_hash hm.coherent hholds (v := .ofInt 31 tapId),
    ← hview, Option.isSome_map, Bool.not_eq_true, Option.isSome_eq_false_iff,
    Option.isNone_iff_eq_none]

end EndpointMap

open EndpointMap

/-- **No displacement is needed.**  For a table of any power of two of slots under any two
nonces, a list of endpoints in any order goes into the empty table by `try_insert` alone
exactly when each of them can have one of its two slots to itself; so the order does
not matter, and neither a pass of the rebuild loop nor the insertion before it fails where
an entry could have been moved away. -/
theorem insertAll_iff_haveSlots {m : EndpointMap} {n : ℕ} (hn : m.allocEntries = 2 ^ n) :
    (m.Blank → ∀ xs : List (Endpoint × Int),
      ((insertAll m xs).isSome ↔ m.HaveSlots (xs.map Prod.fst).toFinset) ∧
        ∀ ys : List (Endpoint × Int), (ys.map Prod.fst).Perm (xs.map Prod.fst) →
          (insertAll m ys).isSome = (insertAll m xs).isSome) ∧
      (∀ table a b e tapId, rebuildPass m table a b e tapId = none ↔
        ¬ (m.reset a b).HaveSlots (insert e (keys table))) ∧
      ∀ e tapId, m.WellFormed → (tryInsert m e tapId = none ↔
        ¬ m.HaveSlots (insert e (keys m.entries))) := by
  have hpos : 0 < m.allocEntries := hn ▸ Nat.two_pow_pos n
  refine ⟨fun hblank xs => ⟨insertAll_isSome_iff hpos hblank xs, fun ys hperm => ?_⟩,
    fun table a b e tapId => rebuildPass_eq_none_iff hpos table a b e tapId,
    fun e tapId hm => hm.tryInsert_eq_none_iff e tapId⟩
  rw [Bool.eq_iff_iff, insertAll_isSome_iff hpos hblank, insertAll_isSome_iff hpos hblank,
    List.toFinset_eq_of_perm _ _ hperm]

/-- Two of three hosts with one unkeyed hash go into the empty table, in either order; the
three do not. -/
theorem insertAll_iff_haveSlots_three :
    (insertAll freshMap [(⟨⟨0⟩, 1⟩, 1), (⟨⟨0⟩, 0x100⟩, 2)]).isSome = true ∧
      (insertAll freshMap [(⟨⟨0⟩, 0x100⟩, 2), (⟨⟨0⟩, 1⟩, 1)]).isSome = true ∧
      ¬ freshMap.HaveSlots {⟨⟨0⟩, 1⟩, ⟨⟨0⟩, 0x100⟩, ⟨⟨1⟩, 0⟩} := by
  have hblank : freshMap.Blank := by
    show ∀ x ∈ freshMap.entries, x.present = false
    decide
  have h := (insertAll_iff_haveSlots (m := freshMap) (n := 5) rfl).1 hblank
  have htwo : (insertAll freshMap [(⟨⟨0⟩, 1⟩, 1), (⟨⟨0⟩, 0x100⟩, 2)]).isSome = true := by decide
  refine ⟨htwo, ?_, fun hthree => ?_⟩
  · rw [(h [(⟨⟨0⟩, 1⟩, 1), (⟨⟨0⟩, 0x100⟩, 2)]).2 _ (by decide)]
    exact htwo
  · have hfull : (insertAll freshMap [(⟨⟨0⟩, 1⟩, 1), (⟨⟨0⟩, 0x100⟩, 2), (⟨⟨1⟩, 0⟩, 3)]).isSome =
        false := by decide
    have hnot := (h [(⟨⟨0⟩, 1⟩, 1), (⟨⟨0⟩, 0x100⟩, 2), (⟨⟨1⟩, 0⟩, 3)]).1
    rw [hfull] at hnot
    exact absurd (hnot.2 hthree) Bool.false_ne_true

end UdpEthTunnel
