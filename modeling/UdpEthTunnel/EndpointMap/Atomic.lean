/-
# A failing `endpoint_map_add`

`endpoint_map_add` returns `NULL` when `realloc` fails and when the `malloc` of the copy
fails.  The first leaves the table as it was, and so does the second where the table was not
full.  A full table has been doubled before that `malloc`: the block may have moved, and then
the one the caller holds is released; and where it has not, `alloc_entries` is already twice
what it was, so that the entries are looked for under another mask, among memory that nobody
has cleared.  Whether that goes well depends on where the old entries and those of the memory
stand (`StandsRight`); `atomic_iff` puts it together.
-/

import Mathlib.Data.List.GetD
import UdpEthTunnel.EndpointMap.Add

namespace UdpEthTunnel

open TwoChoice

namespace EndpointMap

/-- **A call that returns `NULL` has done nothing**: the block it was given is live, and every
lookup in it returns what it returned before. -/
def Atomic (m : EndpointMap) (out : AddOutcome) : Prop :=
  out.ret = none → ∃ m', out = .nullKept m' ∧
    ∀ k, endpointMapLookup m' k = endpointMapLookup m k

/-- The first of the two slots of `k` that holds an entry for it holds the tap id `v`. -/
def Shows (m : EndpointMap) (k : Endpoint) (v : BitVec 31) : Prop :=
  m.view (m.hashA k) = some (k, v) ∨
    (∀ w, m.view (m.hashA k) ≠ some (k, w)) ∧ m.view (m.hashB k) = some (k, v)

/-- Slot `i` is one that a lookup of `k` reads, if it holds an entry for `k`: the first slot of
`k`, or the second where the first holds none. -/
def Reads (m : EndpointMap) (k : Endpoint) (i : ℕ) : Prop :=
  m.hashA k = i ∨ m.hashB k = i ∧ ∀ w, m.view (m.hashA k) ≠ some (k, w)

/-- **Where the entries stand after the block has doubled.**  Under the doubled mask and the old
nonces, each old entry stands in a slot that is read for its endpoint, or the appended memory
has an entry with the same endpoint and tap id in such a slot; and an appended entry in such a
slot repeats an old one.  A tap id of `-1` reads like no entry. -/
structure StandsRight (m : EndpointMap) (tail : ℕ → EndpointMapEntry) : Prop where
  old : ∀ i k v, m.view i = some (k, v) → v.toInt ≠ -1 → (m.grow tail).Reads k i ∨
    ∃ j < m.allocEntries, tail j = ⟨k.addr, k.port, true, v⟩ ∧
      (m.grow tail).Reads k (m.allocEntries + j)
  appended : ∀ j < m.allocEntries, ∀ k v, tail j = ⟨k.addr, k.port, true, v⟩ → v.toInt ≠ -1 →
    (m.grow tail).Reads k (m.allocEntries + j) → m.HasEntry k v

variable {m m' : EndpointMap} {e k : Endpoint} {tapId : Int} {env : AddEnv} {passes : ℕ}
  {out : AddOutcome} {tail : ℕ → EndpointMapEntry} {v : BitVec 31}

theorem shows_iff : m.Shows k v ↔ find m.hashA m.hashB m.view k = some v := by
  unfold Shows find
  rw [Option.or_eq_some_iff, valueAt_eq_some_iff, valueAt_eq_some_iff,
    Option.eq_none_iff_forall_ne_some]
  simp only [ne_eq, valueAt_eq_some_iff]

/-- Two maps answer alike when they find the same tap ids, `-1` apart. -/
theorem answer_eq_iff {o o' : Option (BitVec 31)} :
    (o.map BitVec.toInt).getD (-1) = (o'.map BitVec.toInt).getD (-1) ↔
      ∀ v : BitVec 31, v.toInt ≠ -1 → (o = some v ↔ o' = some v) := by
  have hfound : ∀ {o : Option (BitVec 31)} {v : BitVec 31}, v.toInt ≠ -1 →
      (o = some v ↔ (o.map BitVec.toInt).getD (-1) = v.toInt) := by
    intro o v hv
    cases o with
    | none => simp [hv.symm]
    | some w => simp [BitVec.toInt_inj]
  have hmiss : ∀ {o : Option (BitVec 31)},
      (∀ v : BitVec 31, v.toInt ≠ -1 → o ≠ some v) → (o.map BitVec.toInt).getD (-1) = -1 := by
    intro o ho
    cases o with
    | none => rfl
    | some w =>
      by_contra hw
      exact ho w hw rfl
  constructor
  · intro h v hv
    rw [hfound hv, hfound hv, h]
  · intro h
    by_cases hsome : ∃ v : BitVec 31, v.toInt ≠ -1 ∧ o = some v
    · obtain ⟨v, hv, ho⟩ := hsome
      rw [ho, (h v hv).1 ho]
    · push Not at hsome
      rw [hmiss hsome, hmiss fun v hv ho => hsome v hv ((h v hv).2 ho)]

/-- A tap id is shown by an entry in a slot that is read. -/
theorem shows_iff_reads : m.Shows k v ↔ ∃ i, m.Reads k i ∧ m.view i = some (k, v) := by
  constructor
  · rintro (hfirst | ⟨hnone, hsecond⟩)
    · exact ⟨_, .inl rfl, hfirst⟩
    · exact ⟨_, .inr ⟨rfl, hnone⟩, hsecond⟩
  · rintro ⟨i, rfl | ⟨rfl, hnone⟩, hi⟩
    · exact .inl hi
    · exact .inr ⟨hnone, hi⟩

/-- A slot of the doubled block is one of the old block or of the memory behind it. -/
theorem view_grow {i : ℕ} : (m.grow tail).view i = some (k, v) ↔ m.view i = some (k, v) ∨
    ∃ j < m.allocEntries, i = m.allocEntries + j ∧ tail j = ⟨k.addr, k.port, true, v⟩ := by
  have hentry : ∀ x : EndpointMapEntry, x.present = true ∧ x.endpoint = k ∧ x.tapId = v ↔
      x = ⟨k.addr, k.port, true, v⟩ := by
    rintro ⟨addr, port, present, id⟩
    constructor
    · rintro ⟨rfl, rfl, rfl⟩
      rfl
    · rintro ⟨⟩
      exact ⟨rfl, rfl, rfl⟩
  have habsent : ({} : EndpointMapEntry) ≠ ⟨k.addr, k.port, true, v⟩ := fun h => by
    cases congrArg EndpointMapEntry.present h
  have hlen : m.entries.length = m.allocEntries := m.size_eq
  rw [view_eq_some_iff, view_eq_some_iff, hentry, hentry]
  unfold entry grow
  rcases Nat.lt_or_ge i m.allocEntries with hlt | hge
  · rw [List.getD_append _ _ _ _ (hlen ▸ hlt)]
    refine ⟨.inl, fun h => h.resolve_right ?_⟩
    rintro ⟨j, -, rfl, -⟩
    omega
  · have hnot : m.entries.getD i {} ≠ ⟨k.addr, k.port, true, v⟩ := by
      rw [List.getD_eq_default _ _ (hlen ▸ hge)]
      exact habsent
    obtain ⟨j, rfl⟩ := Nat.exists_eq_add_of_le hge
    rw [or_iff_right hnot, List.getD_append_right _ _ _ _ (hlen ▸ hge), hlen, Nat.add_sub_cancel_left]
    rcases Nat.lt_or_ge j m.allocEntries with hj | hj
    · have hget : ((List.range m.allocEntries).map tail).getD j {} = tail j := by
        simp [List.getD_eq_getElem?_getD, hj]
      rw [hget]
      constructor
      · exact fun h => ⟨j, hj, rfl, h⟩
      · rintro ⟨j', -, heq, h⟩
        obtain rfl := Nat.add_left_cancel heq
        exact h
    · rw [List.getD_eq_default _ _ (by simpa using hj)]
      refine iff_of_false habsent ?_
      rintro ⟨j', hj', heq, -⟩
      omega

/-- **When a table that has grown in place still answers as before.** -/
theorem lookup_grow_iff (hm : Separate m.hashA m.hashB m.view) (tail : ℕ → EndpointMapEntry) :
    (∀ k, endpointMapLookup (m.grow tail) k = endpointMapLookup m k) ↔ m.StandsRight tail := by
  have hshown : (∀ k, endpointMapLookup (m.grow tail) k = endpointMapLookup m k) ↔
      ∀ k (v : BitVec 31), v.toInt ≠ -1 → ((m.grow tail).Shows k v ↔ m.HasEntry k v) := by
    refine forall_congr' fun k => ?_
    rw [lookup_eq_find, lookup_eq_find, answer_eq_iff]
    refine forall_congr' fun v => imp_congr_right fun _ => ?_
    rw [← shows_iff, hm.find_eq_some_iff]
    rfl
  rw [hshown]
  constructor
  · intro h
    refine ⟨fun i k v hi hv => ?_, fun j hj k v htail hv hreads => ?_⟩
    · obtain ⟨i', hreads, hi'⟩ := shows_iff_reads.1 ((h k v hv).2 ⟨i, hi⟩)
      rcases view_grow.1 hi' with hold | ⟨j, hj, rfl, htail⟩
      · obtain rfl := hm.unique hi hold
        exact .inl hreads
      · exact .inr ⟨j, hj, htail, hreads⟩
    · exact (h k v hv).1 (shows_iff_reads.2 ⟨_, hreads, view_grow.2 (.inr ⟨j, hj, rfl, htail⟩)⟩)
  · refine fun h k v hv => ⟨fun hshows => ?_, ?_⟩
    · obtain ⟨i, hreads, hi⟩ := shows_iff_reads.1 hshows
      rcases view_grow.1 hi with hold | ⟨j, hj, rfl, htail⟩
      · exact ⟨i, hold⟩
      · exact h.appended j hj k v htail hv hreads
    · rintro ⟨i, hi⟩
      rw [shows_iff_reads]
      rcases h.old i k v hi hv with hreads | ⟨j, hj, htail, hreads⟩
      · exact ⟨i, hreads, view_grow.2 (.inl hi)⟩
      · exact ⟨_, hreads, view_grow.2 (.inr ⟨j, hj, rfl, htail⟩)⟩

/-- A table that is given back as it was. -/
theorem atomic_nullKept (m : EndpointMap) : m.Atomic (.nullKept m) :=
  fun _ => ⟨m, rfl, fun _ => rfl⟩

theorem atomic_of_ret (h : out.ret = some m') : m.Atomic out := by
  intro hnull
  rw [hnull] at h
  cases h

theorem atomic_grow_iff (hm : Separate m.hashA m.hashB m.view) :
    m.Atomic (.nullKept (m.grow tail)) ↔ m.StandsRight tail := by
  rw [← lookup_grow_iff hm]
  constructor
  · intro h
    obtain ⟨m', hm', hsame⟩ := h rfl
    cases hm'
    exact hsame
  · exact fun h _ => ⟨_, rfl, h⟩

theorem not_atomic_nullMoved (m : EndpointMap) : ¬ m.Atomic .nullMoved := by
  intro h
  obtain ⟨m', hm', -⟩ := h rfl
  cases hm'

end EndpointMap

open EndpointMap

/-- **When a failing `endpoint_map_add` leaves the map alone.**  For a map whose entries are
in their slots, no endpoint twice, and whatever `realloc` and `malloc` do: a call does
nothing when it returns `NULL`, unless the table is full, `realloc` has doubled it and the
`malloc` of the copy fails; and then it does so only where the block has not moved and, under
the doubled mask, the old entries and the appended memory happen to stand in the right slots. -/
theorem atomic_iff {m : EndpointMap} {e : Endpoint} {tapId : Int} {env : AddEnv} {passes : ℕ}
    {out : AddOutcome} (hm : Separate m.hashA m.hashB m.view)
    (h : endpointMapAdd env passes m e tapId = some out) :
    m.Atomic out ↔ (m.allocEntries ≤ m.numEntries → env.malloc = false →
      ∀ tail, env.realloc ≠ .moved tail ∧ (env.realloc = .inPlace tail → m.StandsRight tail)) := by
  cases addOf h with
  | direct m' hroom | rebuilt m' _ _ hroom =>
    exact ⟨fun _ hfull => absurd hroom (Nat.not_lt.2 hfull), fun _ => atomic_of_ret rfl⟩
  | noCopy hroom =>
    exact ⟨fun _ hfull => absurd hroom (Nat.not_lt.2 hfull), fun _ => atomic_nullKept m⟩
  | noGrowth _ hr =>
    rw [hr]
    exact ⟨fun _ _ _ tail => ⟨by simp, by simp⟩, fun _ => atomic_nullKept m⟩
  | grown tail m' a b hfull hr | grownMoved tail m' a b hfull hr =>
    have hmalloc : env.malloc = true := by
      by_contra hno
      unfold endpointMapAdd at h
      simp [hfull, hr, hno] at h
    exact ⟨fun _ _ hno => absurd (hmalloc.symm.trans hno) (by decide), fun _ => atomic_of_ret rfl⟩
  | noCopyGrown tail hfull hr hmalloc =>
    rw [atomic_grow_iff hm, hr]
    refine ⟨fun hstands _ _ tail' => ⟨by simp, ?_⟩, fun hcond => ?_⟩
    · rintro ⟨⟩
      exact hstands
    · exact (hcond hfull hmalloc tail).2 rfl
  | noCopyMoved tail hfull hr hmalloc =>
    rw [hr]
    refine ⟨fun hno => absurd hno (not_atomic_nullMoved m), fun hcond => ?_⟩
    exact absurd rfl (hcond hfull hmalloc tail).1

/-- A full map of the 32 hosts from address 32 on, under the nonces 0 and 1. -/
def farMap : EndpointMap :=
  { numEntries := 32, allocEntries := 32, nonceA := 0, nonceB := 1,
    entries := (List.range 32).map fun i =>
      { remoteAddr := ⟨.ofNat 128 (32 + i)⟩, port := 0, present := true, tapId := .ofNat 31 i },
    size_eq := rfl }

theorem separate_farMap : Separate farMap.hashA farMap.hashB farMap.view := by
  have hslot : ∀ i < 32, farMap.hashA (farMap.entry i).endpoint = i := by decide +kernel
  have hhome : ∀ {i k v}, farMap.view i = some (k, v) → i = farMap.hashA k :=
    fun h => eq_hashA_of_view hslot h
  exact ⟨fun h => .inl (hhome h), fun h h' => (hhome h).trans (hhome h').symm⟩

/-- The C library when memory runs out. -/
def outOfMemory (realloc : Realloc) : AddEnv :=
  { realloc := realloc, malloc := false, rand := fun _ => 0 }

/-- With no memory to grow into, a full map stays what it was. -/
theorem atomic_iff_full : ∃ out,
    endpointMapAdd (outOfMemory .failed) 1 farMap (switchHost 2) 32 = some out ∧
      out.ret = none ∧ farMap.Atomic out := by
  refine ⟨.nullKept farMap, rfl, rfl, ?_⟩
  have hcall : endpointMapAdd (outOfMemory .failed) 1 farMap (switchHost 2) 32 =
      some (.nullKept farMap) := rfl
  refine (atomic_iff separate_farMap hcall).2 ?_
  exact fun _ _ tail => ⟨by simp [outOfMemory], by simp [outOfMemory]⟩

/-- Where the full table has grown before memory runs out, the call returns `NULL` and either
the block is gone or, the memory appended being zeroed, the host with tap id 0 is no longer
found. -/
theorem atomic_fails :
    Separate farMap.hashA farMap.hashB farMap.view ∧
      endpointMapAdd (outOfMemory (.moved fun _ => {})) 1 farMap (switchHost 2) 32 =
        some .nullMoved ∧
      ¬ farMap.Atomic .nullMoved ∧
      endpointMapAdd (outOfMemory (.inPlace fun _ => {})) 1 farMap (switchHost 2) 32 =
        some (.nullKept (farMap.grow fun _ => {})) ∧
      endpointMapLookup farMap ⟨⟨32⟩, 0⟩ = 0 ∧
      endpointMapLookup (farMap.grow fun _ => {}) ⟨⟨32⟩, 0⟩ = -1 ∧
      ¬ farMap.Atomic (.nullKept (farMap.grow fun _ => {})) := by
  have hbefore : endpointMapLookup farMap ⟨⟨32⟩, 0⟩ = 0 := by decide +kernel
  have hafter : endpointMapLookup (farMap.grow fun _ => {}) ⟨⟨32⟩, 0⟩ = -1 := by decide +kernel
  refine ⟨separate_farMap, rfl, not_atomic_nullMoved _, rfl, hbefore, hafter, fun h => ?_⟩
  obtain ⟨m', hm', hsame⟩ := h rfl
  cases hm'
  have := hsame ⟨⟨32⟩, 0⟩
  omega

end UdpEthTunnel
