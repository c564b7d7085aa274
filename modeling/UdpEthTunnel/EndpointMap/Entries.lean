/-
# What the entries of a table can be

A property of the endpoints of the present entries and their tap ids holds of a table
that `endpoint_map_add` leaves behind if it held of the table before, of the new
endpoint, and of the memory `realloc` appends to a full table (`EntriesIn.add`).  This
needs no invariant of the table: it also holds of what a call that fails leaves
behind.
-/

import UdpEthTunnel.EndpointMap.Add

namespace UdpEthTunnel

/-- The table the block holds after the call, unless it was released. -/
def AddOutcome.held : AddOutcome → Option EndpointMap
  | .kept m | .moved m | .nullKept m => some m
  | .nullMoved => none

namespace EndpointMap

/-- Every present entry of the list has the property. -/
def Present (P : Endpoint → BitVec 31 → Prop) (table : List EndpointMapEntry) : Prop :=
  ∀ x ∈ table, x.present = true → P x.endpoint x.tapId

/-- Every present entry of the table has the property. -/
def EntriesIn (m : EndpointMap) (P : Endpoint → BitVec 31 → Prop) : Prop := Present P m.entries

variable {P : Endpoint → BitVec 31 → Prop} {m m' : EndpointMap} {e : Endpoint} {tapId : Int}
  {env : AddEnv} {passes : ℕ} {out : AddOutcome} {table : List EndpointMapEntry}

theorem entriesIn_create {calloc : Bool} {rand : ℕ → Rand}
    (h : endpointMapCreate calloc rand = some m) : m.EntriesIn P := by
  unfold endpointMapCreate at h
  split_ifs at h
  obtain rfl := Option.some.inj h
  intro x hx hp
  rw [List.eq_of_mem_replicate hx] at hp
  cases hp

/-- What a lookup finds is a present entry. -/
theorem lookup_mem (h : 0 ≤ endpointMapLookup m e) : ∃ x ∈ m.entries, x.present = true ∧
    x.endpoint = e ∧ x.tapId.toInt = endpointMapLookup m e := by
  have hmem : ∀ i, (m.entry i).present = true → m.entry i ∈ m.entries := by
    intro i hp
    unfold entry at hp ⊢
    rw [List.getD_eq_getElem?_getD] at hp ⊢
    cases hi : m.entries[i]? with
    | none =>
      rw [hi] at hp
      cases hp
    | some x => exact List.mem_of_getElem? hi
  unfold endpointMapLookup at h ⊢
  simp only [lookupLoop] at h ⊢
  split_ifs at h ⊢ with hA hB
  · exact ⟨_, hmem _ hA.1, hA.1, (endpoint_eq_iff _).1 hA.2, rfl⟩
  · exact ⟨_, hmem _ hB.1, hB.1, (endpoint_eq_iff _).1 hB.2, rfl⟩
  · omega

theorem EntriesIn.tryInsert (hm : m.EntriesIn P) (he : P e (.ofInt 31 tapId))
    (h : tryInsert m e tapId = some m') : m'.EntriesIn P := by
  obtain ⟨i, -, hcase⟩ := tryInsert_cases h
  intro x hx hp
  rcases hcase with ⟨-, hend, rfl⟩ | ⟨-, rfl⟩ <;>
    rcases List.mem_or_eq_of_mem_set hx with hx | rfl
  · exact hm x hx hp
  · exact hend ▸ he
  · exact hm x hx hp
  · exact he

theorem EntriesIn.reinsert (hm : m.EntriesIn P) (ht : Present P table)
    (h : reinsert m table = some m') : m'.EntriesIn P := by
  induction table generalizing m with
  | nil => exact Option.some.inj h ▸ hm
  | cons x xs ih =>
    have hxs : Present P xs := fun y hy => ht y (List.mem_cons_of_mem _ hy)
    unfold UdpEthTunnel.reinsert at h
    split_ifs at h with hp
    · split at h
      · cases h
      case h_2 m₁ hm₁ =>
        have hx : P x.endpoint (.ofInt 31 x.tapId.toInt) := by
          rw [BitVec.ofInt_toInt]
          exact ht x List.mem_cons_self hp
        exact ih (hm.tryInsert hx hm₁) hxs h
    · exact ih hm hxs h

theorem EntriesIn.rebuildPass {a b : Rand} (ht : Present P table) (he : P e (.ofInt 31 tapId))
    (h : rebuildPass m table a b e tapId = some m') : m'.EntriesIn P := by
  unfold UdpEthTunnel.rebuildPass at h
  split at h
  · cases h
  case h_2 m₁ hm₁ =>
    have hblank : (m.reset a b).EntriesIn P := by
      intro x hx hp
      rw [List.eq_of_mem_replicate hx] at hp
      cases hp
    exact (hblank.reinsert ht hm₁).tryInsert he h

theorem EntriesIn.grow {tail : ℕ → EndpointMapEntry} (hm : m.EntriesIn P)
    (ht : ∀ i < m.allocEntries, (tail i).present = true → P (tail i).endpoint (tail i).tapId) :
    (m.grow tail).EntriesIn P := by
  intro x hx hp
  rcases List.mem_append.1 hx with hx | hx
  · exact hm x hx hp
  · obtain ⟨i, hi, rfl⟩ := List.mem_map.1 hx
    exact ht i (List.mem_range.1 hi) hp

/-- The memory a reallocation appends has the property. -/
def TailIn (P : Endpoint → BitVec 31 → Prop) (n : ℕ) : Realloc → Prop
  | .failed => True
  | .inPlace tail | .moved tail =>
    ∀ i < n, (tail i).present = true → P (tail i).endpoint (tail i).tapId

/-- **`endpoint_map_add` brings in no other entries** than the new endpoint and what
`realloc` appends to a full table. -/
theorem EntriesIn.add (hm : m.EntriesIn P) (he : P e (.ofInt 31 tapId))
    (htail : m.allocEntries ≤ m.numEntries → TailIn P m.allocEntries env.realloc)
    (h : endpointMapAdd env passes m e tapId = some out) (hheld : out.held = some m') :
    m'.EntriesIn P := by
  have hgrow : ∀ {tail}, m.allocEntries ≤ m.numEntries →
      env.realloc = .inPlace tail ∨ env.realloc = .moved tail → (m.grow tail).EntriesIn P := by
    intro tail hfull hr
    have ht := htail hfull
    rcases hr with hr | hr <;> rw [hr] at ht <;> exact hm.grow ht
  cases addOf h with
  | direct m₁ _ hi => exact Option.some.inj hheld ▸ hm.tryInsert he hi
  | rebuilt m₁ a b _ hpass => exact Option.some.inj hheld ▸ EntriesIn.rebuildPass hm he hpass
  | noCopy => exact Option.some.inj hheld ▸ hm
  | noGrowth => exact Option.some.inj hheld ▸ hm
  | grown tail m₁ a b hfull hr hpass =>
    exact Option.some.inj hheld ▸ EntriesIn.rebuildPass (hgrow hfull (.inl hr)) he hpass
  | grownMoved tail m₁ a b hfull hr hpass =>
    exact Option.some.inj hheld ▸ EntriesIn.rebuildPass (hgrow hfull (.inr hr)) he hpass
  | noCopyGrown tail hfull hr => exact Option.some.inj hheld ▸ hgrow hfull (.inl hr)
  | noCopyMoved => cases hheld

end EndpointMap

end UdpEthTunnel
