/-
# Removal, and what it does to later insertions

`endpoint_map_remove` clears the entry it finds and moves nothing, so the first slot of
another endpoint may become free while that endpoint stays in its second one.
`try_insert` takes the first of the two slots that is free: a later `endpoint_map_add` of
that endpoint makes a second entry of it, and then a removal leaves one behind.

Histories of calls that find room in the table (`History`) are right in every state
(`RightAfter`) exactly when no call adds an endpoint so (`removes_iff`).
-/

import UdpEthTunnel.EndpointMap.Entries
import UdpEthTunnel.EndpointMap.Separation
import UdpEthTunnel.Lib.Runs

namespace UdpEthTunnel

open TwoChoice Runs

/-- The loop of `endpoint_map_remove`.  A present entry has been counted, so the count
does not wrap. -/
def removeLoop (m : EndpointMap) (e : Endpoint) : List ℕ → Bool × EndpointMap
  | [] => (false, m)
  | i :: rest =>
    let entry := m.entry i
    if entry.present ∧ e.addr.addr = entry.remoteAddr.addr ∧ entry.port = e.port then
      (true, { m.setEntry i { entry with present := false } with numEntries := m.numEntries - 1 })
    else removeLoop m e rest

/-- `endpoint_map_remove`: what it returns, and the map it leaves. -/
def endpointMapRemove (m : EndpointMap) (e : Endpoint) : Bool × EndpointMap :=
  removeLoop m e [m.hashA e, m.hashB e]

/-- A call of the map's interface, with what it answers: `false` for an
`endpoint_map_add` that returns `NULL`. -/
inductive TableCall where
  | add (e : Endpoint) (tapId : Int) (ok : Bool)
  | remove (e : Endpoint) (ok : Bool)
deriving DecidableEq, Repr

/-- The endpoint was added and has not been removed since. -/
def AddedSince (calls : List TableCall) (k : Endpoint) : Prop :=
  ∃ tapId before after, calls = before ++ .add k tapId true :: after ∧
    ∀ ok, TableCall.remove k ok ∉ after

namespace EndpointMap

/-- One call on the map; an `endpoint_map_add` finds room in the table. -/
inductive CallStep (m : EndpointMap) : TableCall → EndpointMap → Prop
  | added {e : Endpoint} {tapId : Int} {env : AddEnv} {passes : ℕ} {out : AddOutcome}
      {m' : EndpointMap} (hroom : m.numEntries < m.allocEntries)
      (h : endpointMapAdd env passes m e tapId = some out) (hret : out.ret = some m') :
      CallStep m (.add e tapId true) m'
  | notAdded {e : Endpoint} {tapId : Int} {env : AddEnv} {passes : ℕ} {out : AddOutcome}
      {m' : EndpointMap} (hroom : m.numEntries < m.allocEntries)
      (h : endpointMapAdd env passes m e tapId = some out) (hret : out.ret = none)
      (hheld : out.held = some m') : CallStep m (.add e tapId false) m'
  | removed {e : Endpoint} : CallStep m (.remove e (endpointMapRemove m e).1)
      (endpointMapRemove m e).2

/-- A history of calls that leads from one map to another. -/
abbrev History : EndpointMap → List (Event EndpointMap TableCall) → EndpointMap → Prop :=
  Run fun m c m' => CallStep m c m'

/-- **What a map is right in after the calls**: what a removal answers and does, and the
count. -/
structure RightAfter (calls : List TableCall) (m : EndpointMap) : Prop where
  removes : ∀ k, (endpointMapRemove m k).1 = true ↔ AddedSince calls k
  gone : ∀ k, endpointMapLookup (endpointMapRemove m k).2 k = -1
  others : ∀ k k', k' ≠ k →
    endpointMapLookup (endpointMapRemove m k).2 k' = endpointMapLookup m k'
  count : m.numEntries = (keys m.entries).card
  once : ∀ i j k v w, m.view i = some (k, v) → m.view j = some (k, w) → i = j

/-- The call does not add an endpoint that is in its second slot while its first one is
free. -/
def NotShadowed (m : EndpointMap) : TableCall → Prop
  | .add e _ _ => ¬ ((m.entry (m.hashA e)).present = false ∧
      (m.entry (m.hashB e)).present = true ∧ (m.entry (m.hashB e)).endpoint = e)
  | .remove _ _ => True

variable {m m' : EndpointMap} {e k : Endpoint} {tapId : Int} {calls : List TableCall} {c : TableCall}

/-- Clearing an entry is clearing the slot. -/
theorem view_clearEntry {i : ℕ} (hi : i < m.allocEntries) {x : EndpointMapEntry}
    (hx : x.present = false) : (m.setEntry i x).view = Function.update m.view i none := by
  funext j
  unfold view
  rw [entry_setEntry hi]
  by_cases hj : j = i
  · subst hj
    simp [hx]
  · simp [hj]

theorem valueAt_view_eq_some_iff {i : ℕ} : (valueAt m.view e i).isSome = true ↔
    (m.entry i).present = true ∧ e.addr.addr = (m.entry i).remoteAddr.addr ∧
      (m.entry i).port = e.port := by
  rw [endpoint_eq_iff, Option.isSome_iff_exists]
  simp only [valueAt_eq_some_iff, view_eq_some_iff, exists_and_left, exists_eq', and_true]

/-- How a removal ends. -/
theorem remove_cases (m : EndpointMap) (e : Endpoint) :
    ((valueAt m.view e (m.hashA e)).isSome = false ∧ (valueAt m.view e (m.hashB e)).isSome = false ∧
      endpointMapRemove m e = (false, m)) ∨
    ∃ i, (i = m.hashA e ∨ i = m.hashB e ∧ (valueAt m.view e (m.hashA e)).isSome = false) ∧
      (valueAt m.view e i).isSome = true ∧ endpointMapRemove m e =
        (true, { m.setEntry i { m.entry i with present := false } with
                 numEntries := m.numEntries - 1 }) := by
  unfold endpointMapRemove
  simp only [removeLoop, ← valueAt_view_eq_some_iff]
  by_cases hA : (valueAt m.view e (m.hashA e)).isSome = true
  · exact .inr ⟨_, .inl rfl, hA, if_pos hA⟩
  · have hA' := Bool.eq_false_iff.2 hA
    by_cases hB : (valueAt m.view e (m.hashB e)).isSome = true
    · refine .inr ⟨_, .inr ⟨rfl, hA'⟩, hB, ?_⟩
      rw [if_neg hA, if_pos hB]
    · refine .inl ⟨hA', Bool.eq_false_iff.2 hB, ?_⟩
      rw [if_neg hA, if_neg hB]

/-- **`endpoint_map_remove` is `erase`**, and answers whether the endpoint was found. -/
theorem remove_spec (hm : 0 < m.allocEntries) (e : Endpoint) :
    SameSlots m (endpointMapRemove m e).2 ∧
      (endpointMapRemove m e).2.view = erase m.hashA m.hashB m.view e ∧
      (endpointMapRemove m e).1 = (find m.hashA m.hashB m.view e).isSome := by
  unfold erase find
  rw [Option.isSome_or]
  rcases remove_cases m e with ⟨hA, hB, hrem⟩ | ⟨i, hi, hfound, hrem⟩
  · rw [hrem, hA, hB]
    exact ⟨SameSlots.rfl, rfl, rfl⟩
  · have hlt : i < m.allocEntries := by
      rcases hi with rfl | ⟨rfl, -⟩
      · exact slot_lt hm _ e
      · exact slot_lt hm _ e
    have hview := view_clearEntry hlt (x := { m.entry i with present := false }) rfl
    rw [hrem]
    refine ⟨⟨rfl, rfl, rfl⟩, ?_, ?_⟩
    · rcases hi with rfl | ⟨rfl, hA⟩
      · rw [if_pos hfound]
        exact hview
      · rw [hA, if_neg Bool.false_ne_true, if_pos hfound]
        exact hview
    · rcases hi with rfl | ⟨rfl, hA⟩
      · rw [hfound, Bool.true_or]
      · rw [hfound, Bool.or_true]

/-- A removal keeps `num_entries` equal to the number of present entries. -/
theorem remove_count (hm : 0 < m.allocEntries)
    (hc : m.numEntries = m.entries.countP (·.present)) (e : Endpoint) :
    (endpointMapRemove m e).2.numEntries =
      (endpointMapRemove m e).2.entries.countP (·.present) := by
  rcases remove_cases m e with ⟨-, -, hrem⟩ | ⟨i, hi, hfound, hrem⟩ <;> rw [hrem]
  · exact hc
  · have hlt : i < m.entries.length := by
      rw [m.size_eq]
      rcases hi with rfl | ⟨rfl, -⟩
      · exact slot_lt hm _ e
      · exact slot_lt hm _ e
    have hentry : m.entry i = m.entries[i] := by
      simp [entry, List.getD_eq_getElem?_getD, hlt]
    have hp := (valueAt_view_eq_some_iff.1 hfound).1
    rw [hentry] at hp
    simp only [setEntry, List.countP_set hlt, hp, if_true, Bool.false_eq_true, if_false]
    omega

/-! ### Histories -/

/-- One more call. -/
theorem addedSince_snoc : AddedSince (calls ++ [c]) k ↔
    (∃ tapId, c = .add k tapId true) ∨ (∀ ok, c ≠ .remove k ok) ∧ AddedSince calls k := by
  constructor
  · rintro ⟨tapId, before, after, heq, hnot⟩
    rcases List.eq_nil_or_concat after with rfl | ⟨init, last, rfl⟩
    · obtain ⟨-, hc⟩ := List.append_inj' heq rfl
      exact .inl ⟨tapId, List.singleton_inj.1 hc⟩
    · rw [List.concat_eq_append, ← List.cons_append, ← List.append_assoc] at heq
      obtain ⟨hcalls, hc⟩ := List.append_inj' heq rfl
      obtain rfl := List.singleton_inj.1 hc
      rw [List.concat_eq_append] at hnot
      refine .inr ⟨fun ok h => hnot ok ?_, tapId, before, init, hcalls, fun ok h => hnot ok ?_⟩
      · exact List.mem_append_right _ (List.mem_singleton.2 h.symm)
      · exact List.mem_append_left _ h
  · rintro (⟨tapId, rfl⟩ | ⟨hne, tapId, before, after, rfl, hnot⟩)
    · exact ⟨tapId, calls, [], rfl, fun ok => List.not_mem_nil⟩
    · refine ⟨tapId, before, after ++ [c], by simp, fun ok h => ?_⟩
      rcases List.mem_append.1 h with h | h
      · exact hnot ok h
      · exact hne ok (List.mem_singleton.1 h).symm

theorem not_addedSince_nil : ¬ AddedSince [] k := by
  rintro ⟨tapId, before, after, h, -⟩
  simp at h

/-- **What holds after calls that add no shadowed endpoint.** -/
structure Tidy (calls : List TableCall) (m : EndpointMap) : Prop where
  pos : 0 < m.allocEntries
  separate : Separate m.hashA m.hashB m.view
  count : m.numEntries = m.entries.countP (·.present)
  history : ∀ k, (∃ v, m.HasEntry k v) ↔ AddedSince calls k

theorem tidy_create {calloc : Bool} {rand : ℕ → Rand}
    (h : endpointMapCreate calloc rand = some m) : Tidy [] m := by
  have hm := wellFormed_create h
  have hl := hm.large
  refine ⟨by omega, hm.coherent.separate, hm.count, fun k => iff_of_false ?_ not_addedSince_nil⟩
  rintro ⟨v, i, hi⟩
  have hblank : m.entries = List.replicate 32 {} := by
    unfold endpointMapCreate at h
    split_ifs at h
    exact Option.some.inj h ▸ rfl
  rw [view_of_blank hblank] at hi
  cases hi

/-- The condition on a call, on the table. -/
theorem unshadowed_iff {ok : Bool} :
    m.NotShadowed (.add e tapId ok) ↔ Unshadowed m.hashA m.hashB m.view e := by
  have hfree : m.view (m.hashA e) = none ↔ (m.entry (m.hashA e)).present = false := by
    unfold view
    cases (m.entry (m.hashA e)).present <;> simp
  unfold NotShadowed Unshadowed
  rw [hfree]
  constructor
  · intro h hA w hw
    obtain ⟨hp, he, -⟩ := view_eq_some_iff.1 hw
    exact h ⟨hA, hp, he⟩
  · rintro h ⟨hA, hp, he⟩
    exact h hA _ (view_eq_some_iff.2 ⟨hp, he, rfl⟩)

/-- An insertion of an endpoint that is not shadowed. -/
theorem Tidy.added (hm : Tidy calls m) (hshadow : Unshadowed m.hashA m.hashB m.view e)
    {env : AddEnv} {passes : ℕ} {out : AddOutcome} (hroom : m.numEntries < m.allocEntries)
    (h : endpointMapAdd env passes m e tapId = some out) (hret : out.ret = some m') :
    Tidy (calls ++ [.add e tapId true]) m' := by
  have hdone : ∀ {m' : EndpointMap}, 0 < m'.allocEntries → Separate m'.hashA m'.hashB m'.view →
      m'.numEntries = m'.entries.countP (·.present) →
      (∀ k, (∃ v, m'.HasEntry k v) ↔ k = e ∨ ∃ v, m.HasEntry k v) →
      Tidy (calls ++ [.add e tapId true]) m' := by
    intro m' hpos hsep hcount hkeys
    refine ⟨hpos, hsep, hcount, fun k => ?_⟩
    rw [hkeys, hm.history, addedSince_snoc]
    constructor
    · rintro (rfl | hk)
      · exact .inl ⟨tapId, rfl⟩
      · exact .inr ⟨fun ok => nofun, hk⟩
    · rintro (⟨tapId', hc⟩ | ⟨-, hk⟩)
      · exact .inl (TableCall.add.inj hc).1.symm
      · exact .inr hk
  cases addOf h with
  | direct m₁ _ hi =>
    obtain rfl := Option.some.inj hret
    have hslots := tryInsert_sameSlots hi
    have hput := view_tryInsert hm.pos e tapId
    rw [hi, Option.map_some] at hput
    have hsep := hm.separate.put hshadow hput.symm
    have hfind := hm.separate.find_put hshadow hput.symm
    rw [← hslots.hashA, ← hslots.hashB] at hsep hfind
    refine hdone (hslots.alloc ▸ hm.pos) hsep (tryInsert_count hm.pos hm.count hi) fun k => ?_
    have hnew : (∃ v, m₁.HasEntry k v) ↔ ∃ v, find m₁.hashA m₁.hashB m₁.view k = some v :=
      exists_congr fun v => hsep.find_eq_some_iff.symm
    have hold : (∃ v, m.HasEntry k v) ↔ ∃ v, find m.hashA m.hashB m.view k = some v :=
      exists_congr fun v => hm.separate.find_eq_some_iff.symm
    rw [hnew, hold, hfind]
    by_cases hk : k = e <;> simp [hk, hslots.hashA, hslots.hashB]
  | rebuilt m₁ a b _ hpass =>
    obtain rfl := Option.some.inj hret
    obtain ⟨halloc, hcoherent, hcount, hfind⟩ := rebuildPass_find hm.pos hpass
    refine hdone (halloc ▸ hm.pos) hcoherent.separate hcount fun k => ?_
    have hnew : (∃ v, m₁.HasEntry k v) ↔ ∃ v, find m₁.hashA m₁.hashB m₁.view k = some v :=
      exists_congr fun v => hcoherent.find_eq_some_iff.symm
    have hold : (∃ v, m.HasEntry k v) ↔ ∃ v, override (fun _ => none) (pairs m.entries) k = some v :=
      exists_congr fun v => (override_pairs_eq_some_iff hm.separate.unique).symm
    rw [hnew, hold, hfind, override_append]
    show (∃ v, (if k = e then some (BitVec.ofInt 31 tapId) else _) = some v) ↔ _
    by_cases hk : k = e <;> simp [hk]
  | noCopy => cases hret
  | _ => omega

/-- A call that answers `NULL` leaves the map as it was. -/
theorem Tidy.notAdded (hm : Tidy calls m) {env : AddEnv} {passes : ℕ} {out : AddOutcome}
    (hroom : m.numEntries < m.allocEntries)
    (h : endpointMapAdd env passes m e tapId = some out) (hret : out.ret = none)
    (hheld : out.held = some m') : Tidy (calls ++ [.add e tapId false]) m' := by
  have hsame : m' = m := by
    cases addOf h with
    | noCopy => exact (Option.some.inj hheld).symm
    | direct | rebuilt => cases hret
    | _ => omega
  subst hsame
  refine ⟨hm.pos, hm.separate, hm.count, fun k => ?_⟩
  rw [hm.history, addedSince_snoc]
  constructor
  · exact fun hk => .inr ⟨fun ok => nofun, hk⟩
  · rintro (⟨_, hc⟩ | ⟨-, hk⟩)
    · exact absurd (TableCall.add.inj hc).2.2 nofun
    · exact hk

/-- A removal. -/
theorem Tidy.removed (hm : Tidy calls m) (e : Endpoint) :
    Tidy (calls ++ [.remove e (endpointMapRemove m e).1]) (endpointMapRemove m e).2 := by
  obtain ⟨hslots, hview, -⟩ := remove_spec hm.pos e
  refine ⟨hslots.alloc ▸ hm.pos, ?_, remove_count hm.pos hm.count e, fun k => ?_⟩
  · rw [hslots.hashA, hslots.hashB, hview]
    exact hm.separate.erase e
  · have hkeys : (∃ v, (endpointMapRemove m e).2.HasEntry k v) ↔ k ≠ e ∧ ∃ v, m.HasEntry k v := by
      unfold HasEntry
      simp only [hview, hm.separate.erase_eq_some_iff, exists_and_left]
    rw [hkeys, hm.history, addedSince_snoc]
    constructor
    · rintro ⟨hne, hk⟩
      exact .inr ⟨fun ok hc => hne (TableCall.remove.inj hc).1.symm, hk⟩
    · rintro (⟨_, hc⟩ | ⟨hne, hk⟩)
      · cases hc
      · refine ⟨?_, hk⟩
        rintro rfl
        exact hne _ rfl

/-- **A tidy map is right.** -/
theorem Tidy.rightAfter (hm : Tidy calls m) : RightAfter calls m := by
  have hlookup : ∀ k k', endpointMapLookup (endpointMapRemove m k).2 k' =
      if k' = k then -1 else endpointMapLookup m k' := by
    intro k k'
    obtain ⟨hslots, hview, -⟩ := remove_spec hm.pos k
    rw [lookup_eq_find, lookup_eq_find, hslots.hashA, hslots.hashB, hview,
      hm.separate.find_erase k k']
    split_ifs <;> rfl
  refine ⟨fun k => ?_, fun k => ?_, fun k k' hne => ?_, ?_, fun i j k v w => hm.separate.unique⟩
  · obtain ⟨-, -, hfound⟩ := remove_spec hm.pos k
    rw [hfound, ← hm.history, Option.isSome_iff_exists]
    exact exists_congr fun v => hm.separate.find_eq_some_iff
  · rw [hlookup, if_pos rfl]
  · rw [hlookup, if_neg hne]
  · rw [card_keys hm.separate.unique, hm.count]

/-- A shadowed endpoint that is added is in the map twice. -/
theorem not_rightAfter_of_shadowed {env : AddEnv} {passes : ℕ} {out : AddOutcome}
    (hm : 0 < m.allocEntries) (hroom : m.numEntries < m.allocEntries)
    (hshadow : ¬ Unshadowed m.hashA m.hashB m.view e)
    (h : endpointMapAdd env passes m e tapId = some out) :
    ∃ m', out = .kept m' ∧ ∀ calls, ¬ RightAfter calls m' := by
  obtain ⟨t', hput, hne, hA, w, hB⟩ := put_of_shadowed hshadow (.ofInt 31 tapId)
  rw [← view_tryInsert hm e tapId] at hput
  obtain ⟨m', hi, rfl⟩ := Option.map_eq_some_iff.1 hput
  refine ⟨m', ?_, fun calls hright => hne (hright.once _ _ e _ w hA hB)⟩
  unfold endpointMapAdd at h
  dsimp only at h
  rw [if_neg (by omega), hi] at h
  exact (Option.some.inj h).symm

/-- **Calls that add no shadowed endpoint keep a map tidy.** -/
theorem Tidy.step (hm : Tidy calls m) (hstep : CallStep m c m') (hc : m.NotShadowed c) :
    Tidy (calls ++ [c]) m' := by
  cases hstep with
  | added hroom h hret => exact hm.added (unshadowed_iff.1 hc) hroom h hret
  | notAdded hroom h hret hheld => exact hm.notAdded hroom h hret hheld
  | removed => exact hm.removed _

/-- A history that adds no shadowed endpoint leads to a tidy map. -/
theorem Tidy.run {tr : List (Event EndpointMap TableCall)} (h : History m tr m')
    (hm : Tidy [] m) (hclean : ∀ ev ∈ tr, ev.pre.NotShadowed ev.act) :
    Tidy (tr.map (·.act)) m' := by
  induction h with
  | nil => exact hm
  | snoc _ hlast ih =>
    have hprev := ih fun ev hev => hclean ev (List.mem_append_left _ hev)
    rw [List.map_append]
    exact hprev.step hlast (hclean _ (List.mem_append_right _ (List.mem_singleton.2 rfl)))

/-- A history that is right in every state adds no shadowed endpoint. -/
theorem notShadowed_of_rightAfter {tr : List (Event EndpointMap TableCall)} (h : History m tr m')
    (hm : Tidy [] m) (hright : ∀ tr₁ tr₂ m₁, tr = tr₁ ++ tr₂ → History m tr₁ m₁ →
      RightAfter (tr₁.map (·.act)) m₁) : ∀ ev ∈ tr, ev.pre.NotShadowed ev.act := by
  induction h with
  | nil => exact fun ev hev => absurd hev List.not_mem_nil
  | @snoc u v tr c hrun hlast ih =>
    have hprev : ∀ ev ∈ tr, ev.pre.NotShadowed ev.act := by
      refine ih fun tr₁ tr₂ m₁ heq hrun₁ => ?_
      exact hright tr₁ (tr₂ ++ [⟨u, c, v⟩]) m₁ (by rw [heq, List.append_assoc]) hrun₁
    have htidy := Tidy.run hrun hm hprev
    have hlast' : u.NotShadowed c := by
      by_contra hshadow
      have hv := hright _ [] v (List.append_nil _).symm (hrun.snoc hlast)
      cases hlast with
      | added hroom h hret =>
        obtain ⟨v', rfl, hwrong⟩ := not_rightAfter_of_shadowed htidy.pos hroom
          (fun hun => hshadow (unshadowed_iff.2 hun)) h
        obtain rfl := Option.some.inj hret
        exact hwrong _ hv
      | notAdded hroom h hret hheld =>
        obtain ⟨v', rfl, -⟩ := not_rightAfter_of_shadowed htidy.pos hroom
          (fun hun => hshadow (unshadowed_iff.2 hun)) h
        exact absurd hret nofun
      | removed => exact hshadow trivial
    intro ev hev
    rcases List.mem_append.1 hev with hev | hev
    · exact hprev ev hev
    · obtain rfl := List.mem_singleton.1 hev
      exact hlast'

end EndpointMap

open EndpointMap

/-- **When removals are right.** For every history of calls on a new map that find room in
the table and return: the map is right in every state of the history exactly when no call
adds an endpoint that is in its second slot while its first one is free. -/
theorem removes_iff {calloc : Bool} {rand : ℕ → Rand} {m₀ m : EndpointMap}
    {tr : List (Event EndpointMap TableCall)} (hcreate : endpointMapCreate calloc rand = some m₀)
    (h : History m₀ tr m) :
    (∀ tr₁ tr₂ m₁, tr = tr₁ ++ tr₂ → History m₀ tr₁ m₁ → RightAfter (tr₁.map (·.act)) m₁) ↔
      ∀ ev ∈ tr, ev.pre.NotShadowed ev.act := by
  constructor
  · exact notShadowed_of_rightAfter h (tidy_create hcreate)
  · rintro hclean tr₁ tr₂ m₁ rfl hrun
    refine (Tidy.run hrun (tidy_create hcreate) fun ev hev => ?_).rightAfter
    exact hclean ev (List.mem_append_left _ hev)

/-- Adding a host and removing it again. -/
theorem removes_iff_addRemove : ∃ tr m, History freshMap tr m ∧
    tr.map (·.act) = [.add (switchHost 2) 7 true, .remove (switchHost 2) true] ∧
    RightAfter (tr.map (·.act)) m := by
  have hcalls : ∃ m₁, endpointMapAdd quietEnv 0 freshMap (switchHost 2) 7 = some (.kept m₁) ∧
      endpointMapRemove m₁ (switchHost 2) = (true, (endpointMapRemove m₁ (switchHost 2)).2) :=
    ⟨_, rfl, rfl⟩
  obtain ⟨m₁, hadd, hremove⟩ := hcalls
  have hcreate : endpointMapCreate true (fun i => if i = 0 then 0 else 1) = some freshMap := rfl
  have hfirst : History freshMap [⟨freshMap, .add (switchHost 2) 7 true, m₁⟩] m₁ :=
    .single (.added (by decide) hadd rfl)
  have hrun := hfirst.snoc (CallStep.removed (e := switchHost 2))
  refine ⟨_, _, hrun, ?_, (removes_iff hcreate hrun).2 ?_ _ [] _ (List.append_nil _).symm hrun⟩
  · rw [hremove]
    rfl
  · intro ev hev
    simp only [List.cons_append, List.nil_append, List.mem_cons, List.not_mem_nil, or_false] at hev
    rcases hev with rfl | rfl
    · have hfree : (freshMap.entry (freshMap.hashB (switchHost 2))).present = false := by decide
      exact fun h => Bool.false_ne_true (hfree.symm.trans h.2.1)
    · trivial

/-- Two hosts with the same slots are added, the first one is removed, and the second one is
added again: it is there twice, and a removal leaves it there. -/
theorem removes_fails :
    endpointMapCreate true (fun i => if i = 0 then 0 else 1) = some freshMap ∧
    ∃ tr m, History freshMap tr m ∧
      tr.map (·.act) = [.add (switchHost 2) 0 true, .add (switchHost 3) 1 true,
        .remove (switchHost 2) true, .add (switchHost 3) 1 true] ∧
      m.numEntries = 2 ∧ (keys m.entries).card = 1 ∧
      endpointMapLookup (endpointMapRemove m (switchHost 3)).2 (switchHost 3) = 1 ∧
      ¬ RightAfter (tr.map (·.act)) m := by
  have hcalls : ∃ m₁, endpointMapAdd quietEnv 0 freshMap (switchHost 2) 0 = some (.kept m₁) ∧
      m₁.numEntries < m₁.allocEntries ∧
      ∃ m₂, endpointMapAdd quietEnv 0 m₁ (switchHost 3) 1 = some (.kept m₂) ∧
      ∃ m₃, endpointMapRemove m₂ (switchHost 2) = (true, m₃) ∧ m₃.numEntries < m₃.allocEntries ∧
      ∃ m₄, endpointMapAdd quietEnv 0 m₃ (switchHost 3) 1 = some (.kept m₄) ∧
        m₄.numEntries = 2 ∧ (keys m₄.entries).card = 1 ∧
        endpointMapLookup (endpointMapRemove m₄ (switchHost 3)).2 (switchHost 3) = 1 :=
    ⟨_, rfl, by decide, _, rfl, _, rfl, by decide, _, rfl, rfl, by decide +kernel, rfl⟩
  obtain ⟨m₁, h₁, hroom₁, m₂, h₂, m₃, h₃, hroom₃, m₄, h₄, hcount, hcard, hleft⟩ := hcalls
  have hremoved : CallStep m₂ (.remove (switchHost 2) true) m₃ := by
    have hstep : CallStep m₂ _ _ := .removed (e := switchHost 2)
    rwa [h₃] at hstep
  refine ⟨rfl, _, m₄, (((Run.single (.added (by decide) h₁ rfl)).snoc
    (.added hroom₁ h₂ rfl)).snoc hremoved).snoc (.added hroom₃ h₄ rfl), rfl, hcount, hcard, hleft,
    fun hright => ?_⟩
  have hgone := hright.gone (switchHost 3)
  omega

end UdpEthTunnel
