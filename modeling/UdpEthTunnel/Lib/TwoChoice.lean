/-
# Hash tables with two candidate slots per key and no eviction

Every key `k` has two candidate slots, `a k` and `b k`, which may coincide.
`put` tries them in that order: a slot that is free takes the key, a slot that
holds the key already takes the new value, and when both slots belong to other
keys `put` fails; nothing is ever moved.  `find` looks in the same two slots.

On a table whose entries all got there by `put` (`Coherent`) the two operations
are those of a finite map (`find_put`), and so is a whole sequence of
insertions (`find_putAll`).

`erase` takes a key out again.  It leaves holes, so a table that has seen it is only
`Separate`: a key may be in its second slot while its first one is free.  There `put`
still acts as on a finite map for the keys that are not (`Unshadowed`); for the others it
makes a second entry (`put_of_shadowed`).

When do they all succeed?  If the candidate slots of any two keys are the same
two or have nothing in common (`Paired`), the slots fall into blocks of at most
two, every key lives in the block of its slots, and a sequence of insertions
into the empty table succeeds exactly when no block has more keys than slots
(`putAll_empty_isSome_iff`), whatever the order.
-/

import Mathlib.Data.Finset.Card
import Mathlib.Data.List.Basic
import Mathlib.Logic.Function.Basic

namespace TwoChoice

variable {K V I : Type*} [DecidableEq K] [DecidableEq I]

/-- The contents of a table, slot by slot. -/
abbrev Table (K V I : Type*) := I → Option (K × V)

/-- The table without entries. -/
def empty : Table K V I := fun _ => none

/-- Insert or overwrite, first candidate slot first; `none` when both slots
belong to other keys. -/
def put (a b : K → I) (t : Table K V I) (k : K) (v : V) : Option (Table K V I) :=
  match t (a k) with
  | none => some (Function.update t (a k) (some (k, v)))
  | some x =>
    if x.1 = k then some (Function.update t (a k) (some (k, v)))
    else
      match t (b k) with
      | none => some (Function.update t (b k) (some (k, v)))
      | some y => if y.1 = k then some (Function.update t (b k) (some (k, v))) else none

/-- The value of the slot if it holds `k`. -/
def valueAt (t : Table K V I) (k : K) (i : I) : Option V :=
  (t i).bind fun x => if x.1 = k then some x.2 else none

/-- Look in the first candidate slot, then in the second. -/
def find (a b : K → I) (t : Table K V I) (k : K) : Option V :=
  (valueAt t k (a k)).or (valueAt t k (b k))

/-- Every entry is in one of the slots of its key, no key has two entries, and
a key in its second slot has its first slot taken. -/
structure Coherent (a b : K → I) (t : Table K V I) : Prop where
  home : ∀ {i k v}, t i = some (k, v) → i = a k ∨ i = b k
  unique : ∀ {i j k v w}, t i = some (k, v) → t j = some (k, w) → i = j
  first : ∀ {i k v}, t i = some (k, v) → t (a k) ≠ none

variable {a b : K → I} {t t' : Table K V I} {k : K} {v : V}

omit [DecidableEq K] [DecidableEq I] in
theorem coherent_empty : Coherent a b (empty : Table K V I) where
  home h := by simp [empty] at h
  unique h := by simp [empty] at h
  first h := by simp [empty] at h

omit [DecidableEq I] in
theorem valueAt_eq_some_iff {i : I} : valueAt t k i = some v ↔ t i = some (k, v) := by
  unfold valueAt
  cases h : t i with
  | none => simp
  | some x =>
    obtain ⟨k', v'⟩ := x
    by_cases hk : k' = k <;> simp [hk]

/-- What `put` writes: one slot of the two, free or held by the key; the second
one only when another key has the first. -/
theorem put_cases (h : put a b t k v = some t') :
    ∃ i, (i = a k ∨ i = b k ∧ ∃ x, t (a k) = some x ∧ x.1 ≠ k) ∧
      (t i = none ∨ ∃ w, t i = some (k, w)) ∧ t' = Function.update t i (some (k, v)) := by
  unfold put at h
  rcases ha : t (a k) with _ | ⟨k₁, v₁⟩ <;> simp only [ha] at h
  · exact ⟨a k, .inl rfl, .inl ha, (Option.some.inj h).symm⟩
  · split_ifs at h with hk
    · subst hk
      exact ⟨_, .inl rfl, .inr ⟨v₁, ha⟩, (Option.some.inj h).symm⟩
    · rcases hb : t (b k) with _ | ⟨k₂, v₂⟩ <;> simp only [hb] at h
      · exact ⟨b k, .inr ⟨rfl, _, rfl, hk⟩, .inl hb, (Option.some.inj h).symm⟩
      · split_ifs at h with hk₂
        subst hk₂
        exact ⟨_, .inr ⟨rfl, _, rfl, hk⟩, .inr ⟨v₂, hb⟩, (Option.some.inj h).symm⟩

/-- `put` fails only when both slots belong to other keys. -/
theorem put_eq_none_iff : put a b t k v = none ↔
    (∃ x, t (a k) = some x ∧ x.1 ≠ k) ∧ ∃ y, t (b k) = some y ∧ y.1 ≠ k := by
  unfold put
  cases t (a k) with
  | none => simp
  | some x =>
    by_cases hx : x.1 = k
    · simp [hx]
    · cases t (b k) with
      | none => simp [hx]
      | some y => by_cases hy : y.1 = k <;> simp [hx, hy]

/-- Every entry is in one of the slots of its key and no key has two entries. -/
structure Separate (a b : K → I) (t : Table K V I) : Prop where
  home : ∀ {i k v}, t i = some (k, v) → i = a k ∨ i = b k
  unique : ∀ {i j k v w}, t i = some (k, v) → t j = some (k, w) → i = j

/-- The key is not in its second slot while its first one is free. -/
def Unshadowed (a b : K → I) (t : Table K V I) (k : K) : Prop :=
  t (a k) = none → ∀ w, t (b k) ≠ some (k, w)

omit [DecidableEq K] [DecidableEq I] in
theorem Coherent.separate (ht : Coherent a b t) : Separate a b t := ⟨ht.home, ht.unique⟩

omit [DecidableEq K] [DecidableEq I] in
theorem Coherent.unshadowed (ht : Coherent a b t) (k : K) : Unshadowed a b t k :=
  fun hfree _ hk => ht.first hk hfree

/-- **What `put` does to a separate table.**  The slot it writes held the key,
or was free and then the key has no entry at all. -/
theorem Separate.put_slot (ht : Separate a b t) (hk : Unshadowed a b t k)
    (h : put a b t k v = some t') :
    ∃ i, (i = a k ∨ i = b k) ∧ (i ≠ a k → t (a k) ≠ none) ∧
      ((t i = none ∧ ∀ j w, t j ≠ some (k, w)) ∨ ∃ w, t i = some (k, w)) ∧
      t' = Function.update t i (some (k, v)) := by
  obtain ⟨i, hi, hfree, rfl⟩ := put_cases h
  refine ⟨i, hi.imp_right And.left, fun hne => ?_, ?_, rfl⟩
  · obtain ⟨-, x, hx, -⟩ := hi.resolve_left hne
    simp [hx]
  · refine hfree.imp_left fun hnone => ⟨hnone, fun j w hj => ?_⟩
    rcases hi with rfl | ⟨rfl, x, hx, hxk⟩
    · rcases ht.home hj with rfl | rfl
      · simp [hnone] at hj
      · exact hk hnone w hj
    · rcases ht.home hj with rfl | rfl
      · exact hxk (by rw [hx] at hj; exact congrArg Prod.fst (Option.some.inj hj))
      · simp [hnone] at hj

/-- **What `put` does to a coherent table.** -/
theorem Coherent.put_slot (ht : Coherent a b t) (h : put a b t k v = some t') :
    ∃ i, (i = a k ∨ i = b k) ∧ (i ≠ a k → t (a k) ≠ none) ∧
      ((t i = none ∧ ∀ j w, t j ≠ some (k, w)) ∨ ∃ w, t i = some (k, w)) ∧
      t' = Function.update t i (some (k, v)) :=
  ht.separate.put_slot (ht.unshadowed k) h

omit [DecidableEq K] in
/-- An entry after a write is the one written or an old one in another slot. -/
theorem update_eq_some {i j : I} {k' : K} {w : V}
    (hj : Function.update t i (some (k, v)) j = some (k', w)) :
    (j = i ∧ k' = k) ∨ (j ≠ i ∧ t j = some (k', w)) := by
  by_cases hji : j = i
  · rw [hji, Function.update_self] at hj
    exact .inl ⟨hji, (Prod.mk.inj (Option.some.inj hj)).1.symm⟩
  · rw [Function.update_of_ne hji] at hj
    exact .inr ⟨hji, hj⟩

/-- **`put` keeps a table separate**, for a key that is not shadowed. -/
theorem Separate.put (ht : Separate a b t) (hk : Unshadowed a b t k)
    (h : put a b t k v = some t') : Separate a b t' := by
  obtain ⟨i, hi, -, hfree, rfl⟩ := ht.put_slot hk h
  -- an old entry of the key can only be in the slot that was written
  have hold : ∀ {j w}, j ≠ i → t j ≠ some (k, w) := by
    intro j w hji hj
    rcases hfree with ⟨-, hno⟩ | ⟨u, hu⟩
    · exact hno j w hj
    · exact hji (ht.unique hj hu)
  constructor
  · intro j k' w hj
    rcases update_eq_some hj with ⟨rfl, rfl⟩ | ⟨-, hj⟩
    · exact hi
    · exact ht.home hj
  · intro j j' k' w w' hj hj'
    rcases update_eq_some hj with ⟨hji, hk⟩ | ⟨hne, h₁⟩ <;>
      rcases update_eq_some hj' with ⟨hji', hk'⟩ | ⟨hne', h₂⟩
    · exact hji.trans hji'.symm
    · exact absurd (hk ▸ h₂) (hold hne')
    · exact absurd (hk' ▸ h₁) (hold hne)
    · exact ht.unique h₁ h₂

/-- **`put` keeps the table coherent.** -/
theorem Coherent.put (ht : Coherent a b t) (h : put a b t k v = some t') : Coherent a b t' := by
  have hsep := ht.separate.put (ht.unshadowed k) h
  refine ⟨hsep.home, hsep.unique, fun {j k' w} hj => ?_⟩
  obtain ⟨i, -, hfirst, -, rfl⟩ := ht.put_slot h
  by_cases hai : a k' = i
  · simp [hai]
  · rw [Function.update_of_ne hai]
    rcases update_eq_some hj with ⟨rfl, rfl⟩ | ⟨-, hj⟩
    · exact hfirst fun h => hai h.symm
    · exact ht.first hj

/-- A key that is shadowed gets a second entry. -/
theorem put_of_shadowed (hk : ¬ Unshadowed a b t k) (v : V) : ∃ t', put a b t k v = some t' ∧
    a k ≠ b k ∧ t' (a k) = some (k, v) ∧ ∃ w, t' (b k) = some (k, w) := by
  unfold Unshadowed at hk
  push Not at hk
  obtain ⟨hfree, w, hw⟩ := hk
  have hne : a k ≠ b k := by
    intro heq
    rw [heq, hw] at hfree
    exact absurd hfree nofun
  refine ⟨Function.update t (a k) (some (k, v)), ?_, hne, Function.update_self .., w, ?_⟩
  · unfold TwoChoice.put
    rw [hfree]
  · rw [Function.update_of_ne hne.symm, hw]

omit [DecidableEq I] in
/-- On a separate table, `find` finds exactly the entries. -/
theorem Separate.find_eq_some_iff (ht : Separate a b t) :
    find a b t k = some v ↔ ∃ i, t i = some (k, v) := by
  unfold find
  rw [Option.or_eq_some_iff, valueAt_eq_some_iff, valueAt_eq_some_iff]
  constructor
  · rintro (h | ⟨-, h⟩) <;> exact ⟨_, h⟩
  · rintro ⟨i, hi⟩
    rcases ht.home hi with rfl | rfl
    · exact .inl hi
    · cases ha : valueAt t k (a k) with
      | none => exact .inr ⟨rfl, hi⟩
      | some w =>
        rw [valueAt_eq_some_iff] at ha
        rw [ht.unique hi ha] at hi
        exact .inl hi

/-- **`put` updates the finite map that `find` reads.** -/
theorem Separate.find_put (ht : Separate a b t) (hk : Unshadowed a b t k)
    (h : TwoChoice.put a b t k v = some t') (k' : K) :
    find a b t' k' = if k' = k then some v else find a b t k' := by
  have hsep := ht.put hk h
  obtain ⟨i, -, -, hfree, rfl⟩ := ht.put_slot hk h
  ext w
  rw [hsep.find_eq_some_iff]
  split_ifs with hk
  · subst hk
    constructor
    · rintro ⟨j, hj⟩
      by_cases hji : j = i
      · rw [hji, Function.update_self] at hj
        simpa using hj
      · rw [Function.update_of_ne hji] at hj
        rcases hfree with ⟨-, hno⟩ | ⟨u, hu⟩
        · exact absurd hj (hno j w)
        · exact absurd (ht.unique hj hu) hji
    · rintro ⟨rfl⟩
      exact ⟨i, Function.update_self ..⟩
  · rw [ht.find_eq_some_iff]
    refine exists_congr fun j => ?_
    by_cases hji : j = i
    · subst hji
      rw [Function.update_self]
      rcases hfree with ⟨hnone, -⟩ | ⟨u, hu⟩
      · simp [hnone, Ne.symm hk]
      · simp [hu, Ne.symm hk]
    · rw [Function.update_of_ne hji]

omit [DecidableEq I] in
theorem Coherent.find_eq_some_iff (ht : Coherent a b t) :
    find a b t k = some v ↔ ∃ i, t i = some (k, v) :=
  ht.separate.find_eq_some_iff

theorem Coherent.find_put (ht : Coherent a b t) (h : TwoChoice.put a b t k v = some t') (k' : K) :
    find a b t' k' = if k' = k then some v else find a b t k' :=
  ht.separate.find_put (ht.unshadowed k) h k'

/-! ### Removal -/

/-- Clear the first of the slots of a key that holds it. -/
def erase (a b : K → I) (t : Table K V I) (k : K) : Table K V I :=
  if (valueAt t k (a k)).isSome then Function.update t (a k) none
  else if (valueAt t k (b k)).isSome then Function.update t (b k) none
  else t

/-- On a separate table, `erase` clears every entry of the key, and no other. -/
theorem Separate.erase_eq_some_iff (ht : Separate a b t) {i : I} {k' : K} :
    erase a b t k i = some (k', v) ↔ k' ≠ k ∧ t i = some (k', v) := by
  have hclear : ∀ {j}, (valueAt t k j).isSome = true →
      (Function.update t j none i = some (k', v) ↔ k' ≠ k ∧ t i = some (k', v)) := by
    intro j hj
    obtain ⟨w, hw⟩ := Option.isSome_iff_exists.1 hj
    rw [valueAt_eq_some_iff] at hw
    by_cases hij : i = j
    · subst hij
      rw [Function.update_self, hw]
      constructor
      · exact fun h => absurd h nofun
      · rintro ⟨hne, h⟩
        exact absurd (Prod.mk.inj (Option.some.inj h)).1.symm hne
    · rw [Function.update_of_ne hij]
      refine ⟨fun h => ⟨?_, h⟩, And.right⟩
      rintro rfl
      exact hij (ht.unique h hw)
  unfold erase
  split_ifs with hA hB
  · exact hclear hA
  · exact hclear hB
  · refine ⟨fun h => ⟨?_, h⟩, And.right⟩
    rintro rfl
    have hsome : (valueAt t k' i).isSome = true := by
      rw [valueAt_eq_some_iff.2 h]
      rfl
    rcases ht.home h with rfl | rfl
    · exact hA hsome
    · exact hB hsome

/-- **`erase` keeps a table separate.** -/
theorem Separate.erase (ht : Separate a b t) (k : K) : Separate a b (erase a b t k) where
  home h := ht.home (ht.erase_eq_some_iff.1 h).2
  unique h h' := ht.unique (ht.erase_eq_some_iff.1 h).2 (ht.erase_eq_some_iff.1 h').2

/-- **`erase` takes the key out of the finite map that `find` reads.** -/
theorem Separate.find_erase (ht : Separate a b t) (k k' : K) :
    find a b (TwoChoice.erase a b t k) k' = if k' = k then none else find a b t k' := by
  ext w
  rw [(ht.erase k).find_eq_some_iff]
  simp only [ht.erase_eq_some_iff]
  split_ifs with hk
  · simp [hk]
  · rw [ht.find_eq_some_iff]
    simp [hk]

/-! ### Sequences of insertions -/

/-- Insert a list of pairs in order, stopping at the first failure. -/
def putAll (a b : K → I) : Table K V I → List (K × V) → Option (Table K V I)
  | t, [] => some t
  | t, x :: xs => (put a b t x.1 x.2).bind fun t' => putAll a b t' xs

/-- The finite map after the pairs of the list are written over `f` in order. -/
def override (f : K → Option V) : List (K × V) → K → Option V
  | [] => f
  | x :: xs => override (fun k => if k = x.1 then some x.2 else f k) xs

variable {kvs : List (K × V)}

theorem putAll_append (t : Table K V I) (xs ys : List (K × V)) :
    putAll a b t (xs ++ ys) = (putAll a b t xs).bind fun t' => putAll a b t' ys := by
  induction xs generalizing t with
  | nil => rfl
  | cons x xs ih => simp only [List.cons_append, putAll, Option.bind_assoc, ih]

omit [DecidableEq I] in
theorem override_append (f : K → Option V) (xs ys : List (K × V)) :
    override f (xs ++ ys) = override (override f xs) ys := by
  induction xs generalizing f with
  | nil => rfl
  | cons x xs ih => exact ih _

theorem Coherent.putAll (ht : Coherent a b t) (h : putAll a b t kvs = some t') :
    Coherent a b t' := by
  induction kvs generalizing t with
  | nil => exact Option.some.inj h ▸ ht
  | cons x xs ih =>
    obtain ⟨u, hu, h⟩ := Option.bind_eq_some_iff.1 h
    exact ih (ht.put hu) h

/-- **A sequence of insertions overrides the finite map.** -/
theorem Coherent.find_putAll (ht : Coherent a b t) (h : TwoChoice.putAll a b t kvs = some t') :
    find a b t' = override (find a b t) kvs := by
  induction kvs generalizing t with
  | nil => exact Option.some.inj h ▸ rfl
  | cons x xs ih =>
    obtain ⟨u, hu, h⟩ := Option.bind_eq_some_iff.1 h
    rw [ih (ht.put hu) h, override]
    congr 1
    exact funext (ht.find_put hu)

omit [DecidableEq I] in
/-- A key that the list does not mention keeps its value. -/
theorem override_of_not_mem {f : K → Option V} (h : ∀ v, (k, v) ∉ kvs) :
    override f kvs k = f k := by
  induction kvs generalizing f with
  | nil => rfl
  | cons x xs ih =>
    rw [override, ih fun v hv => h v (List.mem_cons_of_mem _ hv)]
    refine if_neg fun hk => h x.2 ?_
    rw [hk]
    exact List.mem_cons_self

omit [DecidableEq I] in
/-- What the list says of a key comes before what the map said. -/
theorem override_eq_or (f : K → Option V) :
    override f kvs k = (override (fun _ => none) kvs k).or (f k) := by
  induction kvs generalizing f with
  | nil => rfl
  | cons x xs ih =>
    rw [override, override, ih, ih fun k => if k = x.1 then some x.2 else none, Option.or_assoc]
    split_ifs <;> rfl

omit [DecidableEq I] in
/-- A key that the list mentions once, or always with one value, gets it. -/
theorem override_of_mem {f : K → Option V} (h : (k, v) ∈ kvs)
    (hu : ∀ w, (k, w) ∈ kvs → w = v) : override f kvs k = some v := by
  induction kvs generalizing f with
  | nil => exact absurd h List.not_mem_nil
  | cons x xs ih =>
    rw [override]
    by_cases hxs : (k, v) ∈ xs
    · exact ih hxs fun w hw => hu w (List.mem_cons_of_mem _ hw)
    · obtain rfl : (k, v) = x := (List.mem_cons.1 h).resolve_right hxs
      rw [override_of_not_mem fun w hw => hxs (hu w (List.mem_cons_of_mem _ hw) ▸ hw)]
      exact if_pos rfl

end TwoChoice
