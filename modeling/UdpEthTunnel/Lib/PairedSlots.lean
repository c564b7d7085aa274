/-
# When every insertion succeeds: candidate slots that come in pairs

The assignment of candidate slots is *paired* when two keys
that share a candidate slot share both.  The slots then fall into blocks of one
or two, a key can only live in its own block, and the table is full for a key
exactly when as many other keys live in its block as the block has slots
(`put_isSome_iff`).  So a sequence of insertions into the empty table succeeds
exactly when no block is given more keys than it has slots (`Fits`,
`putAll_empty_isSome_iff`): the order of the keys does not matter.  That is also when the
keys can have slots of their own at all (`Assigns`, `putAll_empty_isSome_iff_assigns`), so
moving entries about would gain nothing.

Slots computed as the XOR of a fixed hash with one of two seeds are paired.  The
seeds only choose the difference `d` of the two slots of every key, and some
pair of seeds makes the keys fit exactly when, for some `d ≠ 0`, at most two of
them have their hash in `{c, c ^^^ d}`, whatever `c` (`exists_fits_xor_iff`).
-/

import Mathlib.Data.Finset.Card
import Mathlib.Data.Nat.Bitwise
import UdpEthTunnel.Lib.TwoChoice

namespace TwoChoice

variable {K V I : Type*} [DecidableEq K] [DecidableEq I]

/-- The slots a key may occupy. -/
def block (a b : K → I) (k : K) : Finset I := {a k, b k}

/-- Keys that share a candidate slot share both. -/
def Paired (a b : K → I) : Prop :=
  ∀ k k' i, i ∈ block a b k → i ∈ block a b k' → block a b k' = block a b k

/-- The keys of `ks` that live in the block of `k`. -/
def mates (a b : K → I) (ks : Finset K) (k : K) : Finset K :=
  ks.filter fun k' => block a b k' = block a b k

/-- No block is given more keys than it has slots. -/
def Fits (a b : K → I) (ks : Finset K) : Prop :=
  ∀ k ∈ ks, (mates a b ks k).card ≤ (block a b k).card

/-- The keys of the table are those of `ks`. -/
def Holds (t : Table K V I) (ks : Finset K) : Prop :=
  ∀ k, (∃ i v, t i = some (k, v)) ↔ k ∈ ks

variable {a b : K → I} {t t' : Table K V I} {ks : Finset K} {k : K} {v : V}

omit [DecidableEq K] in
theorem mem_block {i : I} : i ∈ block a b k ↔ i = a k ∨ i = b k := by
  simp [block]

omit [DecidableEq K] in
theorem mem_mates {k' : K} : k' ∈ mates a b ks k ↔ k' ∈ ks ∧ block a b k' = block a b k :=
  Finset.mem_filter

omit [DecidableEq K] [DecidableEq I] in
theorem holds_empty : Holds (empty : Table K V I) ∅ := by
  simp [Holds, empty]

theorem Holds.put (hk : Holds t ks) (ht : Coherent a b t) (h : put a b t k v = some t') :
    Holds t' (insert k ks) := by
  intro k'
  rw [Finset.mem_insert, ← hk]
  have hfind := ht.find_put h k'
  have hnew : (∃ i w, t' i = some (k', w)) ↔ ∃ w, find a b t' k' = some w := by
    simp only [(ht.put h).find_eq_some_iff]
    exact exists_comm
  have hold : (∃ i w, t i = some (k', w)) ↔ ∃ w, find a b t k' = some w := by
    simp only [ht.find_eq_some_iff]
    exact exists_comm
  rw [hnew, hold, hfind]
  by_cases hkk : k' = k <;> simp [hkk]

/-- **The occupied slots of a block are as many as the keys that live there.** -/
theorem card_occupied (hp : Paired a b) (ht : Coherent a b t) (hk : Holds t ks) (k : K) :
    ((block a b k).filter fun i => t i ≠ none).card = (mates a b ks k).card := by
  have himage : ((block a b k).filter fun i => t i ≠ none).image (fun i => (t i).map Prod.fst) =
      (mates a b ks k).image some := by
    ext o
    simp only [Finset.mem_image, Finset.mem_filter, mem_mates]
    constructor
    · rintro ⟨i, ⟨hi, hne⟩, rfl⟩
      obtain ⟨⟨k', w⟩, hx⟩ := Option.ne_none_iff_exists'.1 hne
      refine ⟨k', ⟨(hk k').1 ⟨i, w, hx⟩, ?_⟩, by simp [hx]⟩
      exact hp k k' i hi (mem_block.2 (ht.home hx))
    · rintro ⟨k', ⟨hk', hblock⟩, rfl⟩
      obtain ⟨i, w, hx⟩ := (hk k').2 hk'
      exact ⟨i, ⟨hblock ▸ mem_block.2 (ht.home hx), by simp [hx]⟩, by simp [hx]⟩
  have hinj : Set.InjOn (fun i => (t i).map Prod.fst)
      ((block a b k).filter fun i => t i ≠ none : Finset I) := by
    intro i hi j hj hij
    obtain ⟨⟨k₁, v₁⟩, h₁⟩ := Option.ne_none_iff_exists'.1 (Finset.mem_filter.1 hi).2
    obtain ⟨⟨k₂, v₂⟩, h₂⟩ := Option.ne_none_iff_exists'.1 (Finset.mem_filter.1 hj).2
    obtain rfl : k₁ = k₂ := by simpa [h₁, h₂] using hij
    exact ht.unique h₁ h₂
  rw [← Finset.card_image_of_injOn hinj, himage,
    Finset.card_image_of_injective _ (Option.some_injective _)]

/-- **When one insertion succeeds.** -/
theorem put_isSome_iff (hp : Paired a b) (ht : Coherent a b t) (hk : Holds t ks) :
    (put a b t k v).isSome ↔ k ∈ ks ∨ (mates a b ks k).card < (block a b k).card := by
  rw [← card_occupied hp ht hk k]
  cases h : put a b t k v with
  | none =>
    obtain ⟨⟨x, hx, hxk⟩, y, hy, hyk⟩ := put_eq_none_iff.1 h
    have hfull : (block a b k).filter (fun i => t i ≠ none) = block a b k := by
      refine Finset.filter_true_of_mem fun i hi => ?_
      rcases mem_block.1 hi with rfl | rfl <;> simp [hx, hy]
    have hnot : k ∉ ks := by
      rw [← hk]
      rintro ⟨i, w, hi⟩
      rcases ht.home hi with rfl | rfl
      · exact hxk (by rw [hx] at hi; exact congrArg Prod.fst (Option.some.inj hi))
      · exact hyk (by rw [hy] at hi; exact congrArg Prod.fst (Option.some.inj hi))
    simp [hfull, hnot]
  | some u =>
    obtain ⟨i, hi, -, hfree, -⟩ := ht.put_slot h
    simp only [Option.isSome_some, true_iff]
    rcases hfree with ⟨hnone, -⟩ | ⟨w, hw⟩
    · refine .inr (Finset.card_lt_card (Finset.filter_ssubset.2 ⟨i, mem_block.2 hi, ?_⟩))
      simp [hnone]
    · exact .inl ((hk k).1 ⟨i, w, hw⟩)

/-- A block that is full has no room for one more key. -/
theorem not_fits_of_full {ks' : Finset K} (hnot : k ∉ ks)
    (hfull : (block a b k).card ≤ (mates a b ks k).card) (hsub : insert k ks ⊆ ks') :
    ¬ Fits a b ks' := by
  intro hf
  have hins : insert k (mates a b ks k) ⊆ mates a b ks' k := by
    intro x hx
    rcases Finset.mem_insert.1 hx with rfl | hx
    · exact mem_mates.2 ⟨hsub (Finset.mem_insert_self ..), rfl⟩
    · obtain ⟨hx, hb⟩ := mem_mates.1 hx
      exact mem_mates.2 ⟨hsub (Finset.mem_insert_of_mem hx), hb⟩
  have hcard := Finset.card_le_card hins
  rw [Finset.card_insert_of_notMem fun h => hnot (mem_mates.1 h).1] at hcard
  have := hf k (hsub (Finset.mem_insert_self ..))
  omega

/-- One more key fits where its block has room. -/
theorem Fits.insert (hf : Fits a b ks)
    (hroom : k ∈ ks ∨ (mates a b ks k).card < (block a b k).card) : Fits a b (insert k ks) := by
  by_cases hmem : k ∈ ks
  · rwa [Finset.insert_eq_of_mem hmem]
  have hroom := hroom.resolve_left hmem
  intro k' hk'
  by_cases hb : block a b k = block a b k'
  · have hmates : mates a b (Insert.insert k ks) k' = Insert.insert k (mates a b ks k) := by
      simp [mates, Finset.filter_insert, hb]
    rw [hmates, ← hb]
    exact (Finset.card_insert_le ..).trans hroom
  · have hmates : mates a b (Insert.insert k ks) k' = mates a b ks k' := by
      simp [mates, Finset.filter_insert, hb]
    rw [hmates]
    refine hf k' ((Finset.mem_insert.1 hk').resolve_left fun h => hb ?_)
    rw [h]

/-- **When a sequence of insertions succeeds.** -/
theorem putAll_isSome_iff (hp : Paired a b) (kvs : List (K × V)) (ht : Coherent a b t)
    (hk : Holds t ks) (hf : Fits a b ks) :
    (putAll a b t kvs).isSome ↔ Fits a b (ks ∪ (kvs.map Prod.fst).toFinset) := by
  induction kvs generalizing t ks with
  | nil => simpa [putAll] using hf
  | cons x xs ih =>
    have hset : ks ∪ ((x :: xs).map Prod.fst).toFinset =
        insert x.1 ks ∪ (xs.map Prod.fst).toFinset := by
      simp [Finset.union_insert, Finset.insert_union]
    have hput := put_isSome_iff (k := x.1) (v := x.2) hp ht hk
    rw [putAll, hset]
    cases h : put a b t x.1 x.2 with
    | none =>
      rw [h] at hput
      simp only [Option.isSome_none, Bool.false_eq_true, false_iff, not_or, not_lt] at hput
      simpa using not_fits_of_full hput.1 hput.2 Finset.subset_union_left
    | some u =>
      rw [h] at hput
      exact ih (ht.put h) (hk.put ht h) (hf.insert (hput.1 rfl))

/-- **Filling an empty table succeeds exactly when every block has room for its
keys**, in whatever order they come. -/
theorem putAll_empty_isSome_iff (hp : Paired a b) (kvs : List (K × V)) :
    (putAll a b empty kvs).isSome ↔ Fits a b (kvs.map Prod.fst).toFinset := by
  rw [putAll_isSome_iff hp kvs coherent_empty holds_empty fun _ h => absurd h (Finset.notMem_empty _),
    Finset.empty_union]

/-! ### Assignments of slots -/

/-- Every key of `ks` gets one of its two slots, and no two keys the same. -/
structure Assigns (a b : K → I) (ks : Finset K) (f : K → I) : Prop where
  home : ∀ k ∈ ks, f k = a k ∨ f k = b k
  injOn : Set.InjOn f ks

theorem Holds.putAll {kvs : List (K × V)} (hk : Holds t ks) (ht : Coherent a b t)
    (h : TwoChoice.putAll a b t kvs = some t') : Holds t' (ks ∪ (kvs.map Prod.fst).toFinset) := by
  induction kvs generalizing t ks with
  | nil => simpa [← Option.some.inj h] using hk
  | cons x xs ih =>
    obtain ⟨u, hu, h⟩ := Option.bind_eq_some_iff.1 h
    have hset : ks ∪ ((x :: xs).map Prod.fst).toFinset =
        insert x.1 ks ∪ (xs.map Prod.fst).toFinset := by
      simp [Finset.union_insert, Finset.insert_union]
    rw [hset]
    exact ih (hk.put ht hu) (ht.put hu) h

omit [DecidableEq K] [DecidableEq I] in
/-- The entries of a table are an assignment of its keys. -/
theorem Coherent.exists_assigns (ht : Coherent a b t) (hk : Holds t ks) :
    ∃ f, Assigns a b ks f := by
  classical
  have hslot : ∀ k, ∃ i, k ∈ ks → ∃ v, t i = some (k, v) := by
    intro k
    by_cases hmem : k ∈ ks
    · obtain ⟨i, v, hi⟩ := (hk k).2 hmem
      exact ⟨i, fun _ => ⟨v, hi⟩⟩
    · exact ⟨a k, fun h => absurd h hmem⟩
  choose f hf using hslot
  refine ⟨f, fun k hmem => ?_, fun k hmem k' hmem' heq => ?_⟩
  · obtain ⟨v, hv⟩ := hf k hmem
    exact ht.home hv
  · obtain ⟨v, hv⟩ := hf k hmem
    obtain ⟨v', hv'⟩ := hf k' hmem'
    rw [heq, hv'] at hv
    exact (Prod.mk.inj (Option.some.inj hv)).1.symm

omit [DecidableEq K] in
/-- Keys with slots of their own fit: those of one block get different slots of it. -/
theorem Assigns.fits {f : K → I} (hf : Assigns a b ks f) : Fits a b ks := by
  intro k _
  refine Finset.card_le_card_of_injOn f (fun k' hk' => ?_) (hf.injOn.mono fun k' hk' => ?_)
  · obtain ⟨hmem, hblock⟩ := mem_mates.1 hk'
    exact hblock ▸ mem_block.2 (hf.home k' hmem)
  · exact (mem_mates.1 hk').1

/-- **Insertion without eviction places all that can be placed.**  Filling an empty table
of paired slots succeeds exactly when the keys can have slots of their own. -/
theorem putAll_empty_isSome_iff_assigns (hp : Paired a b) (kvs : List (K × V)) :
    (putAll a b empty kvs).isSome ↔ ∃ f, Assigns a b (kvs.map Prod.fst).toFinset f := by
  constructor
  · intro h
    obtain ⟨t, ht⟩ := Option.isSome_iff_exists.1 h
    have hholds := holds_empty.putAll coherent_empty ht
    rw [Finset.empty_union] at hholds
    exact (coherent_empty.putAll ht).exists_assigns hholds
  · rintro ⟨f, hf⟩
    exact (putAll_empty_isSome_iff hp kvs).2 hf.fits

/-- One more key is placed exactly when it and those of the table can have slots of their
own: none of them would have had to move. -/
theorem put_isSome_iff_assigns (hp : Paired a b) (ht : Coherent a b t) (hk : Holds t ks) :
    (put a b t k v).isSome ↔ ∃ f, Assigns a b (insert k ks) f := by
  constructor
  · intro h
    obtain ⟨u, hu⟩ := Option.isSome_iff_exists.1 h
    exact (ht.put hu).exists_assigns (hk.put ht hu)
  · rintro ⟨f, hf⟩
    rw [put_isSome_iff hp ht hk]
    by_contra hfull
    push Not at hfull
    exact not_fits_of_full hfull.1 hfull.2 subset_rfl hf.fits

/-! ### Slots that are XORs -/

section Xor

variable {c : K → ℕ} {x y : ℕ}

theorem xor_eq_xor_iff {p q x y : ℕ} : p ^^^ x = q ^^^ y ↔ p = q ^^^ (x ^^^ y) := by
  rw [← Nat.xor_left_inj (z := x), Nat.xor_assoc, Nat.xor_self, Nat.xor_zero, Nat.xor_assoc,
    Nat.xor_comm y]

omit [DecidableEq K] in
theorem mem_block_xor {k : K} {i : ℕ} :
    i ∈ block (c · ^^^ x) (c · ^^^ y) k ↔ i = c k ^^^ x ∨ i = c k ^^^ y := mem_block

omit [DecidableEq K] in
/-- Two keys live in one block when their hashes are equal or differ by the
difference of the seeds. -/
theorem block_xor_eq_iff {k k' : K} :
    block (c · ^^^ x) (c · ^^^ y) k' = block (c · ^^^ x) (c · ^^^ y) k ↔
      c k' = c k ∨ c k' = c k ^^^ (x ^^^ y) := by
  constructor
  · intro h
    have hx : c k' ^^^ x ∈ block (c · ^^^ x) (c · ^^^ y) k := h ▸ mem_block_xor.2 (.inl rfl)
    rcases mem_block_xor.1 hx with h | h
    · exact .inl (Nat.xor_left_inj.1 h)
    · exact .inr (xor_eq_xor_iff.1 h)
  · rintro (h | h)
    · simp only [block, h]
    · have hx : c k' ^^^ x = c k ^^^ y := xor_eq_xor_iff.2 h
      have hy : c k' ^^^ y = c k ^^^ x := xor_eq_xor_iff.2 (by rw [h, Nat.xor_comm x])
      simp only [block, hx, hy]
      exact Finset.pair_comm ..

omit [DecidableEq K] in
/-- **XOR slots are paired.** -/
theorem paired_xor : Paired (c · ^^^ x) (c · ^^^ y) := by
  intro k k' i hi hi'
  rw [block_xor_eq_iff]
  rcases mem_block_xor.1 hi with rfl | rfl <;> rcases mem_block_xor.1 hi' with h | h
  · exact .inl (Nat.xor_left_inj.1 h.symm)
  · exact .inr (by rw [Nat.xor_comm x]; exact xor_eq_xor_iff.1 h.symm)
  · exact .inr (xor_eq_xor_iff.1 h.symm)
  · exact .inl (Nat.xor_left_inj.1 h.symm)

omit [DecidableEq K] in
theorem card_block_xor (k : K) : (block (c · ^^^ x) (c · ^^^ y) k).card = if x = y then 1 else 2 := by
  unfold block
  split_ifs with h
  · simp [h]
  · exact Finset.card_pair fun heq => h (Nat.xor_right_inj.1 heq)

/-- The keys of `ks` whose hash is that of `k` or differs from it by `d`. -/
def near (c : K → ℕ) (d : ℕ) (ks : Finset K) (k : K) : Finset K :=
  ks.filter fun k' => c k' = c k ∨ c k' = c k ^^^ d

omit [DecidableEq K] in
theorem fits_xor_iff {ks : Finset K} : Fits (c · ^^^ x) (c · ^^^ y) ks ↔
    ∀ k ∈ ks, (near c (x ^^^ y) ks k).card ≤ if x = y then 1 else 2 := by
  simp only [Fits, mates, near, block_xor_eq_iff, card_block_xor]

/-- **When some seeds make the keys fit.**  The seeds range over the numbers below
`2 ^ n`. -/
theorem exists_fits_xor_iff {n : ℕ} (hn : 0 < n) {ks : Finset K} :
    (∃ x < 2 ^ n, ∃ y < 2 ^ n, Fits (c · ^^^ x) (c · ^^^ y) ks) ↔
      ∃ d < 2 ^ n, d ≠ 0 ∧ ∀ k ∈ ks, (near c d ks k).card ≤ 2 := by
  constructor
  · rintro ⟨x, hx, y, hy, hf⟩
    rw [fits_xor_iff] at hf
    by_cases hxy : x = y
    · -- with equal seeds no two keys share a hash, so the difference 1 will do
      subst hxy
      simp only [Nat.xor_self, if_true] at hf
      have hone : ∀ k ∈ ks, ∀ k' ∈ ks, c k = c k' → k = k' := by
        intro k hk k' hk' heq
        refine Finset.card_le_one.1 (hf k hk) k ?_ k' ?_ <;> simp [near, hk, hk', heq]
      refine ⟨1, Nat.one_lt_two_pow hn.ne', one_ne_zero, fun k hk => ?_⟩
      have hsame : ∀ p : ℕ, (ks.filter fun k' => c k' = p).card ≤ 1 := by
        intro p
        refine Finset.card_le_one.2 fun k₁ h₁ k₂ h₂ => ?_
        obtain ⟨hk₁, rfl⟩ := Finset.mem_filter.1 h₁
        obtain ⟨hk₂, hc⟩ := Finset.mem_filter.1 h₂
        exact hone k₁ hk₁ k₂ hk₂ hc.symm
      have hle := Finset.card_union_le (ks.filter fun k' => c k' = c k)
        (ks.filter fun k' => c k' = c k ^^^ 1)
      rw [← Finset.filter_or] at hle
      have h₁ := hsame (c k)
      have h₂ := hsame (c k ^^^ 1)
      unfold near
      omega
    · simp only [if_neg hxy] at hf
      exact ⟨x ^^^ y, Nat.xor_lt_two_pow hx hy, fun h => hxy (Nat.xor_eq_zero_iff.1 h), hf⟩
  · rintro ⟨d, hd, hd₀, hf⟩
    refine ⟨0, Nat.two_pow_pos n, d, hd, fits_xor_iff.2 ?_⟩
    simpa [hd₀.symm] using hf

end Xor

end TwoChoice
