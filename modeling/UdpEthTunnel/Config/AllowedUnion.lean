/-
# An allow list as the union of its items

`ip_addr_cidr_list_create_from_str` counts the commas of a text to size its array, and
fills the array from `strtok`, which skips the empty pieces.  So the array may be longer than
what is written to it, and never shorter (`length_items_le`); the entries behind the last
item stay zero, and a zero mask matches nothing.

What a text admits is a set of addresses (`unionOf`), and a comma joins two such sets
(`unionOf_append`).  A list matches the addresses of that set, wherever the call makes a
list.  It need not: a prefix length of 0 passes the check of `ip_addr_cidr_from_str`, which
then shifts a `u128` by 128 bits, and the copy that `strtok` is given is not checked
(`unionOfItems_iff`).
-/

import Mathlib.Data.List.Forall2
import Mathlib.Data.Set.Basic
import UdpEthTunnel.Address.Match
import UdpEthTunnel.Config.AllowedHosts

namespace UdpEthTunnel

/-- The item is read, as this entry. -/
def ReadAs (pton : Pton) (t : CStr) (c : IpAddrCidr) : Prop :=
  ipAddrCidrFromStr pton t zeroCidr = .ret true c

/-- `ip_addr_cidr_from_str` fails on the item. -/
def FailsOn (pton : Pton) (t : CStr) : Prop :=
  ∃ c, ipAddrCidrFromStr pton t zeroCidr = .ret false c

/-- The addresses that the items of a text match. -/
def unionOf (pton : Pton) (s : CStr) : Set IpAddr :=
  {a | ∃ t ∈ items s, ∃ c, ReadAs pton t c ∧ ipAddrCidrMatch c a = true}

/-- **The list is the union of the items.**  The call returns `NULL` if and only if an item
fails; otherwise it returns a list with an entry for each item, in which no other entry
matches; and lists are joined by a comma. -/
structure UnionOfItems (env : CidrListEnv) (pton : Pton) (s : CStr) : Prop where
  null_iff : ipAddrCidrListCreateFromStr env pton s = .null ↔ ∃ t ∈ items s, FailsOn pton t
  created : ipAddrCidrListCreateFromStr env pton s ≠ .null → ∃ l : IpAddrCidrList,
    ipAddrCidrListCreateFromStr env pton s = .list l ∧ l.entries.length = s.count ',' + 1 ∧
      (∀ (i : ℕ) t, (items s)[i]? = some t → ∃ c, ReadAs pton t c ∧ l.entries[i]? = some c) ∧
      (∀ (i : ℕ) c, (items s).length ≤ i → l.entries[i]? = some c → ∀ a, ipAddrCidrMatch c a = false) ∧
      ∀ a, ipAddrCidrListMatch l a = true ↔ a ∈ unionOf pton s
  joined : ∀ t l₁ l₂, ipAddrCidrListCreateFromStr env pton s = .list l₁ →
    ipAddrCidrListCreateFromStr env pton t = .list l₂ →
      ∃ l, ipAddrCidrListCreateFromStr env pton (s ++ ',' :: t) = .list l ∧
        ∀ a, ipAddrCidrListMatch l a = (ipAddrCidrListMatch l₁ a || ipAddrCidrListMatch l₂ a)

/-- The memory for the list is there unless some item is refused, and so is the memory for
the copy of the text; the first item that is not accepted, if there is one, has a prefix
length out of range. -/
def CreatesUnion (env : CidrListEnv) (s : CStr) : Prop :=
  (env.malloc = false → ∃ t ∈ items s, BadPrefix t) ∧
    (env.malloc = true → env.strdup = true ∧ ∀ t, firstStop s = some t → BadPrefix t)

/-! ### Commas and items -/

/-- There is one piece more than there are commas. -/
theorem length_splitOn (s : CStr) : (s.splitOn ',').length = s.count ',' + 1 := by
  induction s with
  | nil => rfl
  | cons c s ih =>
    rw [List.splitOn_cons_eq_if_modifyHead]
    by_cases hc : c = ','
    · subst hc
      rw [if_pos (by rfl), List.length_cons, ih, List.count_cons_self]
    · rw [if_neg (by simpa using hc), List.length_modifyHead, ih, List.count_cons_of_ne hc]

/-- **The array is long enough.** -/
theorem length_items_le (s : CStr) : (items s).length ≤ s.count ',' + 1 := by
  rw [← length_splitOn]
  exact List.length_filter_le _ _

theorem items_append (s t : CStr) : items (s ++ ',' :: t) = items s ++ items t := by
  unfold items
  rw [List.splitOn_append_cons_self, List.filter_append]

/-- **A comma joins what two texts admit.** -/
theorem unionOf_append (pton : Pton) (s t : CStr) :
    unionOf pton (s ++ ',' :: t) = unionOf pton s ∪ unionOf pton t := by
  ext a
  show (∃ u ∈ items (s ++ ',' :: t), _) ↔ (∃ u ∈ items s, _) ∨ ∃ u ∈ items t, _
  rw [items_append]
  simp only [List.mem_append, or_and_right, exists_or]

/-- A zero entry matches nothing. -/
theorem match_zeroCidr (a : IpAddr) : ipAddrCidrMatch zeroCidr a = false := by
  rw [Bool.eq_false_iff, ne_eq, match_eq_true_iff, not_not]
  exact BitVec.and_zero

/-! ### What the loop stores -/

section Stores

variable {env : CidrListEnv} {pton : Pton} {s t : CStr} {ts : List CStr} {cs : List IpAddrCidr}
  {l : IpAddrCidrList} {n : ℕ}

/-- **The loop.**  Where it ends with a list, it has put an entry for each token behind the
ones that are `before`, and left the rest. -/
theorem cidrListLoop_stores (before : List IpAddrCidr) (hroom : ts.length ≤ n)
    (h : cidrListLoop env pton (before ++ List.replicate n zeroCidr) before.length ts = .list l) :
    ∃ cs, List.Forall₂ (ReadAs pton) ts cs ∧
      l.entries = before ++ cs ++ List.replicate (n - ts.length) zeroCidr := by
  induction ts generalizing before n with
  | nil =>
    obtain rfl : (⟨_⟩ : IpAddrCidrList) = l := by simpa [cidrListLoop] using h
    exact ⟨[], .nil, by simp⟩
  | cons t ts ih =>
    obtain ⟨n, rfl⟩ : ∃ m, n = m + 1 := ⟨n - 1, by simp at hroom; omega⟩
    have hzero : (before ++ List.replicate (n + 1) zeroCidr).getD before.length zeroCidr = zeroCidr := by
      simp [List.getD]
    unfold cidrListLoop at h
    rw [hzero] at h
    rcases fromStr_item pton t zeroCidr with
      ⟨-, hcall⟩ | ⟨-, -, hcall⟩ | ⟨-, -, hcall⟩ | ⟨-, c, hcall⟩
    · simp [hcall] at h
    · simp [hcall] at h
    · simp [hcall] at h
    · -- the entry takes the place of the first zero
      have hset : (before ++ List.replicate (n + 1) zeroCidr).set before.length c =
          (before ++ [c]) ++ List.replicate n zeroCidr := by
        simp [List.replicate_succ]
      have hlen : before.length + 1 = (before ++ [c]).length := by simp
      rw [hcall] at h
      dsimp only at h
      rw [hset, hlen] at h
      obtain ⟨cs, hread, hl⟩ := ih _ (by simpa using hroom) h
      refine ⟨c :: cs, .cons hcall hread, ?_⟩
      rw [hl, List.length_cons, Nat.add_sub_add_right, List.append_assoc before, List.singleton_append]

/-- A list that is returned: the entries of the items, and zeros. -/
theorem createFromStr_eq_list (h : ipAddrCidrListCreateFromStr env pton s = .list l) :
    env.malloc = true ∧ env.strdup = true ∧ ∃ cs, List.Forall₂ (ReadAs pton) (items s) cs ∧
      l.entries = cs ++ List.replicate (s.count ',' + 1 - (items s).length) zeroCidr := by
  unfold ipAddrCidrListCreateFromStr at h
  dsimp only at h
  split_ifs at h with hmalloc hstrdup
  exact ⟨hmalloc, hstrdup, cidrListLoop_stores [] (length_items_le s) h⟩

/-- The entries of the items match what the text admits. -/
theorem mem_unionOf_iff (hread : List.Forall₂ (ReadAs pton) (items s) cs) (a : IpAddr) :
    a ∈ unionOf pton s ↔ ∃ c ∈ cs, ipAddrCidrMatch c a = true := by
  constructor
  · rintro ⟨t, ht, c, hc, hmatch⟩
    obtain ⟨i, hi, rfl⟩ := List.getElem_of_mem ht
    have hi' : i < cs.length := hread.length_eq ▸ hi
    have hc' : ReadAs pton (items s)[i] cs[i] := hread.get hi hi'
    obtain rfl : c = cs[i] := by
      have heq := hc.symm.trans hc'
      simpa using heq
    exact ⟨_, List.getElem_mem hi', hmatch⟩
  · rintro ⟨c, hc, hmatch⟩
    obtain ⟨i, hi, rfl⟩ := List.getElem_of_mem hc
    have hi' : i < (items s).length := hread.length_eq ▸ hi
    exact ⟨_, List.getElem_mem hi', _, hread.get hi' hi, hmatch⟩

theorem firstStop_eq_none_iff : firstStop s = none ↔ ∀ t ∈ items s, ItemOk t := by
  unfold firstStop
  rw [List.find?_eq_none]
  exact forall₂_congr fun t _ => by rw [decide_eq_true_iff, not_not]

/-- The first item that is not accepted is one of the items. -/
theorem mem_of_firstStop (h : firstStop s = some t) : t ∈ items s := List.mem_of_find?_eq_some h

/-- An item that fits the copy is refused for its prefix length alone. -/
theorem failsOn_iff (hfits : ¬ TooLong t) : FailsOn pton t ↔ BadPrefix t := by
  unfold FailsOn
  rcases fromStr_item pton t zeroCidr with
    ⟨hlong, -⟩ | ⟨-, hbad, hcall⟩ | ⟨-, hzero, hcall⟩ | ⟨hok, c, hcall⟩
  · exact absurd hlong hfits
  · exact iff_of_true ⟨_, hcall⟩ hbad
  · refine iff_of_false (by simp [hcall]) ?_
    rintro ⟨n, hn, hrange⟩
    obtain rfl := Option.some.inj (hzero.symm.trans hn)
    omega
  · exact iff_of_false (by simp [hcall]) hok.2.1

/-- **When a list is returned.** -/
theorem exists_list_iff : (∃ l, ipAddrCidrListCreateFromStr env pton s = .list l) ↔
    env.malloc = true ∧ env.strdup = true ∧ ∀ t ∈ items s, ItemOk t := by
  rw [← firstStop_eq_none_iff]
  rcases createFromStr_cases env pton s with ⟨hmalloc, hl⟩ | ⟨hmalloc, hstrdup, hl⟩ |
    ⟨hmalloc, hstrdup, ⟨hnone, l, hl⟩ | ⟨t, ht, ⟨-, hl⟩ | ⟨-, -, hl⟩ | ⟨-, -, rest, hl⟩⟩⟩
  · simp [hl, hmalloc]
  · simp [hl, hstrdup]
  · exact iff_of_true ⟨l, hl⟩ ⟨hmalloc, hstrdup, hnone⟩
  · simp [hl, ht]
  · simp [hl, ht]
  · simp [hl, ht]

/-- **A list matches what its text admits.** -/
theorem listMatch_eq_true_iff_mem (h : ipAddrCidrListCreateFromStr env pton s = .list l)
    (a : IpAddr) : ipAddrCidrListMatch l a = true ↔ a ∈ unionOf pton s := by
  obtain ⟨-, -, cs, hread, hl⟩ := createFromStr_eq_list h
  rw [mem_unionOf_iff hread, ipAddrCidrListMatch, List.any_eq_true, hl]
  constructor
  · rintro ⟨c, hc, hmatch⟩
    rcases List.mem_append.1 hc with hc | hc
    · exact ⟨c, hc, hmatch⟩
    · obtain rfl := List.eq_of_mem_replicate hc
      rw [match_zeroCidr] at hmatch
      cases hmatch
  · rintro ⟨c, hc, hmatch⟩
    exact ⟨c, List.mem_append_left _ hc, hmatch⟩

/-- **Lists are joined by a comma.** -/
theorem joined_lists {l₁ l₂ : IpAddrCidrList}
    (h₁ : ipAddrCidrListCreateFromStr env pton s = .list l₁)
    (h₂ : ipAddrCidrListCreateFromStr env pton t = .list l₂) :
    ∃ l, ipAddrCidrListCreateFromStr env pton (s ++ ',' :: t) = .list l ∧
      ∀ a, ipAddrCidrListMatch l a = (ipAddrCidrListMatch l₁ a || ipAddrCidrListMatch l₂ a) := by
  obtain ⟨hmalloc, hstrdup, hs⟩ := exists_list_iff.1 ⟨l₁, h₁⟩
  obtain ⟨-, -, ht⟩ := exists_list_iff.1 ⟨l₂, h₂⟩
  have hall : ∀ u ∈ items (s ++ ',' :: t), ItemOk u := by
    rw [items_append]
    exact List.forall_mem_append.2 ⟨hs, ht⟩
  obtain ⟨l, hl⟩ : ∃ l, ipAddrCidrListCreateFromStr env pton (s ++ ',' :: t) = .list l :=
    exists_list_iff.2 ⟨hmalloc, hstrdup, hall⟩
  refine ⟨l, hl, fun a => ?_⟩
  rw [Bool.eq_iff_iff, Bool.or_eq_true, listMatch_eq_true_iff_mem hl, listMatch_eq_true_iff_mem h₁,
    listMatch_eq_true_iff_mem h₂, unionOf_append]
  exact Iff.rfl

/-- What a list that is returned holds. -/
theorem created_list (h : ipAddrCidrListCreateFromStr env pton s = .list l) :
    l.entries.length = s.count ',' + 1 ∧
      (∀ (i : ℕ) t, (items s)[i]? = some t → ∃ c, ReadAs pton t c ∧ l.entries[i]? = some c) ∧
      ∀ (i : ℕ) c, (items s).length ≤ i → l.entries[i]? = some c →
        ∀ a, ipAddrCidrMatch c a = false := by
  obtain ⟨-, -, cs, hread, hl⟩ := createFromStr_eq_list h
  have hlen := hread.length_eq
  have hroom := length_items_le s
  rw [hl]
  refine ⟨?_, fun i t hi => ?_, fun i c hi hc => ?_⟩
  · rw [List.length_append, List.length_replicate]
    omega
  · obtain ⟨hlt, rfl⟩ := List.getElem?_eq_some_iff.1 hi
    have hi' : i < cs.length := hlen ▸ hlt
    refine ⟨cs[i], hread.get hlt hi', ?_⟩
    rw [List.getElem?_append_left hi', List.getElem?_eq_getElem hi']
  · rw [List.getElem?_append_right (by omega)] at hc
    obtain rfl := List.eq_of_mem_replicate (List.mem_of_getElem? hc)
    exact match_zeroCidr

/-- **When the list is the union of the items.**  `ip_addr_cidr_list_create_from_str` counts the
commas for the room it takes, and fills it item by item; what stays empty matches nobody.  So
for any text of items that fit the copy the list is `NULL` for an item that is refused, and
otherwise matches whom an item matches, where the memory is there and no prefix length of 0,
which is undefined, comes before the first one that is out of range. -/
theorem unionOfItems_iff (env : CidrListEnv) (pton : Pton) (s : CStr)
    (hfits : ∀ t ∈ items s, ¬ TooLong t) : UnionOfItems env pton s ↔ CreatesUnion env s := by
  have hfails : (∃ t ∈ items s, FailsOn pton t) ↔ ∃ t ∈ items s, BadPrefix t :=
    exists_congr fun t => and_congr_right fun ht => failsOn_iff (hfits t ht)
  rcases createFromStr_cases env pton s with ⟨hmalloc, hl⟩ | ⟨hmalloc, hstrdup, hl⟩ |
    ⟨hmalloc, hstrdup, ⟨hnone, l, hl⟩ | ⟨t, ht, ⟨hlong, -⟩ | ⟨-, hbad, hl⟩ |
      ⟨-, hbad, rest, hl⟩⟩⟩
  · -- no memory for the list
    constructor
    · intro h
      exact ⟨fun _ => hfails.1 (h.null_iff.1 hl), by simp [hmalloc]⟩
    · intro h
      exact ⟨iff_of_true hl (hfails.2 (h.1 hmalloc)), fun hne => absurd hl hne,
        fun t l₁ l₂ => joined_lists⟩
  · -- no memory for the copy of the text
    refine iff_of_false (fun h => ?_) fun h => ?_
    · obtain ⟨l, hlist, -⟩ := h.created (by simp [hl])
      simp [hl] at hlist
    · rw [(h.2 hmalloc).1] at hstrdup
      cases hstrdup
  · -- every item is accepted
    have hall := firstStop_eq_none_iff.1 hnone
    refine iff_of_true ⟨?_, fun _ => ?_, fun t l₁ l₂ => joined_lists⟩ ⟨by simp [hmalloc], ?_⟩
    · refine iff_of_false (by simp [hl]) ?_
      rw [hfails]
      rintro ⟨t, ht, hbad⟩
      exact (hall t ht).2.1 hbad
    · obtain ⟨hlen, hstored, hrest⟩ := created_list hl
      exact ⟨l, hl, hlen, hstored, hrest, listMatch_eq_true_iff_mem hl⟩
    · exact fun _ => ⟨hstrdup, by simp [hnone]⟩
  · exact absurd hlong (hfits t (mem_of_firstStop ht))
  · -- an item is refused before any with a prefix length of 0
    have hsome : ∃ t ∈ items s, BadPrefix t := ⟨t, mem_of_firstStop ht, hbad⟩
    refine iff_of_true ⟨iff_of_true hl (hfails.2 hsome), fun hne => absurd hl hne,
      fun t l₁ l₂ => joined_lists⟩ ⟨fun _ => hsome, fun _ => ⟨hstrdup, fun u hu => ?_⟩⟩
    obtain rfl := Option.some.inj (ht.symm.trans hu)
    exact hbad
  · -- the shift by 128 bits
    refine iff_of_false (fun h => ?_) fun h => hbad ((h.2 hmalloc).2 t ht)
    obtain ⟨l, hlist, -⟩ := h.created (by simp [hl])
    simp [hl] at hlist

end Stores

/-- A list with empty pieces, and with an item that is not an address. -/
theorem unionOfItems_gaps :
    UnionOfItems plentyEnv (ptonOf "fd00::".toList ⟨0xfd⟩) ",fd00::/8,,localhost,".toList := by
  have hnone : firstStop ",fd00::/8,,localhost,".toList = none := by decide +kernel
  refine (unionOfItems_iff _ _ _ (by decide +kernel)).2
    ⟨fun h => absurd h (by decide), fun _ => ⟨rfl, fun t ht => ?_⟩⟩
  rw [hnone] at ht
  cases ht

/-- `::/0`, the network of all addresses, is no item that fails; its shift is undefined, and a
program that goes on returns a list with an entry that it has no say in. -/
theorem unionOfItems_fails :
    items "::/0".toList = ["::/0".toList] ∧ ¬ TooLong "::/0".toList ∧
      ipAddrCidrListCreateFromStr plentyEnv (ptonOf "::".toList ⟨0⟩) "::/0".toList =
        .badShift (.list ⟨[plentyEnv.shifted "::/0".toList]⟩) ∧
      ¬ UnionOfItems plentyEnv (ptonOf "::".toList ⟨0⟩) "::/0".toList := by
  have hcall : ipAddrCidrListCreateFromStr plentyEnv (ptonOf "::".toList ⟨0⟩) "::/0".toList =
      .badShift (.list ⟨[plentyEnv.shifted "::/0".toList]⟩) := by decide +kernel
  refine ⟨by decide +kernel, by decide, hcall, fun h => ?_⟩
  obtain ⟨l, hl, -⟩ := h.created (by rw [hcall]; decide)
  rw [hcall] at hl
  cases hl

end UdpEthTunnel
