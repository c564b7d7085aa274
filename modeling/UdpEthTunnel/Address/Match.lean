/-
# What an allow list matches

`ip_addr_cidr_match`, `ip_addr_cidr_list_match` and `ip_addr_is_ipv4` of
`src/ip_addr.c`.

A match asks whether some bit of the address is under the mask, and never looks at the
address of the entry.  So an entry matches an address that lies in its network only by
chance: `match_iff` says when it does, for one entry, for a list of entries and for the
block of the v4-mapped addresses.
-/

import UdpEthTunnel.Address.Network

namespace UdpEthTunnel

/-- The text of `ipv4_space` without its prefix length. -/
def ipv4SpaceText : CStr :=
  ['0', ':', '0', ':', '0', ':', '0', ':', '0', ':', 'F', 'F', 'F', 'F', ':', ':']

/-- `ipv4_space_init`, and the `ipv4_space` it leaves; `none` where its assertion fails. -/
def ipv4SpaceInit (pton : Pton) : Option IpAddrCidr :=
  match ipAddrCidrFromStr pton (ipv4SpaceText ++ ['/', '9', '6']) zeroCidr with
  | .ret true c => some c
  | .ret false _ | .overflow | .badShift => none

/-- `ip_addr_is_ipv4`. -/
def ipAddrIsIpv4 (ipv4Space : IpAddrCidr) (a : IpAddr) : Bool := ipAddrCidrMatch ipv4Space a

/-- The address is in `::ffff:0:0/96`. -/
def IpAddr.IsV4Mapped (a : IpAddr) : Prop := ∃ b₁ b₂ b₃ b₄, a = .v4Mapped b₁ b₂ b₃ b₄

/-- No bit of the address is under the mask. -/
def IpAddrCidr.Misses (c : IpAddrCidr) (a : IpAddr) : Prop := a.addr &&& c.mask.addr = 0

/-- The entry tells the address: its network is not the one of `::`, and the address is in
the network or in the one of `::`. -/
def IpAddrCidr.Tells (c : IpAddrCidr) (a : IpAddr) : Prop :=
  c.addr.addr &&& c.mask.addr ≠ 0 ∧ (c.Misses a ∨ c.Contains a)

/-- The list tells the address: some entry contains it and some entry does not miss it, or
every entry misses it and none is a network of `::`. -/
def IpAddrCidrList.Tells (l : IpAddrCidrList) (a : IpAddr) : Prop :=
  ((∃ c ∈ l.entries, c.Contains a) ∧ ∃ c ∈ l.entries, ¬ c.Misses a) ∨
    ∀ c ∈ l.entries, c.Misses a ∧ c.addr.addr &&& c.mask.addr ≠ 0

section Match

variable {c : IpAddrCidr} {l : IpAddrCidrList} {a : IpAddr} {pton : Pton} {space : IpAddrCidr}

theorem match_eq_true_iff : ipAddrCidrMatch c a = true ↔ ¬ c.Misses a := by
  unfold ipAddrCidrMatch IpAddrCidr.Misses
  exact bne_iff_ne

theorem listMatch_eq_true_iff :
    ipAddrCidrListMatch l a = true ↔ ∃ c ∈ l.entries, ¬ c.Misses a := by
  unfold ipAddrCidrListMatch
  rw [List.any_eq_true]
  constructor
  · rintro ⟨c, hc, hmatch⟩
    exact ⟨c, hc, match_eq_true_iff.1 hmatch⟩
  · rintro ⟨c, hc, hhit⟩
    exact ⟨c, hc, match_eq_true_iff.2 hhit⟩

/-- A network contains an address that the mask misses only if it is one of `::`. -/
theorem IpAddrCidr.Misses.contains_iff (h : c.Misses a) :
    c.Contains a ↔ c.addr.addr &&& c.mask.addr = 0 := by
  unfold IpAddrCidr.Contains
  rw [show a.addr &&& c.mask.addr = 0 from h]
  exact eq_comm

/-- **One entry.** -/
theorem match_contains_iff : (ipAddrCidrMatch c a = true ↔ c.Contains a) ↔ c.Tells a := by
  rw [match_eq_true_iff]
  unfold IpAddrCidr.Tells
  by_cases hmiss : c.Misses a
  · have hcontains := hmiss.contains_iff
    constructor
    · intro h
      refine ⟨fun hzero => ?_, .inl hmiss⟩
      exact h.2 (hcontains.2 hzero) hmiss
    · rintro ⟨hnet, _⟩
      exact iff_of_false (fun h => h hmiss) fun h => hnet (hcontains.1 h)
  · constructor
    · intro h
      have hin : c.Contains a := h.1 hmiss
      refine ⟨fun hzero => hmiss ?_, .inr hin⟩
      exact hin.trans hzero
    · rintro ⟨_, hmiss' | hin⟩
      · exact absurd hmiss' hmiss
      · exact iff_of_true hmiss hin

/-- **A list of entries.** -/
theorem listMatch_contains_iff :
    (ipAddrCidrListMatch l a = true ↔ ∃ c ∈ l.entries, c.Contains a) ↔ l.Tells a := by
  rw [listMatch_eq_true_iff]
  unfold IpAddrCidrList.Tells
  by_cases hhit : ∃ c ∈ l.entries, ¬ c.Misses a
  · constructor
    · intro h
      exact .inl ⟨h.1 hhit, hhit⟩
    · rintro (⟨hin, _⟩ | hall)
      · exact iff_of_true hhit hin
      · obtain ⟨c, hc, hhit⟩ := hhit
        exact absurd (hall c hc).1 hhit
  · have hmiss : ∀ c ∈ l.entries, c.Misses a := by
      intro c hc
      by_contra hne
      exact hhit ⟨c, hc, hne⟩
    constructor
    · intro h
      refine .inr fun c hc => ⟨hmiss c hc, fun hzero => hhit (h.2 ⟨c, hc, ?_⟩)⟩
      exact (hmiss c hc).contains_iff.2 hzero
    · rintro (⟨_, hhit'⟩ | hall)
      · exact absurd hhit' hhit
      · refine iff_of_false hhit ?_
        rintro ⟨c, hc, hin⟩
        exact (hall c hc).2 ((hmiss c hc).contains_iff.1 hin)

/-- **A list tells an address that each of its entries tells.**  The converse fails: what one
entry gets wrong another may hide. -/
theorem tells_of_entries (h : ∀ c ∈ l.entries, c.Tells a) : l.Tells a := by
  have hentry : ∀ c ∈ l.entries, (¬ c.Misses a ↔ c.Contains a) := fun c hc => by
    rw [← match_eq_true_iff]
    exact match_contains_iff.2 (h c hc)
  refine listMatch_contains_iff.1 ?_
  rw [listMatch_eq_true_iff]
  exact ⟨fun ⟨c, hc, hhit⟩ => ⟨c, hc, (hentry c hc).1 hhit⟩,
    fun ⟨c, hc, hin⟩ => ⟨c, hc, (hentry c hc).2 hin⟩⟩

/-! ### The v4-mapped addresses -/

/-- What `ipv4_space_init` leaves. -/
theorem ipv4SpaceInit_eq (hpton : pton ipv4SpaceText = some (.v4Mapped 0 0 0 0))
    (hinit : ipv4SpaceInit pton = some space) :
    space = ⟨networkOrder ⟨BitVec.allOnes 128 <<< (128 - 96)⟩, .v4Mapped 0 0 0 0⟩ := by
  have hcall : ipAddrCidrFromStr pton (ipv4SpaceText ++ '/' :: decimal 96) zeroCidr = _ :=
    fromStr_slash (by decide) (by decide) (by decide)
  rw [if_neg (by decide), hpton, Option.getD_some] at hcall
  unfold ipv4SpaceInit at hinit
  rw [show ['/', '9', '6'] = '/' :: decimal 96 by decide, hcall] at hinit
  exact (Option.some.inj hinit).symm

/-- The network of the first 96 bits, on the number. -/
theorem inNetwork_iff_extractLsb' {b : IpAddr} :
    InNetwork b 96 a ↔ a.addr.extractLsb' 0 96 = b.addr.extractLsb' 0 96 := by
  have hindex : ∀ j < 96, netIndex j < 96 := by
    intro j hj
    unfold netIndex
    omega
  constructor
  · intro h
    refine BitVec.eq_of_getLsbD_eq fun k hk => ?_
    have hbit := h (netIndex k) (hindex k hk)
    unfold IpAddr.netBit at hbit
    rw [netIndex_netIndex] at hbit
    rw [BitVec.getLsbD_extractLsb', BitVec.getLsbD_extractLsb', Nat.zero_add, hbit]
  · intro h j hj
    have hbit := congrArg (·.getLsbD (netIndex j)) h
    simp only [BitVec.getLsbD_extractLsb', decide_eq_true (hindex j hj), Bool.true_and,
      Nat.zero_add] at hbit
    exact hbit

/-- Four bytes make a word. -/
theorem append_bytes (x : U128) (k : ℕ) :
    x.extractLsb' (k + 24) 8 ++ x.extractLsb' (k + 16) 8 ++ x.extractLsb' (k + 8) 8 ++
      x.extractLsb' k 8 = x.extractLsb' k 32 := by
  rw [BitVec.extractLsb'_append_extractLsb'_eq_extractLsb' (by omega),
    BitVec.extractLsb'_append_extractLsb'_eq_extractLsb' (by omega),
    BitVec.extractLsb'_append_extractLsb'_eq_extractLsb' (by omega)]

/-- The v4-mapped addresses are the network of the first 96 bits of `::ffff:0:0`. -/
theorem isV4Mapped_iff : a.IsV4Mapped ↔ InNetwork (.v4Mapped 0 0 0 0) 96 a := by
  have hblock : ∀ b₁ b₂ b₃ b₄,
      (IpAddr.v4Mapped b₁ b₂ b₃ b₄).addr.extractLsb' 0 96 = 0xffff#16 ++ 0#80 := by
    intro b₁ b₂ b₃ b₄
    unfold IpAddr.v4Mapped
    rw [BitVec.append_assoc, BitVec.extractLsb'_cast]
    exact BitVec.extractLsb'_append_eq_right
  rw [inNetwork_iff_extractLsb', hblock]
  constructor
  · rintro ⟨b₁, b₂, b₃, b₄, rfl⟩
    exact hblock b₁ b₂ b₃ b₄
  · intro h
    refine ⟨a.byte 12, a.byte 13, a.byte 14, a.byte 15, ?_⟩
    unfold IpAddr.v4Mapped IpAddr.byte
    rw [append_bytes a.addr 96, BitVec.append_assoc, ← h, BitVec.extractLsb'_append_extractLsb']
    rfl

/-- The space misses the addresses whose first 96 bits are zero. -/
theorem misses_ipv4Space_iff (hpton : pton ipv4SpaceText = some (.v4Mapped 0 0 0 0))
    (hinit : ipv4SpaceInit pton = some space) : space.Misses a ↔ InNetwork ⟨0⟩ 96 a := by
  rw [ipv4SpaceInit_eq hpton hinit, ← contains_mask (show 96 ≤ 128 by omega)]
  constructor
  · intro h
    exact h.trans BitVec.zero_and.symm
  · intro h
    exact Eq.trans h BitVec.zero_and

/-- **What a match says.** `ip_addr_cidr_match` asks whether a bit of the address is under the
mask, and does not look at the address of the entry.  So an entry matches exactly the
addresses of its network where it tells the address; a list, where it tells it; and
`ip_addr_is_ipv4` tells the v4-mapped addresses from those alone whose first 96 bits are
zero. -/
theorem match_iff (hpton : pton ipv4SpaceText = some (.v4Mapped 0 0 0 0))
    (hinit : ipv4SpaceInit pton = some space) :
    (∀ c a, (ipAddrCidrMatch c a = true ↔ c.Contains a) ↔ c.Tells a) ∧
    (∀ l a, (ipAddrCidrListMatch l a = true ↔ ∃ c ∈ l.entries, c.Contains a) ↔ l.Tells a) ∧
    ∀ a, (ipAddrIsIpv4 space a = true ↔ a.IsV4Mapped) ↔ InNetwork ⟨0⟩ 96 a ∨ a.IsV4Mapped := by
  refine ⟨fun c a => match_contains_iff, fun l a => listMatch_contains_iff, fun a => ?_⟩
  have hcontains : space.Contains a ↔ a.IsV4Mapped := by
    rw [isV4Mapped_iff, ipv4SpaceInit_eq hpton hinit]
    exact contains_mask (by omega)
  have hnet : space.addr.addr &&& space.mask.addr ≠ 0 := by
    rw [ipv4SpaceInit_eq hpton hinit]
    decide
  have htells : space.Tells a ↔ InNetwork ⟨0⟩ 96 a ∨ a.IsV4Mapped := by
    unfold IpAddrCidr.Tells
    rw [misses_ipv4Space_iff hpton hinit, hcontains]
    exact and_iff_right hnet
  rw [← htells, ← match_contains_iff, hcontains]
  exact Iff.rfl

/-- `ip_addr_is_ipv4` is right on `10.0.0.1`, for an `inet_pton` that knows the text of
`ipv4_space`. -/
theorem match_iff_ipv4 :
    ipAddrIsIpv4 ⟨⟨0xffffffffffffffffffffffff⟩, .v4Mapped 0 0 0 0⟩ (.v4Mapped 10 0 0 1) = true ↔
      (IpAddr.v4Mapped 10 0 0 1).IsV4Mapped := by
  have hpton : ptonOf ipv4SpaceText (.v4Mapped 0 0 0 0) ipv4SpaceText = some (.v4Mapped 0 0 0 0) :=
    if_pos rfl
  exact ((match_iff hpton (by decide +kernel)).2.2 _).2 (.inr ⟨10, 0, 0, 1, rfl⟩)

/-- `10.0.0.0/8`. -/
def tenNetwork : IpAddrCidr := ⟨⟨0xffffffffffffffffffffffffff⟩, .v4Mapped 10 0 0 0⟩

/-- `10.0.0.0/8` matches `192.168.1.1`, which it does not contain, and so does the list of
that entry; `fd00::` is taken for an IPv4 address. -/
theorem match_fails :
    ¬ (ipAddrCidrMatch tenNetwork (.v4Mapped 192 168 1 1) = true ↔
      tenNetwork.Contains (.v4Mapped 192 168 1 1)) ∧
    ¬ (ipAddrCidrListMatch ⟨[tenNetwork]⟩ (.v4Mapped 192 168 1 1) = true ↔
      ∃ c ∈ [tenNetwork], c.Contains (.v4Mapped 192 168 1 1)) ∧
    ¬ (ipAddrIsIpv4 ⟨⟨0xffffffffffffffffffffffff⟩, .v4Mapped 0 0 0 0⟩ ⟨0xfd⟩ = true ↔
      (⟨0xfd⟩ : IpAddr).IsV4Mapped) := by
  refine ⟨by decide, by decide, ?_⟩
  intro h
  have hbit := isV4Mapped_iff.1 (h.1 (by decide)) 0 (by decide)
  exact absurd hbit (by decide)

end Match

end UdpEthTunnel
