/-
# An address printed and read again

`ip_addr_to_str` of `src/ip_addr.c` prints an address for the logs and the statistics:
with `inet_ntop(AF_INET, …)` and its last four bytes alone where `ip_addr_is_ipv4` says so,
with `inet_ntop(AF_INET6, …)` elsewhere.  `ip_addr_from_str` reads IPv6 texts alone, and
takes the answer 0 of `inet_pton` for a success.

`ip_addr_is_ipv4` says yes to every address whose first 96 bits are not all zero.  So the
other addresses are all that come back from their text (`roundTrips_iff`): the text of the
rest loses 96 bits, and reading it leaves what was there.
-/

import UdpEthTunnel.Address.Match

namespace UdpEthTunnel

/-- `inet_ntop` of the two families; `none` for `NULL`. -/
structure Ntop where
  inet : U32 → Option CStr
  inet6 : IpAddr → Option CStr

/-- `ip_addr_to_str`; `none` for `false`. -/
def ipAddrToStr (ntop : Ntop) (ipv4Space : IpAddrCidr) (a : IpAddr) : Option CStr :=
  -- IPv4 is in the last dword
  if ipAddrIsIpv4 ipv4Space a then ntop.inet (a.dword 3) else ntop.inet6 a

/-- **What the C library promises.**  Each `inet_pton` reads what the `inet_ntop` of its
family prints, and that of IPv6 answers 0 to a dotted text.  `pton4` is the one of IPv4, which
the program never calls. -/
structure TextSpec (ntop : Ntop) (pton4 : CStr → Option U32) (pton : Pton) : Prop where
  inet : ∀ x, ∃ s, ntop.inet x = some s ∧ pton4 s = some x
  inet6 : ∀ a, ∃ s, ntop.inet6 a = some s ∧ pton s = some a
  dotted : ∀ x s, ntop.inet x = some s → pton s = none
  space : pton ipv4SpaceText = some (.v4Mapped 0 0 0 0)

/-- **The text of `a` reads back**: over an address that holds `b`, as `a`. -/
def RoundTrips (ntop : Ntop) (pton : Pton) (ipv4Space : IpAddrCidr) (a b : IpAddr) : Prop :=
  ∃ s, ipAddrToStr ntop ipv4Space a = some s ∧ ipAddrFromStr pton s b = (true, a)

section RoundTrip

variable {ntop : Ntop} {pton4 : CStr → Option U32} {pton : Pton} {space : IpAddrCidr}
  {a a' b : IpAddr}

/-- The family an address is printed in. -/
theorem toStr_eq (h : TextSpec ntop pton4 pton) (hinit : ipv4SpaceInit pton = some space) :
    (InNetwork ⟨0⟩ 96 a ∧ ipAddrToStr ntop space a = ntop.inet6 a) ∨
      ¬ InNetwork ⟨0⟩ 96 a ∧ ipAddrToStr ntop space a = ntop.inet (a.dword 3) := by
  have hfamily : ipAddrIsIpv4 space a = true ↔ ¬ InNetwork ⟨0⟩ 96 a := by
    rw [← misses_ipv4Space_iff h.space hinit]
    exact match_eq_true_iff
  unfold ipAddrToStr
  by_cases hzero : InNetwork ⟨0⟩ 96 a
  · refine .inl ⟨hzero, if_neg fun hv4 => ?_⟩
    exact hfamily.1 hv4 hzero
  · exact .inr ⟨hzero, if_pos (hfamily.2 hzero)⟩

/-- **One address.** -/
theorem roundTrips_one (h : TextSpec ntop pton4 pton) (hinit : ipv4SpaceInit pton = some space)
    (a b : IpAddr) : RoundTrips ntop pton space a b ↔ InNetwork ⟨0⟩ 96 a ∨ b = a := by
  unfold RoundTrips
  rcases toStr_eq (a := a) h hinit with ⟨hzero, htext⟩ | ⟨hzero, htext⟩
  · obtain ⟨s, hs, hread⟩ := h.inet6 a
    refine iff_of_true ⟨s, htext.trans hs, ?_⟩ (.inl hzero)
    rw [ipAddrFromStr_eq, hread, Option.getD_some]
  · obtain ⟨s, hs, -⟩ := h.inet (a.dword 3)
    have hread : ipAddrFromStr pton s b = (true, b) := by
      rw [ipAddrFromStr_eq, h.dotted _ s hs, Option.getD_none]
    rw [htext, hs, or_iff_right hzero]
    constructor
    · rintro ⟨s', hs', hback⟩
      obtain rfl := Option.some.inj hs'
      exact (Prod.mk.inj (hread.symm.trans hback)).2
    · rintro rfl
      exact ⟨s, rfl, hread⟩

/-- **Two addresses.**  Those printed in one family have one text when that family prints
the same of them. -/
theorem toStr_eq_toStr_iff (h : TextSpec ntop pton4 pton)
    (hinit : ipv4SpaceInit pton = some space) (a a' : IpAddr) :
    ipAddrToStr ntop space a = ipAddrToStr ntop space a' ↔
      a = a' ∨ ¬ InNetwork ⟨0⟩ 96 a ∧ ¬ InNetwork ⟨0⟩ 96 a' ∧ a.dword 3 = a'.dword 3 := by
  -- no text is printed in both families
  have hapart : ∀ x y, ntop.inet6 x ≠ ntop.inet y := by
    intro x y heq
    obtain ⟨s, hs, hread⟩ := h.inet6 x
    have hnone := h.dotted y s (heq.symm.trans hs)
    rw [hread] at hnone
    cases hnone
  have hinj6 : ∀ {x y}, ntop.inet6 x = ntop.inet6 y → x = y := by
    intro x y heq
    obtain ⟨s, hs, hread⟩ := h.inet6 x
    obtain ⟨s', hs', hread'⟩ := h.inet6 y
    obtain rfl : s = s' := Option.some.inj (hs.symm.trans (heq.trans hs'))
    exact Option.some.inj (hread.symm.trans hread')
  have hinj4 : ∀ {x y}, ntop.inet x = ntop.inet y → x = y := by
    intro x y heq
    obtain ⟨s, hs, hread⟩ := h.inet x
    obtain ⟨s', hs', hread'⟩ := h.inet y
    obtain rfl : s = s' := Option.some.inj (hs.symm.trans (heq.trans hs'))
    exact Option.some.inj (hread.symm.trans hread')
  rcases toStr_eq (a := a) h hinit with ⟨hzero, htext⟩ | ⟨hzero, htext⟩ <;>
    rcases toStr_eq (a := a') h hinit with ⟨hzero', htext'⟩ | ⟨hzero', htext'⟩ <;>
    rw [htext, htext']
  · rw [or_iff_left fun hne => hne.1 hzero]
    exact ⟨hinj6, congrArg _⟩
  · refine iff_of_false (hapart _ _) ?_
    rintro (rfl | ⟨hne, -⟩)
    · exact hzero' hzero
    · exact hne hzero
  · refine iff_of_false (hapart _ _).symm ?_
    rintro (rfl | ⟨-, hne, -⟩)
    · exact hzero hzero'
    · exact hne hzero'
  · constructor
    · exact fun heq => .inr ⟨hzero, hzero', hinj4 heq⟩
    · rintro (rfl | ⟨-, -, heq⟩)
      · rfl
      · rw [heq]

/-- **When an address text round-trips.**  `ip_addr_to_str` prints the last four bytes alone of
every address that `ip_addr_is_ipv4` takes for an IPv4 address, and `ip_addr_from_str` does
not read such a text.  So the text of `a` reads back over `b` when the first 96 bits of `a`
are zero, or nothing had to be read; and two different addresses have different texts unless
neither starts with 96 zero bits and both end in the same 32. -/
theorem roundTrips_iff (h : TextSpec ntop pton4 pton) (hinit : ipv4SpaceInit pton = some space) :
    (∀ a b, RoundTrips ntop pton space a b ↔ InNetwork ⟨0⟩ 96 a ∨ b = a) ∧
      ∀ a a', a ≠ a' → (ipAddrToStr ntop space a ≠ ipAddrToStr ntop space a' ↔
        InNetwork ⟨0⟩ 96 a ∨ InNetwork ⟨0⟩ 96 a' ∨ a.dword 3 ≠ a'.dword 3) := by
  refine ⟨roundTrips_one h hinit, fun a a' hne => ?_⟩
  rw [ne_eq, toStr_eq_toStr_iff h hinit, or_iff_right hne,
    not_and_or, not_and_or, not_not, not_not]

/-! ### A C library -/

/-- The dotted text of an `in_addr`. -/
def dottedInAddr (x : U32) : CStr :=
  dottedText (x.extractLsb' 0 8) (x.extractLsb' 8 8) (x.extractLsb' 16 8) (x.extractLsb' 24 8)

/-- The `in_addr` of four numbers between dots. -/
def readDotted (s : CStr) : Option U32 :=
  match (s.splitOn '.').map leadingDigits with
  | [a, b, c, d] =>
    some (BitVec.ofNat 8 d ++ BitVec.ofNat 8 c ++ BitVec.ofNat 8 b ++ BitVec.ofNat 8 a)
  | _ => none

/-- `::1`. -/
def loopback : IpAddr := ⟨1 <<< 120⟩

/-- An `inet_ntop` that prints the IPv4 addresses and `::1` as they are printed, and every
other address by its number. -/
def numberNtop : Ntop :=
  { inet := fun x => some (dottedInAddr x)
    inet6 := fun a => some (if a = loopback then [':', ':', '1'] else ':' :: decimal a.addr.toNat) }

/-- The `inet_pton` of `numberNtop`, which also knows the text of `ipv4_space`. -/
def numberPton : Pton := fun s =>
  if s = [':', ':', '1'] then some loopback
  else if s = ipv4SpaceText then some (.v4Mapped 0 0 0 0)
  else if s.head? = some ':' then some ⟨.ofNat 128 (leadingDigits s.tail)⟩
  else none

theorem readDotted_dottedInAddr (x : U32) : readDotted (dottedInAddr x) = some x := by
  have hdot : ∀ y : U8, '.' ∉ decimal y.toNat := fun y hmem =>
    absurd (isDigit_of_mem_decimal hmem) (by decide)
  unfold readDotted dottedInAddr dottedText
  simp only [List.append_assoc, List.cons_append, hdot, not_false_eq_true,
    List.splitOn_append_cons_self_of_not_mem, List.splitOn_eq_singleton, List.map_cons,
    List.map_nil, leadingDigits_decimal, BitVec.ofNat_toNat, BitVec.setWidth_eq]
  rw [BitVec.extractLsb'_append_extractLsb'_eq_extractLsb' (by omega),
    BitVec.extractLsb'_append_extractLsb'_eq_extractLsb' (by omega),
    BitVec.extractLsb'_append_extractLsb'_eq_extractLsb' (by omega)]
  exact congrArg some (BitVec.extractLsb'_eq_self)

theorem textSpec_number : TextSpec numberNtop readDotted numberPton where
  inet x := ⟨_, rfl, readDotted_dottedInAddr x⟩
  inet6 a := by
    refine ⟨_, rfl, ?_⟩
    by_cases ha : a = loopback
    · rw [if_pos ha, ha]
      rfl
    · have hone : ':' :: decimal a.addr.toNat ≠ [':', ':', '1'] := by
        intro heq
        have hmem : ':' ∈ decimal a.addr.toNat := by
          rw [(List.cons.inj heq).2]
          exact List.mem_cons_self
        exact absurd (isDigit_of_mem_decimal hmem) (by decide)
      have hspace : ':' :: decimal a.addr.toNat ≠ ipv4SpaceText := fun heq =>
        absurd (List.cons.inj heq).1 (by decide)
      rw [if_neg ha, numberPton, if_neg hone, if_neg hspace, if_pos (by rfl), List.tail_cons,
        leadingDigits_decimal, BitVec.ofNat_toNat, BitVec.setWidth_eq]
  dotted x s hs := by
    obtain rfl := Option.some.inj hs
    have hcolon : ':' ∉ dottedInAddr x := by
      intro hmem
      rcases mem_dottedText hmem with hdigit | hdot
      · exact absurd hdigit (by decide)
      · exact absurd hdot (by decide)
    have hne : ∀ t : CStr, ':' ∈ t → dottedInAddr x ≠ t := by
      rintro t ht rfl
      exact hcolon ht
    have hhead : (dottedInAddr x).head? ≠ some ':' := fun h => hcolon (List.mem_of_mem_head? h)
    rw [numberPton, if_neg (hne _ (by decide)), if_neg (hne _ (by decide)), if_neg hhead]
  space := by decide

/-- The space under `numberPton`. -/
def numberSpace : IpAddrCidr := ⟨⟨0xffffffffffffffffffffffff⟩, .v4Mapped 0 0 0 0⟩

/-- `::1` reads back over any address, `10.0.0.1` over itself; and the two have different
texts. -/
theorem roundTrips_iff_loopback :
    (∀ b, RoundTrips numberNtop numberPton numberSpace loopback b) ∧
      RoundTrips numberNtop numberPton numberSpace (.v4Mapped 10 0 0 1) (.v4Mapped 10 0 0 1) ∧
      ipAddrToStr numberNtop numberSpace loopback ≠
        ipAddrToStr numberNtop numberSpace (.v4Mapped 10 0 0 1) := by
  have hinit : ipv4SpaceInit numberPton = some numberSpace := by decide +kernel
  have hzero : InNetwork ⟨0⟩ 96 loopback := by
    intro j hj
    revert j
    decide +kernel
  obtain ⟨hone, htwo⟩ := roundTrips_iff textSpec_number hinit
  refine ⟨fun b => (hone _ _).2 (.inl hzero), (hone _ _).2 (.inr rfl), ?_⟩
  exact (htwo _ _ (by decide)).2 (.inl hzero)

/-- `10.0.0.1` read over the zero address leaves that address, and `fd00::a00:1` prints as
`10.0.0.1` too. -/
theorem roundTrips_fails :
    ipAddrToStr numberNtop numberSpace (.v4Mapped 10 0 0 1) =
        some ['1', '0', '.', '0', '.', '0', '.', '1'] ∧
      ipAddrFromStr numberPton ['1', '0', '.', '0', '.', '0', '.', '1'] ⟨0⟩ = (true, ⟨0⟩) ∧
      ¬ RoundTrips numberNtop numberPton numberSpace (.v4Mapped 10 0 0 1) ⟨0⟩ ∧
      ipAddrToStr numberNtop numberSpace ⟨0x0100000a0000000000000000000000fd⟩ =
        some ['1', '0', '.', '0', '.', '0', '.', '1'] := by
  have htext : ipAddrToStr numberNtop numberSpace (.v4Mapped 10 0 0 1) =
      some ['1', '0', '.', '0', '.', '0', '.', '1'] := by decide +kernel
  have hread : ipAddrFromStr numberPton ['1', '0', '.', '0', '.', '0', '.', '1'] ⟨0⟩ =
      (true, ⟨0⟩) := by decide +kernel
  refine ⟨htext, hread, ?_, by decide +kernel⟩
  rintro ⟨s, hs, hback⟩
  obtain rfl := Option.some.inj (htext.symm.trans hs)
  exact absurd (hread.symm.trans hback) (by decide)

end RoundTrip

end UdpEthTunnel
