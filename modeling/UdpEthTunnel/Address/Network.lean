/-
# The network a text stands for

An entry of an allow list is meant to be a network: the addresses that agree with a
given one on the bits of its mask (`IpAddrCidr.Contains`).  IPv4 networks are those of
the v4-mapped addresses, whose first 96 bits are fixed.

`ip_addr_cidr_from_str` makes the network of an IPv6 text, of any prefix length but 0
(`parsesNetwork_iff`).  An IPv4 text it does not read at all: `inet_pton(AF_INET6, …)`
refuses it, and the entry keeps the address it had.
-/

import UdpEthTunnel.Address.Text

namespace UdpEthTunnel

/-- The address lies in the network. -/
def IpAddrCidr.Contains (c : IpAddrCidr) (a : IpAddr) : Prop :=
  a.addr &&& c.mask.addr = c.addr.addr &&& c.mask.addr

instance (c : IpAddrCidr) (a : IpAddr) : Decidable (c.Contains a) :=
  inferInstanceAs (Decidable (_ = _))

/-- The addresses that agree with `a` on their first `k` bits. -/
def InNetwork (a : IpAddr) (k : ℕ) (x : IpAddr) : Prop := ∀ j < k, x.netBit j = a.netBit j

/-- The text of an IPv4 address. -/
def dottedText (a b c d : U8) : CStr :=
  decimal a.toNat ++ '.' :: decimal b.toNat ++ '.' :: decimal c.toNat ++ '.' :: decimal d.toNat

/-- The text of an address. -/
inductive HostText where
  | v4 (a b c d : U8)
  | v6 (text : CStr)

namespace HostText

def text : HostText → CStr
  | v4 a b c d => dottedText a b c d
  | v6 text => text

/-- The address, as the socket delivers it. -/
def addr (pton : Pton) : HostText → Option IpAddr
  | v4 a b c d => some (.v4Mapped a b c d)
  | v6 text => pton text

/-- How many bits of the address the text does not speak of. -/
def mappedBits : HostText → ℕ
  | v4 _ _ _ _ => 96
  | v6 _ => 0

end HostText

/-- The text of a network: an address, and perhaps a prefix length. -/
structure NetworkText where
  host : HostText
  prefixLen : Option ℕ

namespace NetworkText

def text (t : NetworkText) : CStr :=
  match t.prefixLen with
  | none => t.host.text
  | some n => t.host.text ++ '/' :: decimal n

/-- How many bits of the address are fixed. -/
def bits (t : NetworkText) : ℕ :=
  match t.prefixLen with
  | none => 128
  | some n => t.host.mappedBits + n

/-- The text is well-formed: its address is one and its prefix length is in range. -/
def WellFormed (pton : Pton) (t : NetworkText) : Prop :=
  (t.host.addr pton).isSome = true ∧ ∀ n ∈ t.prefixLen, t.host.mappedBits + n ≤ 128

end NetworkText

/-- What is documented of `inet_pton(AF_INET6, …)`: an IPv6 text has no slash, and an
IPv4 address is none. -/
structure PtonSpec (pton : Pton) : Prop where
  noSlash : ∀ s a, pton s = some a → '/' ∉ s
  dotted : ∀ a b c d, pton (dottedText a b c d) = none

/-- **A text is read as its network**: the call returns `true`, all its shifts are by
fewer than 128 bits, and the entry contains the addresses of the network. -/
def ParsesNetwork (pton : Pton) (t : NetworkText) (out : IpAddrCidr) : Prop :=
  ∃ c, ipAddrCidrFromStr pton t.text out = .ret true c ∧
    ∃ a, t.host.addr pton = some a ∧ ∀ x, c.Contains x ↔ InNetwork a t.bits x

section Network

variable {pton : Pton} {a b x : IpAddr} {n k : ℕ} {out : IpAddrCidr} {s : CStr}

/-- A network is given by the bits under its mask. -/
theorem contains_iff {c : IpAddrCidr} : c.Contains x ↔
    ∀ j < 128, c.mask.netBit j = true → x.netBit j = c.addr.netBit j := by
  constructor
  · intro h j _ hm
    have hbit := congrArg (·.getLsbD (netIndex j)) h
    have hm' : c.mask.addr.getLsbD (netIndex j) = true := hm
    simp only [BitVec.getLsbD_and, hm', Bool.and_true] at hbit
    exact hbit
  · intro h
    refine eq_of_netBit fun j hj => ?_
    rw [BitVec.getLsbD_and, BitVec.getLsbD_and]
    cases hm : c.mask.addr.getLsbD (netIndex j) with
    | false => rw [Bool.and_false, Bool.and_false]
    | true =>
      have hbit : x.addr.getLsbD (netIndex j) = c.addr.addr.getLsbD (netIndex j) := h j hj hm
      rw [hbit]

/-- The network of the first `n` bits. -/
theorem contains_mask (hn : n ≤ 128) :
    (⟨networkOrder ⟨BitVec.allOnes 128 <<< (128 - n)⟩, a⟩ : IpAddrCidr).Contains x ↔
      InNetwork a n x := by
  rw [contains_iff]
  constructor
  · intro h j hj
    exact h j (by omega) (by rw [netBit_mask (by omega) hn, decide_eq_true hj])
  · intro h j hj hm
    rw [netBit_mask hj hn, decide_eq_true_eq] at hm
    exact h j hm

/-- An address that differs from `a` in bit `n` alone. -/
theorem exists_flipped (a : IpAddr) (hn : n < 128) :
    ∃ x : IpAddr, (∀ j < n, x.netBit j = a.netBit j) ∧ x.netBit n ≠ a.netBit n := by
  have hbit : ∀ j, (⟨a.addr ^^^ BitVec.twoPow 128 (netIndex n)⟩ : IpAddr).netBit j =
      (a.netBit j ^^ (decide (netIndex n < 128) && decide (netIndex n = netIndex j))) := by
    intro j
    unfold IpAddr.netBit
    rw [BitVec.getLsbD_xor, BitVec.getLsbD_twoPow]
  refine ⟨⟨a.addr ^^^ BitVec.twoPow 128 (netIndex n)⟩, fun j hj => ?_, ?_⟩
  · have hne : netIndex n ≠ netIndex j := fun h => by
      have := congrArg netIndex h
      rw [netIndex_netIndex, netIndex_netIndex] at this
      omega
    rw [hbit, decide_eq_false hne, Bool.and_false, Bool.xor_false]
  · rw [hbit, decide_eq_true (netIndex_lt hn), decide_eq_true rfl]
    simp

/-- Networks of addresses are equal only if they have as many fixed bits, where one has
no more than the other. -/
theorem inNetwork_eq (hk : k ≤ 128) (hnk : n ≤ k)
    (h : ∀ x, InNetwork a n x ↔ InNetwork b k x) : n = k ∧ ∀ j < k, a.netBit j = b.netBit j := by
  have hself : InNetwork b k a := (h a).1 fun _ _ => rfl
  refine ⟨?_, hself⟩
  by_contra hne
  obtain ⟨x, hx, hxn⟩ := exists_flipped a (show n < 128 by omega)
  have hxb := (h x).1 hx n (by omega)
  exact hxn (hxb.trans (hself n (by omega)).symm)

end Network

section Parse

variable {pton : Pton} {out : IpAddrCidr} {s : CStr} {n : ℕ} {t : NetworkText}

/-- The text of an IPv4 address is made of digits and dots. -/
theorem mem_dottedText {a b c d : U8} {x : Char} (h : x ∈ dottedText a b c d) :
    x.isDigit = true ∨ x = '.' := by
  unfold dottedText at h
  simp only [List.mem_append, List.mem_cons] at h
  rcases h with ((h | rfl | h) | rfl | h) | rfl | h
  · exact .inl (isDigit_of_mem_decimal h)
  · exact .inr rfl
  · exact .inl (isDigit_of_mem_decimal h)
  · exact .inr rfl
  · exact .inl (isDigit_of_mem_decimal h)
  · exact .inr rfl
  · exact .inl (isDigit_of_mem_decimal h)

/-- No address has a slash in its text. -/
theorem HostText.noSlash (hp : PtonSpec pton) (h : HostText) (ha : (h.addr pton).isSome = true) :
    '/' ∉ h.text := by
  cases h with
  | v4 a b c d =>
    intro hmem
    rcases mem_dottedText hmem with hdigit | hdot
    · exact absurd hdigit (by decide)
    · exact absurd hdot (by decide)
  | v6 text =>
    obtain ⟨a, ha⟩ := Option.isSome_iff_exists.1 ha
    exact hp.noSlash text a ha

/-- What the conversion stores: the address of the text, or the one that was there. -/
theorem ipAddrFromStr_eq (pton : Pton) (s : CStr) (a : IpAddr) :
    ipAddrFromStr pton s a = (true, (pton s).getD a) := by
  unfold ipAddrFromStr inetPton
  cases pton s with
  | none => rfl
  | some b => rfl

/-- A text without a prefix length. -/
theorem fromStr_plain (hs : '/' ∉ s) (hlen : s.length < inet6AddrStrLen) :
    ipAddrCidrFromStr pton s out =
      .ret true ⟨networkOrder ⟨BitVec.allOnes 128⟩, (pton s).getD out.addr⟩ := by
  have hnone : strchr s '/' = none := by
    rcases strchr_cases s '/' with ⟨_, hnone⟩ | ⟨hmem, _⟩
    · exact hnone
    · exact absurd hmem hs
  unfold ipAddrCidrFromStr
  rw [if_neg (by omega), hnone]
  simp only [cidrWithMask, ipAddrFromStr_eq]

/-- A text with a prefix length that is in range. -/
theorem fromStr_slash (hs : '/' ∉ s) (hn : n ≤ 128)
    (hlen : (s ++ '/' :: decimal n).length < inet6AddrStrLen) :
    ipAddrCidrFromStr pton (s ++ '/' :: decimal n) out =
      if n = 0 then .badShift
      else .ret true ⟨networkOrder ⟨BitVec.allOnes 128 <<< (128 - n)⟩, (pton s).getD out.addr⟩ := by
  have hall : ∀ x ∈ s, (x != '/') = true := by
    intro x hx
    rw [bne_iff_ne]
    rintro rfl
    exact hs hx
  have htake : (s ++ '/' :: decimal n).takeWhile (· != '/') = s := by
    rw [List.takeWhile_append_of_pos hall, List.takeWhile_cons_of_neg (by decide), List.append_nil]
  have hdrop : (s ++ '/' :: decimal n).dropWhile (· != '/') = '/' :: decimal n := by
    rw [List.dropWhile_append_of_pos hall, List.dropWhile_cons_of_neg (by decide)]
  rcases strchr_cases (s ++ '/' :: decimal n) '/' with ⟨hnot, _⟩ | ⟨_, i, hi, hto, hfrom⟩
  · exact absurd (by simp) hnot
  · rw [htake] at hto
    rw [hdrop, List.tail_cons] at hfrom
    unfold ipAddrCidrFromStr
    rw [if_neg (by omega), hi]
    simp only [hto, hfrom, atoi_decimal (show n < 2 ^ 31 by omega)]
    rw [if_neg (by omega)]
    by_cases hzero : n = 0
    · rw [if_pos (by omega), if_pos hzero]
    · rw [if_neg (by omega), if_neg hzero, show ((128 : Int) - n).toNat = 128 - n by omega]
      simp only [cidrWithMask, ipAddrFromStr_eq]

/-- How a well-formed text ends the call: the copy overflows, the shift is undefined, or
the entry contains the addresses that agree with the stored one on the bits of the prefix
length. -/
theorem fromStr_cases (hp : PtonSpec pton) (ht : t.WellFormed pton) (out : IpAddrCidr) :
    (inet6AddrStrLen ≤ t.text.length ∧ ipAddrCidrFromStr pton t.text out = .overflow) ∨
    (t.prefixLen = some 0 ∧ ipAddrCidrFromStr pton t.text out = .badShift) ∨
    (t.text.length < inet6AddrStrLen ∧ t.prefixLen ≠ some 0 ∧
      ∃ c, ipAddrCidrFromStr pton t.text out = .ret true c ∧
        ∀ x, c.Contains x ↔
          InNetwork ((pton t.host.text).getD out.addr) (t.prefixLen.getD 128) x) := by
  obtain ⟨host, prefixLen⟩ := t
  obtain ⟨haddr, hrange⟩ := ht
  have hslash := host.noSlash hp haddr
  by_cases hlen : (NetworkText.text ⟨host, prefixLen⟩).length < inet6AddrStrLen
  · cases prefixLen with
    | none =>
      refine .inr (.inr ⟨hlen, nofun, _, fromStr_plain hslash hlen, fun x => ?_⟩)
      exact contains_mask (n := 128) (le_refl _)
    | some n =>
      have hn : n ≤ 128 := by
        have := hrange n rfl
        omega
      have hcall : ipAddrCidrFromStr pton (host.text ++ '/' :: decimal n) out = _ :=
        fromStr_slash hslash hn hlen
      by_cases hzero : n = 0
      · rw [if_pos hzero] at hcall
        exact .inr (.inl ⟨congrArg some hzero, hcall⟩)
      · rw [if_neg hzero] at hcall
        refine .inr (.inr ⟨hlen, fun h => hzero (Option.some.inj h), _, hcall, fun x => ?_⟩)
        exact contains_mask hn
  · refine .inl ⟨by omega, ?_⟩
    unfold ipAddrCidrFromStr
    rw [if_pos (by omega)]

/-- The texts that are read, into an entry that holds `out`. -/
def NetworkText.Readable (t : NetworkText) (out : IpAddrCidr) : Prop :=
  t.text.length < inet6AddrStrLen ∧
    match t.host with
    | .v6 _ => t.prefixLen ≠ some 0
    | .v4 a b c d => t.prefixLen = none ∧ out.addr = .v4Mapped a b c d

/-- A text that is stored is read when the stored address and the prefix length say the
same as the text. -/
theorem parsesNetwork_of_ret {c : IpAddrCidr} (hcall : ipAddrCidrFromStr pton t.text out = .ret true c)
    (hc : ∀ x, c.Contains x ↔
      InNetwork ((pton t.host.text).getD out.addr) (t.prefixLen.getD 128) x) :
    ParsesNetwork pton t out ↔ ∃ a, t.host.addr pton = some a ∧ ∀ x,
      InNetwork ((pton t.host.text).getD out.addr) (t.prefixLen.getD 128) x ↔
        InNetwork a t.bits x := by
  constructor
  · rintro ⟨c', hret, a, ha, hnet⟩
    obtain rfl : c = c' := (CidrOutcome.ret.inj (hcall.symm.trans hret)).2
    exact ⟨a, ha, fun x => (hc x).symm.trans (hnet x)⟩
  · rintro ⟨a, ha, hnet⟩
    exact ⟨c, hcall, a, ha, fun x => (hc x).trans (hnet x)⟩

/-- The prefix length of an IPv4 text does not count the mapped bits, so only a plain
address can be right. -/
theorem inNetwork_v4Mapped_iff {b₁ b₂ b₃ b₄ : BitVec 8} {prefixLen : Option ℕ} {addr : IpAddr}
    (hrange : ∀ n, prefixLen = some n → 96 + n ≤ 128) :
    (∀ x, InNetwork addr (prefixLen.getD 128) x ↔
      InNetwork (.v4Mapped b₁ b₂ b₃ b₄) (NetworkText.bits ⟨.v4 b₁ b₂ b₃ b₄, prefixLen⟩) x) ↔
      prefixLen = none ∧ addr = .v4Mapped b₁ b₂ b₃ b₄ := by
  constructor
  · intro hnet
    cases prefixLen with
    | none =>
      obtain ⟨_, hbits⟩ := inNetwork_eq (le_refl 128) (le_refl 128) hnet
      exact ⟨rfl, congrArg IpAddr.mk (eq_of_netBit hbits)⟩
    | some n =>
      have hbits : n = 96 + n := (inNetwork_eq (hrange n rfl) (Nat.le_add_left n 96) hnet).1
      omega
  · rintro ⟨rfl, rfl⟩ x
    rfl

/-- **Which texts are read.** `ip_addr_cidr_from_str` takes the prefix length for that of an IPv6
address and its text for an IPv6 text.  So an IPv6 text is read as its network if it fits the
copy and has another prefix length than 0, for which the mask is shifted by all its 128 bits.
An IPv4 text is refused by `inet_pton`, which is not noticed: it is read only where it is a
plain address that the entry already holds. -/
theorem parsesNetwork_iff (hp : PtonSpec pton) (ht : t.WellFormed pton) (out : IpAddrCidr) :
    ParsesNetwork pton t out ↔ t.Readable out := by
  rcases fromStr_cases hp ht out with ⟨hlen, hcall⟩ | ⟨hzero, hcall⟩ | ⟨hlen, hzero, c, hcall, hc⟩
  · constructor
    · rintro ⟨c, hret, _⟩
      rw [hcall] at hret
      exact absurd hret nofun
    · rintro ⟨hlt, _⟩
      omega
  · constructor
    · rintro ⟨c, hret, _⟩
      rw [hcall] at hret
      exact absurd hret nofun
    · rintro ⟨_, hread⟩
      cases hhost : t.host with
      | v4 a b c d =>
        rw [hhost] at hread
        rw [hzero] at hread
        exact absurd hread.1 nofun
      | v6 text =>
        rw [hhost] at hread
        exact absurd hzero hread
  · rw [parsesNetwork_of_ret hcall hc]
    obtain ⟨host, prefixLen⟩ := t
    cases host with
    | v6 text =>
      obtain ⟨a, ha⟩ := Option.isSome_iff_exists.1 ht.1
      have hbits : NetworkText.bits ⟨.v6 text, prefixLen⟩ = prefixLen.getD 128 := by
        cases prefixLen with
        | none => rfl
        | some n => exact Nat.zero_add n
      have hstored : (pton text).getD out.addr = a := by
        rw [show pton text = some a from ha, Option.getD_some]
      refine iff_of_true ⟨a, ha, fun x => ?_⟩ ⟨hlen, hzero⟩
      rw [hbits]
      exact hstored ▸ Iff.rfl
    | v4 b₁ b₂ b₃ b₄ =>
      have hstored : (pton (dottedText b₁ b₂ b₃ b₄)).getD out.addr = out.addr := by
        rw [hp.dotted, Option.getD_none]
      have haddr : (∃ a, some (IpAddr.v4Mapped b₁ b₂ b₃ b₄) = some a ∧ ∀ x,
          InNetwork ((pton (dottedText b₁ b₂ b₃ b₄)).getD out.addr) (prefixLen.getD 128) x ↔
            InNetwork a (NetworkText.bits ⟨.v4 b₁ b₂ b₃ b₄, prefixLen⟩) x) ↔
          prefixLen = none ∧ out.addr = .v4Mapped b₁ b₂ b₃ b₄ := by
        rw [hstored, ← inNetwork_v4Mapped_iff ht.2]
        simp
      exact haddr.trans (and_iff_right hlen).symm

/-- An `inet_pton` that knows one text. -/
def ptonOf (text : CStr) (a : IpAddr) : Pton := fun s => if s = text then some a else none

theorem ptonSpec_ptonOf {text : CStr} {a : IpAddr} (hslash : '/' ∉ text) (hcolon : ':' ∈ text) :
    PtonSpec (ptonOf text a) := by
  constructor
  · intro s b hs
    by_cases heq : s = text
    · rwa [heq]
    · rw [ptonOf, if_neg heq] at hs
      exact absurd hs nofun
  · intro b₁ b₂ b₃ b₄
    refine if_neg ?_
    rintro rfl
    rcases mem_dottedText hcolon with hdigit | hdot
    · exact absurd hdigit (by decide)
    · exact absurd hdot (by decide)

/-- An entry of a new list. -/
def zeroCidr : IpAddrCidr := ⟨⟨0⟩, ⟨0⟩⟩

/-- `fd00::/8` is read. -/
theorem parsesNetwork_uniqueLocal :
    ParsesNetwork (ptonOf ['f', 'd', '0', '0', ':', ':'] ⟨0xfd⟩)
      ⟨.v6 ['f', 'd', '0', '0', ':', ':'], some 8⟩ zeroCidr :=
  (parsesNetwork_iff (ptonSpec_ptonOf (by decide) (by decide))
    ⟨by decide, fun n hn => Option.some.inj hn ▸ by decide⟩ _).2 ⟨by decide, by decide⟩

/-- `10.0.0.0/8` becomes the network `::/8`, which contains `::1`. -/
theorem parsesNetwork_fails :
    (NetworkText.mk (.v4 10 0 0 0) (some 8)).WellFormed (ptonOf [':', ':'] ⟨0⟩) ∧
    ipAddrCidrFromStr (ptonOf [':', ':'] ⟨0⟩)
      ['1', '0', '.', '0', '.', '0', '.', '0', '/', '8'] zeroCidr = .ret true ⟨⟨0xff⟩, ⟨0⟩⟩ ∧
    ¬ ParsesNetwork (ptonOf [':', ':'] ⟨0⟩) ⟨.v4 10 0 0 0, some 8⟩ zeroCidr := by
  have hcall : ipAddrCidrFromStr (ptonOf [':', ':'] ⟨0⟩)
      ['1', '0', '.', '0', '.', '0', '.', '0', '/', '8'] zeroCidr = .ret true ⟨⟨0xff⟩, ⟨0⟩⟩ := by
    decide +kernel
  refine ⟨⟨by decide, fun n hn => Option.some.inj hn ▸ by decide⟩, hcall, ?_⟩
  rintro ⟨c, hret, a, ha, hnet⟩
  obtain rfl : IpAddr.v4Mapped 10 0 0 0 = a := Option.some.inj ha
  obtain rfl := (CidrOutcome.ret.inj (hcall.symm.trans hret)).2
  -- bit 80 is the first of the mapped ones
  have hbit := (hnet ⟨1 <<< 120⟩).1 (by decide) 80 (by decide)
  exact absurd hbit (by decide)

end Parse

end UdpEthTunnel
