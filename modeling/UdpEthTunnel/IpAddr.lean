/-
# Addresses and allow lists

`src/ip_addr.h`, `src/ip_addr.c`.

An `ip_addr` is a union of one `u128`, four `u32`s and the sixteen bytes of an
IPv6 address in network order.  The model keeps the `u128`; the other views are
what a little-endian machine reads: byte `i` of the address is bits `8i` to
`8i + 7`, word `i` is bits `32i` to `32i + 31`.
-/

import Mathlib.Data.Nat.Notation

namespace UdpEthTunnel

abbrev U8 := BitVec 8
abbrev U16 := BitVec 16
abbrev U32 := BitVec 32
abbrev U64 := BitVec 64
abbrev U128 := BitVec 128

structure IpAddr where
  addr : U128
deriving DecidableEq, Repr, Inhabited

namespace IpAddr

/-- `dwords[i]`. -/
def dword (a : IpAddr) (i : ℕ) : U32 := a.addr.extractLsb' (32 * i) 32

/-- `((u8*)addr)[i]`, the `i`-th byte in network order. -/
def byte (a : IpAddr) (i : ℕ) : U8 := a.addr.extractLsb' (8 * i) 8

/-- The IPv4-mapped address `::ffff:a.b.c.d`. -/
def v4Mapped (a b c d : U8) : IpAddr := ⟨d ++ c ++ b ++ a ++ 0xffff#16 ++ 0#80⟩

end IpAddr

/-- `htons` on a little-endian machine. -/
def htons (port : U16) : U16 := port.extractLsb' 0 8 ++ port.extractLsb' 8 8

theorem htons_eq_zero_iff (port : U16) : htons port = 0 ↔ port = 0 := by
  constructor
  · intro h
    have hnat := congrArg BitVec.toNat h
    unfold htons at hnat
    rw [BitVec.toNat_append, BitVec.extractLsb'_toNat, BitVec.extractLsb'_toNat] at hnat
    have hor := Nat.or_eq_zero_iff.1 hnat
    rw [Nat.shiftLeft_eq, Nat.shiftRight_eq_div_pow, Nat.shiftRight_eq_div_pow] at hor
    have hlt := port.isLt
    refine BitVec.eq_of_toNat_eq ?_
    show port.toNat = 0
    omega
  · rintro rfl
    decide

/-- A configured port is 0 as a `u16` when it is a multiple of 65536. -/
theorem htons_ofInt_eq_zero_iff (n : Int) : htons (.ofInt 16 n) = 0 ↔ (65536 : Int) ∣ n := by
  rw [htons_eq_zero_iff, ← BitVec.toNat_inj, BitVec.toNat_ofInt]
  simp
  omega

/-- A remote address with a port, both as they stand in a `sockaddr_in6`: in
network byte order. -/
structure Endpoint where
  addr : IpAddr
  port : U16
deriving DecidableEq, Repr, Inhabited

structure IpAddrCidr where
  mask : IpAddr
  addr : IpAddr
deriving DecidableEq, Repr

/-- `ip_addr_cidr_match`: some bit of the address is in the mask. -/
def ipAddrCidrMatch (c : IpAddrCidr) (a : IpAddr) : Bool :=
  a.addr &&& c.mask.addr != 0

/-- `ip_addr_cidr_list`; `num_entries` is the length of the list. -/
structure IpAddrCidrList where
  entries : List IpAddrCidr
deriving DecidableEq, Repr

/-- `ip_addr_cidr_list_match`. -/
def ipAddrCidrListMatch (l : IpAddrCidrList) (a : IpAddr) : Bool :=
  l.entries.any fun c => ipAddrCidrMatch c a

end UdpEthTunnel
