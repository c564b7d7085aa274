/-
# Addresses as text

`ip_addr_from_str` and `ip_addr_cidr_from_str` of `src/ip_addr.c`.  The mask of a
prefix length is made by a shift of a `u128` and then turned into network order: each
half is byte-swapped and the halves change places.

`inet_pton(AF_INET6, …)` is a parameter: the bytes of a valid IPv6 text, `none` for the
answer 0.  It never answers -1 for that family.
-/

import UdpEthTunnel.CString
import UdpEthTunnel.IpAddr

namespace UdpEthTunnel

/-- What `inet_pton(AF_INET6, …)` makes of a text. -/
abbrev Pton := CStr → Option IpAddr

/-- `inet_pton`: its answer, and the output it leaves. -/
def inetPton (pton : Pton) (str : CStr) (out : IpAddr) : Int × IpAddr :=
  match pton str with
  | some a => (1, a)
  | none => (0, out)

/-- `ip_addr_from_str`; only a negative answer of `inet_pton` is a failure. -/
def ipAddrFromStr (pton : Pton) (str : CStr) (out : IpAddr) : Bool × IpAddr :=
  let (r, out) := inetPton pton str out
  if r < 0 then (false, out) else (true, out)

namespace IpAddr

/-- `high_qword`, the first eight bytes. -/
def highQword (a : IpAddr) : U64 := a.addr.extractLsb' 0 64

/-- `low_qword`, the last eight bytes. -/
def lowQword (a : IpAddr) : U64 := a.addr.extractLsb' 64 64

def ofQwords (high low : U64) : IpAddr := ⟨low ++ high⟩

end IpAddr

/-- `htobe64` on a little-endian machine. -/
def htobe64 (x : U64) : U64 :=
  x.extractLsb' 0 8 ++ x.extractLsb' 8 8 ++ x.extractLsb' 16 8 ++ x.extractLsb' 24 8 ++
    x.extractLsb' 32 8 ++ x.extractLsb' 40 8 ++ x.extractLsb' 48 8 ++ x.extractLsb' 56 8

/-- The mask in network order. -/
def networkOrder (mask : IpAddr) : IpAddr :=
  -- the words are swapped, then exchanged
  .ofQwords (htobe64 mask.lowQword) (htobe64 mask.highQword)

/-- `INET6_ADDRSTRLEN`, the size of the copy that is cut at the slash. -/
def inet6AddrStrLen : ℕ := 46

/-- How a call of `ip_addr_cidr_from_str` ends. -/
inductive CidrOutcome where
  /-- the copy of the text does not fit its array -/
  | overflow
  /-- a shift of a `u128` by 128 bits, which is undefined -/
  | badShift
  | ret (ok : Bool) (c : IpAddrCidr)
deriving DecidableEq, Repr

/-- The part of `ip_addr_cidr_from_str` after the mask has been made. -/
def cidrWithMask (pton : Pton) (tmp : CStr) (mask : U128) (out : IpAddrCidr) : CidrOutcome :=
  let (ok, addr) := ipAddrFromStr pton tmp out.addr
  .ret ok { mask := networkOrder ⟨mask⟩, addr := addr }

/-- `ip_addr_cidr_from_str`. -/
def ipAddrCidrFromStr (pton : Pton) (str : CStr) (out : IpAddrCidr) : CidrOutcome :=
  if inet6AddrStrLen < str.length + 1 then .overflow
  else
    match strchr str '/' with
    | none => cidrWithMask pton str (BitVec.allOnes 128) out
    | some slash =>
      let prefixLen := atoi (str.drop (slash + 1))
      if prefixLen < 0 ∨ prefixLen > 128 then .ret false out
      else if prefixLen = 0 then .badShift
      else cidrWithMask pton (str.take slash) (BitVec.allOnes 128 <<< (128 - prefixLen).toNat) out

/-! ### Bits in network order -/

/-- Where bit `j` of an address stands in its `u128`, counted in network order: from
the highest bit of the first byte. -/
def netIndex (j : ℕ) : ℕ := 8 * (j / 8) + (7 - j % 8)

/-- Bit `j` of an address, in network order. -/
def IpAddr.netBit (a : IpAddr) (j : ℕ) : Bool := a.addr.getLsbD (netIndex j)

theorem netIndex_lt {j : ℕ} (hj : j < 128) : netIndex j < 128 := by
  unfold netIndex
  omega

theorem netIndex_netIndex (j : ℕ) : netIndex (netIndex j) = j := by
  unfold netIndex
  omega

theorem getLsbD_append_low {n b : ℕ} (y : BitVec n) (z : U8) (hb : b < 8) :
    (y ++ z).getLsbD b = z.getLsbD b := by
  rw [BitVec.getLsbD_append, if_pos hb]

theorem getLsbD_append_high {n : ℕ} (y : BitVec n) (z : U8) (k : ℕ) :
    (y ++ z).getLsbD (k + 8) = y.getLsbD k := by
  rw [BitVec.getLsbD_append, if_neg (by omega), Nat.add_sub_cancel]

/-- The bytes of a word change places. -/
theorem getLsbD_htobe64 (x : U64) {i b : ℕ} (hi : i < 8) (hb : b < 8) :
    (htobe64 x).getLsbD (b + 8 * i) = x.getLsbD (8 * (7 - i) + b) := by
  have hbyte : ∀ k, (x.extractLsb' k 8).getLsbD b = x.getLsbD (k + b) := fun k => by
    rw [BitVec.getLsbD_extractLsb', decide_eq_true hb, Bool.true_and]
  have hlow : ∀ {n} (y : BitVec n) k, (y ++ x.extractLsb' k 8).getLsbD b = x.getLsbD (k + b) :=
    fun y k => by rw [getLsbD_append_low _ _ hb, hbyte]
  -- one byte for each of the words that are appended
  have hhigh : ∀ {n} (y : BitVec n) (z : U8) i,
      (y ++ z).getLsbD (b + 8 * (i + 1)) = y.getLsbD (b + 8 * i) := fun y z i => by
    rw [show b + 8 * (i + 1) = b + 8 * i + 8 by omega, getLsbD_append_high]
  unfold htobe64
  match i with
  | 0 => exact hlow _ _
  | 1 => exact (hhigh _ _ 0).trans (hlow _ _)
  | 2 => rw [hhigh _ _ 1, hhigh _ _ 0]; exact hlow _ _
  | 3 => rw [hhigh _ _ 2, hhigh _ _ 1, hhigh _ _ 0]; exact hlow _ _
  | 4 => rw [hhigh _ _ 3, hhigh _ _ 2, hhigh _ _ 1, hhigh _ _ 0]; exact hlow _ _
  | 5 => rw [hhigh _ _ 4, hhigh _ _ 3, hhigh _ _ 2, hhigh _ _ 1, hhigh _ _ 0]; exact hlow _ _
  | 6 =>
    rw [hhigh _ _ 5, hhigh _ _ 4, hhigh _ _ 3, hhigh _ _ 2, hhigh _ _ 1, hhigh _ _ 0]
    exact hlow _ _
  | 7 =>
    rw [hhigh _ _ 6, hhigh _ _ 5, hhigh _ _ 4, hhigh _ _ 3, hhigh _ _ 2, hhigh _ _ 1, hhigh _ _ 0]
    exact hbyte 0

/-- **Network order**: bit `j` of the mask, in network order, is bit `127 - j` of the
number. -/
theorem netBit_networkOrder (m : U128) {j : ℕ} (hj : j < 128) :
    (networkOrder ⟨m⟩).netBit j = m.getLsbD (127 - j) := by
  have hb : 7 - j % 8 < 8 := by omega
  show ((htobe64 (m.extractLsb' 0 64)) ++ htobe64 (m.extractLsb' 64 64)).getLsbD (netIndex j) = _
  rw [BitVec.getLsbD_append]
  unfold netIndex
  split_ifs with hlt
  · have hi : j / 8 < 8 := by omega
    rw [Nat.add_comm, getLsbD_htobe64 _ hi hb, BitVec.getLsbD_extractLsb', decide_eq_true (by omega),
      Bool.true_and]
    congr 1
    omega
  · obtain ⟨i, hi⟩ : ∃ i, j / 8 = i + 8 := ⟨j / 8 - 8, by omega⟩
    have hi8 : i < 8 := by omega
    have hsub : 8 * (j / 8) + (7 - j % 8) - 64 = 7 - j % 8 + 8 * i := by omega
    rw [hsub, getLsbD_htobe64 _ hi8 hb, BitVec.getLsbD_extractLsb', decide_eq_true (by omega),
      Bool.true_and]
    congr 1
    omega

/-- The mask of a prefix length covers the first bits. -/
theorem netBit_mask {n j : ℕ} (hj : j < 128) (_hn : n ≤ 128) :
    (networkOrder ⟨BitVec.allOnes 128 <<< (128 - n)⟩).netBit j = decide (j < n) := by
  rw [netBit_networkOrder _ hj, BitVec.getLsbD_shiftLeft, BitVec.getLsbD_allOnes]
  rw [Bool.eq_iff_iff]
  simp
  omega

/-- Addresses are equal if their bits are. -/
theorem eq_of_netBit {a b : U128} (h : ∀ j < 128, a.getLsbD (netIndex j) = b.getLsbD (netIndex j)) :
    a = b := by
  refine BitVec.eq_of_getLsbD_eq fun k hk => ?_
  have := h (netIndex k) (netIndex_lt hk)
  rwa [netIndex_netIndex] at this

end UdpEthTunnel
