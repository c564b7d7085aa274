/-
# The address of a remote host

`net_lookup_remote_host` of `src/net.c`.

The body of its loop leaves the loop in every case.  A result that `inet_ntop` has no text
for moves the cursor on, but the body then goes on with the family of that result: nothing
is copied to `out_addr`, and the call succeeds.  So the first result alone decides, and the
call answers with the first address of the list only if that is where the address stands
(`findsFirst_iff`).

`inet_ntop` is a parameter: whether it has a text for the result.
-/

import UdpEthTunnel.IpAddr

namespace UdpEthTunnel

/-- `AF_INET`. -/
def afInet : Int := 2

/-- `AF_INET6`. -/
def afInet6 : Int := 10

/-- A result of `getaddrinfo`, with what `ai_addr` holds when it is read as a `sockaddr_in` and
as a `sockaddr_in6`. -/
structure AddrInfo where
  aiFamily : Int
  sinAddr : U8 × U8 × U8 × U8
  sin6Addr : IpAddr
deriving DecidableEq, Repr

/-- How a call of `net_lookup_remote_host` ends. -/
inductive LookupOutcome where
  /-- `ai_addr` is read behind the end of the list -/
  | pastEnd
  /-- the result, what is copied to `out_addr`, and how often `freeaddrinfo` is called -/
  | ret (success : Bool) (outAddr : Option IpAddr) (freed : ℕ)
deriving DecidableEq, Repr

/-- The body of the loop after `inet_ntop`, with the family `af` and the cursor at `aiNext`. -/
def lookupCopy (af : Int) (aiNext : List AddrInfo) : LookupOutcome :=
  if af = afInet then
    match aiNext with
    | [] => .pastEnd
    | x :: _ =>
      let (a, b, c, d) := x.sinAddr
      .ret true (some (.v4Mapped a b c d)) 1
  else if af = afInet6 then
    match aiNext with
    | [] => .pastEnd
    | x :: _ => .ret true (some x.sin6Addr) 1
  else .ret true none 1

/-- `net_lookup_remote_host`; `ai` is the list that `getaddrinfo` returns, `none` when it
fails. -/
def netLookupRemoteHost (ntop : AddrInfo → Bool) (ai : Option (List AddrInfo)) : LookupOutcome :=
  match ai with
  | none => .ret false none 0
  | some [] => .ret false none 1
  | some (x :: rest) => lookupCopy x.aiFamily (if ntop x then x :: rest else rest)

namespace AddrInfo

/-- The result holds an IPv4 or an IPv6 address. -/
def Usable (x : AddrInfo) : Prop := x.aiFamily = afInet ∨ x.aiFamily = afInet6

instance (x : AddrInfo) : Decidable x.Usable :=
  inferInstanceAs (Decidable (x.aiFamily = afInet ∨ x.aiFamily = afInet6))

/-- The address of a result, IPv4 addresses in their v4-mapped form. -/
def ipAddr (x : AddrInfo) : IpAddr :=
  if x.aiFamily = afInet then .v4Mapped x.sinAddr.1 x.sinAddr.2.1 x.sinAddr.2.2.1 x.sinAddr.2.2.2
  else x.sin6Addr

end AddrInfo

/-- The address of the first result that holds one. -/
def firstAddress (ai : List AddrInfo) : Option IpAddr :=
  (ai.find? fun x => decide x.Usable).map AddrInfo.ipAddr

/-- **The call finds the first address of the list**, does not leave the list and frees it
once. -/
structure FindsFirst (ntop : AddrInfo → Bool) (ai : List AddrInfo) : Prop where
  success_iff : (∃ out freed, netLookupRemoteHost ntop (some ai) = .ret true out freed) ↔
    ∃ x ∈ ai, x.Usable
  first : ∀ out freed, netLookupRemoteHost ntop (some ai) = .ret true out freed →
    ∃ addr, out = some addr ∧ firstAddress ai = some addr
  inList : netLookupRemoteHost ntop (some ai) ≠ .pastEnd
  freed_once : ∃ success out, netLookupRemoteHost ntop (some ai) = .ret success out 1

section Lookup

variable {ntop : AddrInfo → Bool} {ai rest : List AddrInfo} {x : AddrInfo}

/-- A result that holds an address is copied. -/
theorem lookup_usable (rest : List AddrInfo) (hntop : ntop x = true) (hx : x.Usable) :
    netLookupRemoteHost ntop (some (x :: rest)) = .ret true (some x.ipAddr) 1 := by
  show lookupCopy x.aiFamily (if ntop x then x :: rest else rest) = _
  rw [if_pos hntop]
  unfold lookupCopy AddrInfo.ipAddr
  rcases hx with h4 | h6
  · rw [if_pos h4, if_pos h4]
  · have h4 : x.aiFamily ≠ afInet := by rw [h6]; decide
    rw [if_neg h4, if_pos h6, if_neg h4]

/-- From a result of another family nothing is copied, wherever the cursor is. -/
theorem lookup_unusable (hx : ¬ x.Usable) :
    netLookupRemoteHost ntop (some (x :: rest)) = .ret true none 1 := by
  obtain ⟨h4, h6⟩ := not_or.1 hx
  unfold netLookupRemoteHost lookupCopy
  dsimp only
  rw [if_neg h4, if_neg h6]

/-- Where the first result holds an address, it is the first address. -/
theorem firstAddress_of_usable (hx : x.Usable) : firstAddress (x :: rest) = some x.ipAddr := by
  unfold firstAddress
  rw [List.find?_cons_of_pos (by simpa using hx)]
  rfl

/-- **When the first address of the list is found.**  Each turn of the loop of
`net_lookup_remote_host` leaves it, also one for a result that holds no address, and the call
then succeeds without one.  So it answers with the first address of the list where the list is
empty or its first result holds one. -/
theorem findsFirst_iff (ntop : AddrInfo → Bool) (ai : List AddrInfo)
    (hntop : ∀ x, ntop x = true ↔ x.aiFamily = afInet ∨ x.aiFamily = afInet6) :
    FindsFirst ntop ai ↔ ∀ x ∈ ai.head?, x.Usable := by
  cases ai with
  | nil =>
    refine iff_of_true ⟨?_, ?_, ?_, ⟨_, _, rfl⟩⟩ (by simp)
    · exact iff_of_false (by simp [netLookupRemoteHost]) (by simp)
    · simp [netLookupRemoteHost]
    · simp [netLookupRemoteHost]
  | cons x rest =>
    rw [List.head?_cons]
    by_cases hx : x.Usable
    · have hcall := lookup_usable rest ((hntop x).2 hx) hx
      refine iff_of_true ⟨?_, ?_, by simp [hcall], ⟨_, _, hcall⟩⟩ (by simpa using hx)
      · exact iff_of_true ⟨_, _, hcall⟩ ⟨x, List.mem_cons_self, hx⟩
      · intro out freed hret
        rw [hcall] at hret
        cases hret
        exact ⟨_, rfl, firstAddress_of_usable hx⟩
    · refine iff_of_false (fun h => ?_) (by simpa using hx)
      obtain ⟨addr, hnone, -⟩ := h.first _ _ (lookup_unusable hx)
      cases hnone

end Lookup

/-- A result of the family `AF_UNIX`. -/
def unixResult : AddrInfo := ⟨1, (0, 0, 0, 0), ⟨0⟩⟩

/-- An `inet_ntop` that has a text for the two families. -/
def ntopKnown (x : AddrInfo) : Bool := decide (x.aiFamily = afInet) || decide (x.aiFamily = afInet6)

/-- `10.0.0.1` before a result of another family is found. -/
theorem findsFirst_ipv4 : FindsFirst ntopKnown [⟨afInet, (10, 0, 0, 1), ⟨0⟩⟩, unixResult] :=
  (findsFirst_iff _ _ fun x => by simp [ntopKnown]).2 (by decide)

/-- After a result of another family it is not: the call succeeds and `out_addr` is unset.  So
it is when there is no address at all. -/
theorem findsFirst_fails :
    netLookupRemoteHost ntopKnown (some [unixResult, ⟨afInet, (10, 0, 0, 1), ⟨0⟩⟩]) =
        .ret true none 1 ∧
      ¬ FindsFirst ntopKnown [unixResult, ⟨afInet, (10, 0, 0, 1), ⟨0⟩⟩] ∧
      netLookupRemoteHost ntopKnown (some [unixResult]) = .ret true none 1 ∧
      ¬ FindsFirst ntopKnown [unixResult] := by
  refine ⟨rfl, fun h => ?_, rfl, fun h => ?_⟩
  · obtain ⟨addr, hnone, -⟩ := h.first none 1 rfl
    cases hnone
  · obtain ⟨addr, hnone, -⟩ := h.first none 1 rfl
    cases hnone

end UdpEthTunnel
