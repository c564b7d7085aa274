/-
# Allow lists as text

`ip_addr_cidr_list_create_from_str` of `src/ip_addr.c` cuts a text at its commas and hands
the items to `ip_addr_cidr_from_str` one after another.

A shift by 128 bits is undefined, and so is what the program does after it.  What it does
when it goes on is kept beside the fact that it happened (`CidrListOutcome.badShift`): the
item gets some entry, and the loop takes the next one.
-/

import UdpEthTunnel.Address.Network

namespace UdpEthTunnel

/-- What the C library does during a call of `ip_addr_cidr_list_create_from_str`. -/
structure CidrListEnv where
  malloc : Bool
  strdup : Bool
  /-- the entry of an item whose shift is undefined, if the program goes on -/
  shifted : CStr → IpAddrCidr

/-- How such a call ends. -/
inductive CidrListOutcome where
  /-- returns `NULL` -/
  | null
  /-- an item does not fit the copy that `ip_addr_cidr_from_str` makes of it -/
  | overflow
  /-- a shift of a `u128` by 128 bits, which is undefined; a program that goes on ends as
  `rest` -/
  | badShift (rest : CidrListOutcome)
  /-- `strtok` is called before it has been given a string -/
  | badStrtok
  | list (l : IpAddrCidrList)
deriving DecidableEq, Repr

namespace CidrListOutcome

/-- What the caller gets; `undefined` is what a call has returned that has overrun its copy,
or has called `strtok` without a string. -/
def ret (undefined : Option IpAddrCidrList) : CidrListOutcome → Option IpAddrCidrList
  | null => none
  | overflow | badStrtok => undefined
  | badShift rest => rest.ret undefined
  | list l => some l

/-- Some item overruns its copy, in a program that goes on after undefined shifts. -/
def overflows : CidrListOutcome → Bool
  | overflow => true
  | badShift rest => rest.overflows
  | _ => false

end CidrListOutcome

/-- The tokens that `strtok(…, ",")` cuts from a text: its non-empty pieces. -/
def items (s : CStr) : List CStr := (s.splitOn ',').filter fun t => !t.isEmpty

/-- The loop over the tokens; `i` is where the next entry goes. -/
def cidrListLoop (env : CidrListEnv) (pton : Pton) (entries : List IpAddrCidr) (i : ℕ) :
    List CStr → CidrListOutcome
  | [] => .list ⟨entries⟩
  | token :: rest =>
    match ipAddrCidrFromStr pton token (entries.getD i zeroCidr) with
    | .overflow => .overflow
    | .badShift =>
      .badShift (cidrListLoop env pton (entries.set i (env.shifted token)) (i + 1) rest)
    | .ret false _ => .null
    | .ret true c => cidrListLoop env pton (entries.set i c) (i + 1) rest

/-- `ip_addr_cidr_list_create_from_str`. -/
def ipAddrCidrListCreateFromStr (env : CidrListEnv) (pton : Pton) (s : CStr) : CidrListOutcome :=
  -- commas + 1
  let count := s.count ',' + 1
  if env.malloc then
    if env.strdup then cidrListLoop env pton (List.replicate count zeroCidr) 0 (items s)
    else .badStrtok
  else .null

/-! ### A list to try things on -/

/-- A call that gets its memory. -/
def plentyEnv : CidrListEnv := { malloc := true, strdup := true, shifted := fun _ => zeroCidr }

/-- The hosts 10.10.10.0 to 10.10.10.255, as their addresses arrive. -/
def hostsText : CStr := "::ffff:10.10.10.0/120".toList

/-- An `inet_pton` that knows the address of that text. -/
def hostsPton : Pton := ptonOf "::ffff:10.10.10.0".toList (.v4Mapped 10 10 10 0)

example : ipAddrCidrListCreateFromStr plentyEnv hostsPton hostsText =
    .list ⟨[⟨networkOrder ⟨BitVec.allOnes 128 <<< 8⟩, .v4Mapped 10 10 10 0⟩]⟩ := by decide +kernel

end UdpEthTunnel
