/-
# Sockets

`net_create_udp_sock_fds` of `src/net.c`: one UDP socket for each queue, all bound to
the address of the interface and to the configured port.  They can share the port
because each is given `SO_REUSEPORT`; but where the port is 0 every call of `bind`
picks a port of its own.

The calls into the kernel are arguments (`SockEnv`).  The `ioctl` that asks for the
address of the interface answers with IPv4 addresses only.
-/

import Mathlib.Data.List.Forall2
import Mathlib.Data.Option.Basic
import UdpEthTunnel.IpAddr

namespace UdpEthTunnel

/-- A bound socket: its descriptor, and where the datagrams it sends come from. -/
structure UdpSocket where
  fd : ℕ
  name : Endpoint
deriving DecidableEq, Repr

/-- What the kernel does during a call of `net_create_udp_sock_fds`. -/
structure SockEnv where
  /-- `ioctl(SIOCGIFADDR)` -/
  ifAddr : Option (U8 × U8 × U8 × U8)
  /-- `ioctl(SIOCGIFMTU)` -/
  ifMtu : Bool
  socket : ℕ → Option ℕ
  /-- `setsockopt(SO_REUSEPORT)` -/
  reusePort : ℕ → Bool
  /-- `bind`: it fails, or the socket gets the port it asks for; this one if that is 0 -/
  bind : ℕ → Option U16

/-- A round of the loop of `net_create_udp_sock_fds`. -/
def bindUdpSocket (env : SockEnv) (addr : IpAddr) (port : U16) (i : ℕ) : Option UdpSocket := do
  let fd ← env.socket i
  guard (env.reusePort i)
  let free ← env.bind i
  pure { fd := fd, name := ⟨addr, if port = 0 then free else port⟩ }

/-- `net_create_udp_sock_fds`. -/
def netCreateUdpSockFds (env : SockEnv) (bindPort : Int) (numQueues : ℕ) :
    Option (List UdpSocket) := do
  let (a, b, c, d) ← env.ifAddr
  guard env.ifMtu
  (List.range numQueues).mapM (bindUdpSocket env (.v4Mapped a b c d) (htons (.ofInt 16 bindPort)))

/-- The sockets have one name. -/
def OneName (socks : List UdpSocket) : Prop := ∀ x ∈ socks, ∀ y ∈ socks, x.name = y.name

section Net

variable {env : SockEnv} {addr : IpAddr} {port : U16} {i numQueues : ℕ} {x : UdpSocket}
  {socks : List UdpSocket} {bindPort : Int}

theorem bindUdpSocket_eq_some (h : bindUdpSocket env addr port i = some x) :
    ∃ free, env.bind i = some free ∧ x.name = ⟨addr, if port = 0 then free else port⟩ := by
  unfold bindUdpSocket at h
  simp only [Option.bind_eq_bind, Option.bind_eq_some_iff, Option.pure_def, Option.some.injEq] at h
  obtain ⟨fd, -, -, -, free, hfree, rfl⟩ := h
  exact ⟨free, hfree, rfl⟩

/-- What `net_create_udp_sock_fds` returns: a socket for each queue, bound in turn. -/
theorem netCreateUdpSockFds_eq_some (h : netCreateUdpSockFds env bindPort numQueues = some socks) :
    ∃ addr, (List.range numQueues).mapM (bindUdpSocket env addr (htons (.ofInt 16 bindPort))) =
      some socks := by
  unfold netCreateUdpSockFds at h
  simp only [Option.bind_eq_bind, Option.bind_eq_some_iff] at h
  obtain ⟨⟨a, b, c, d⟩, -, _, -, h⟩ := h
  exact ⟨_, h⟩

/-- What a loop returns, round by round. -/
theorem forall₂_of_mapM {α β : Type} {f : α → Option β} {xs : List α} {ys : List β}
    (h : xs.mapM f = some ys) : List.Forall₂ (fun x y => f x = some y) xs ys := by
  induction xs generalizing ys with
  | nil =>
    obtain rfl := Option.some.inj h
    exact .nil
  | cons x xs ih =>
    rw [List.mapM_cons] at h
    simp only [Option.bind_eq_bind, Option.bind_eq_some_iff, Option.pure_def,
      Option.some.injEq] at h
    obtain ⟨y, hy, ys', hys, rfl⟩ := h
    exact .cons hy (ih hys)

theorem length_socks (h : netCreateUdpSockFds env bindPort numQueues = some socks) :
    socks.length = numQueues := by
  obtain ⟨addr, hloop⟩ := netCreateUdpSockFds_eq_some h
  rw [← (forall₂_of_mapM hloop).length_eq, List.length_range]

/-- Sockets bound to a given port have one name. -/
theorem oneName_of_port (h : netCreateUdpSockFds env bindPort numQueues = some socks)
    (hport : ¬ (65536 : Int) ∣ bindPort) : OneName socks := by
  obtain ⟨addr, hloop⟩ := netCreateUdpSockFds_eq_some h
  have hne : htons (.ofInt 16 bindPort) ≠ 0 := fun h0 => hport ((htons_ofInt_eq_zero_iff _).1 h0)
  have hname : ∀ x ∈ socks, x.name = ⟨addr, htons (.ofInt 16 bindPort)⟩ := by
    intro x hx
    obtain ⟨i, hi, rfl⟩ := List.getElem_of_mem hx
    have hall := forall₂_of_mapM hloop
    have hbind := hall.get (hall.length_eq ▸ hi) hi
    obtain ⟨free, -, hname⟩ := bindUdpSocket_eq_some hbind
    rw [List.get_eq_getElem] at hname
    rw [hname, if_neg hne]
  intro x hx y hy
  rw [hname x hx, hname y hy]

/-- A kernel whose `i`-th socket gets the port `i + 1`. -/
def countingPorts : SockEnv :=
  { ifAddr := some (10, 10, 10, 2), ifMtu := true, socket := fun i => some (10 + i),
    reusePort := fun _ => true, bind := fun i => some (htons (.ofNat 16 (i + 1))) }

/-- **The sockets of a tunnel have one name, whatever ports the kernel picks, if and
only if a port is configured or there is one queue at most.** -/
theorem oneName_iff (bindPort : Int) (numQueues : ℕ) :
    (∀ env socks, netCreateUdpSockFds env bindPort numQueues = some socks → OneName socks) ↔
      ¬ (65536 : Int) ∣ bindPort ∨ numQueues ≤ 1 := by
  constructor
  · intro h
    by_contra hcon
    rw [not_or, not_not] at hcon
    obtain ⟨hport, hqueues⟩ := hcon
    have hzero := (htons_ofInt_eq_zero_iff bindPort).2 hport
    let name (i : ℕ) : UdpSocket :=
      ⟨10 + i, ⟨.v4Mapped 10 10 10 2, htons (.ofNat 16 (i + 1))⟩⟩
    have hsocks : netCreateUdpSockFds countingPorts bindPort numQueues =
        some ((List.range numQueues).map name) := by
      show (List.range numQueues).mapM
        (bindUdpSocket countingPorts _ (htons (.ofInt 16 bindPort))) = _
      rw [hzero]
      exact List.mapM_pure
    have hmem : ∀ i < numQueues, name i ∈ (List.range numQueues).map name := fun i hi =>
      List.mem_map_of_mem (List.mem_range.2 hi)
    have heq := h _ _ hsocks (name 0) (hmem 0 (by omega)) (name 1) (hmem 1 (by omega))
    exact absurd (congrArg Endpoint.port heq) (by decide)
  · rintro (hport | hqueues) env socks hsocks
    · exact oneName_of_port hsocks hport
    · have hlen := length_socks hsocks
      intro x hx y hy
      obtain ⟨i, hi, rfl⟩ := List.getElem_of_mem hx
      obtain ⟨j, hj, rfl⟩ := List.getElem_of_mem hy
      obtain rfl : i = j := by omega
      rfl

end Net

end UdpEthTunnel
