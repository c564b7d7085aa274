/-
# Two tunnels with different buffers

A frame that one tunnel reads from its tap device and sends is received by another
into a buffer of `2 * mtu` bytes, by its own `mtu`; what does not fit is discarded by
`recvfrom`, and the rest is written to the tap device like any frame.  The check
against `max_packet_size` only logs.

So a frame arrives as it was sent, if at all, exactly when it fits the buffer of the
receiver (`uncorrupted_iff`).
-/

import UdpEthTunnel.Tunnel.Heap
import UdpEthTunnel.Tunnel.Trace

namespace UdpEthTunnel

open Tunnel Runs

/-- A run of the workers of a tunnel configured with the given mtu. -/
structure TunnelRun (mtu : ℕ) where
  env : CreateEnv HeapEnv
  params : TunnelParams
  mtu_eq : params.mtu = mtu
  first : Sys MapHeap
  created : tunnelCreate heapOps env params = .created first
  trace : Trace MapHeap HeapEnv
  last : Sys MapHeap
  run : Run (Step heapOps) first trace last

/-- A worker reads the frame whole from a tap device, and one sends it. -/
def TunnelRun.Sends {mtu : ℕ} (A : TunnelRun mtu) (frame : Bytes) : Prop :=
  (∃ w id fd, ∃ e ∈ A.trace, e.act = (w, .read id fd (some frame))) ∧
    ∃ w dst r now, ∃ e ∈ A.trace, e.act = (w, .sendto frame dst r now)

/-- **No corrupted frame arrives.**  Whenever a tunnel with the mtu `a` sends the frame
and a tunnel with the mtu `b` receives it, what the latter writes for it is the
frame. -/
def Uncorrupted (a b : ℕ) (frame : Bytes) : Prop :=
  ∀ (A : TunnelRun a) (B : TunnelRun b), A.Sends frame → ∀ tr₁ tr₂ u v w fd bytes r now d,
    B.trace = tr₁ ++ ⟨u, (w, .write fd bytes r now), v⟩ :: tr₂ →
      (received w tr₁).getLast? = some d → d.payload = frame → bytes = frame

section Truncation

variable {mtu a b : ℕ} {frame : Bytes}

/-- The run of a tunnel goes on by a step. -/
def TunnelRun.snoc (A : TunnelRun mtu) (wa : ℕ × Action HeapEnv) (s : Sys MapHeap)
    (h : Step heapOps A.last wa s) : TunnelRun mtu :=
  { A with trace := A.trace ++ [⟨A.last, wa, s⟩], last := s, run := A.run.snoc h }

/-- The buffer of the workers is by the configured mtu. -/
theorem TunnelRun.mtu_first (A : TunnelRun mtu) (hmtu : 0 < mtu) : A.first.tunnel.mtu = mtu := by
  rw [mtu_of_created A.created, A.mtu_eq, if_pos (by omega), Int.toNat_natCast]

/-- A frame that fits the buffer of the receiver is written as it was sent. -/
theorem uncorrupted_of_fits (hb : 0 < b) (hfit : frame.length ≤ 2 * b) : Uncorrupted a b frame := by
  intro A B _ tr₁ tr₂ u v w fd bytes r now d htr hlast hd
  have hidle : ∀ w, (B.first.workers w).pc = .start := fun w => by
    rw [(tunnelCreate_created B.created).1]
  have hrun := B.run
  rw [htr] at hrun
  obtain ⟨d', hlast', -, hbytes, -⟩ := write_carries hidle (size_of_created B.created) hrun
  obtain rfl : d = d' := Option.some.inj (hlast.symm.trans hlast')
  rw [hbytes, hd, B.mtu_first hb]
  exact List.take_of_length_le hfit

/-- The only peer of a tunnel, with its device. -/
def onlyPeer : Endpoint := ⟨.v4Mapped 10 10 10 1, htons 1234⟩

/-- The configuration of a tunnel to one peer. -/
def peerParams (mtu : ℕ) : TunnelParams :=
  { numQueues := 1, defaultRemoteHost := some "peer".toList, defaultRemotePort := 1234, mtu := mtu,
    bindIface := some "eth0".toList, tunnelName := some "tunnel".toList }

/-- A run of a tunnel to one peer whose worker has just woken up for an event. -/
structure Woken {mtu : ℕ} (A : TunnelRun mtu) (tev : TunnelEpollEvent) : Prop where
  crash : A.last.crash = none
  numQueues : A.last.tunnel.numQueues = 1
  mtu : A.last.tunnel.mtu = A.first.tunnel.mtu
  pc : (A.last.workers 0).pc = nextEvent [tev]
  remote : A.last.tunnel.remote 0 = some onlyPeer
  tapFd : A.last.tunnel.tapFd 0 (A.last.workers 0).queueId = some 30
  lookup : heapOps.lookup (heapEnv .failed) A.last.tunnel.map onlyPeer = .ret 0

theorem exists_woken (mtu : ℕ) (tev : TunnelEpollEvent)
    (htev : tev = (tapRegistration 0 30).data ∨ tev = (udpRegistration 10).data) :
    ∃ A : TunnelRun mtu, Woken A tev := by
  have hport : (peerParams mtu).remotePort = htons 1234 := by
    show htons (.ofInt 16 1234) = _
    decide
  have hwoken : ∃ s₀, tunnelCreate heapOps (openEnv (heapEnv .failed)) (peerParams mtu) = .created s₀ ∧
      ∃ s, replay heapOps s₀ 0 [.start, .epollWait (some [tev]), .rdlock] = some s ∧
        s.crash = none ∧ s.tunnel.numQueues = 1 ∧ s.tunnel.mtu = s₀.tunnel.mtu ∧
        (s.workers 0).pc = nextEvent [tev] ∧ s.tunnel.remote 0 = some onlyPeer ∧
        s.tunnel.tapFd 0 (s.workers 0).queueId = some 30 ∧
        heapOps.lookup (heapEnv .failed) s.tunnel.map onlyPeer = .ret 0 := by
    unfold tunnelCreate createDefaultTap
    rw [hport]
    refine ⟨_, rfl, ?_⟩
    rcases htev with rfl | rfl <;> exact ⟨_, rfl, rfl, rfl, rfl, rfl, rfl, rfl, rfl⟩
  obtain ⟨s₀, hcreate, s, hs, h₁, h₂, h₃, h₄, h₅, h₆, h₇⟩ := hwoken
  obtain ⟨tr, hrun, -⟩ := run_of_exec hs
  exact ⟨⟨_, _, rfl, s₀, hcreate, tr, s, hrun⟩, h₁, h₂, h₃, h₄, h₅, h₆, h₇⟩

/-- A tunnel can read and send any frame that fits its buffer. -/
theorem exists_sends (ha : 0 < a) (hwhole : frame.length ≤ 2 * a) :
    ∃ A : TunnelRun a, A.Sends frame := by
  obtain ⟨A, hA⟩ := exists_woken a _ (.inl rfl)
  have hcut : frame.take (2 * A.last.tunnel.mtu) = frame := by
    rw [hA.mtu, A.mtu_first ha]
    exact List.take_of_length_le hwhole
  have hw : 0 < A.last.tunnel.numQueues := by
    rw [hA.numQueues]
    exact Nat.one_pos
  have hread : Step heapOps A.last _ _ := step_read hA.crash hw hA.pc hA.tapFd frame
  rw [hcut] at hread
  have hsend : Step heapOps _ (0, _) _ :=
    step_sendto (s := A.last.goto 0 (.handle (tapRegistration 0 30).data [] (.tapSend frame)))
      hA.crash hw (Sys.pc_goto ..) hA.remote none 0
  refine ⟨(A.snoc _ _ hread).snoc _ _ hsend, ⟨0, (tapRegistration 0 30).data.tapId.toInt, 30, ?_⟩,
    0, onlyPeer, none, 0, ?_⟩
  · exact ⟨_, List.mem_append_left _ (List.mem_append_right _ List.mem_cons_self), rfl⟩
  · exact ⟨_, List.mem_append_right _ List.mem_cons_self, rfl⟩

/-- A tunnel can receive any datagram from its peer, and writes what fits its buffer. -/
theorem exists_writes (hb : 0 < b) (frame : Bytes) :
    ∃ (B : TunnelRun b) (tr : Trace MapHeap HeapEnv) (u v : Sys MapHeap),
      B.trace = tr ++ [⟨u, (0, .write 30 (frame.take (2 * b)) none 0), v⟩] ∧
        (received 0 tr).getLast? = some ⟨true, onlyPeer, frame⟩ := by
  obtain ⟨B, hB⟩ := exists_woken b _ (.inr rfl)
  have hmtu : B.last.tunnel.mtu = b := hB.mtu.trans (B.mtu_first hb)
  have hw : 0 < B.last.tunnel.numQueues := by
    rw [hB.numQueues]
    exact Nat.one_pos
  have hcut : afterRecv B.last.tunnel.mtu (some ⟨true, onlyPeer, frame⟩) =
      .lookup ⟨true, onlyPeer, frame.take (2 * b)⟩ := by
    rw [hmtu]
    rfl
  have hrecv : Step heapOps B.last _ _ :=
    step_recvfrom hB.crash hw hB.pc (some ⟨true, onlyPeer, frame⟩)
  rw [hcut] at hrecv
  have hlookup : Step heapOps _ (0, _) _ :=
    step_lookup (s := B.last.goto 0 (.handle (udpRegistration 10).data []
      (.lookup ⟨true, onlyPeer, frame.take (2 * b)⟩))) hB.crash hw (Sys.pc_goto ..) hB.lookup
  have hwrite : Step heapOps _ (0, .write 30 _ none 0) _ :=
    step_write (s := (B.last.goto 0 (.handle (udpRegistration 10).data []
      (.lookup ⟨true, onlyPeer, frame.take (2 * b)⟩))).goto 0 (.handle (udpRegistration 10).data []
        (.write 0 ⟨true, onlyPeer, frame.take (2 * b)⟩))) hB.crash hw (Sys.pc_goto ..) hB.tapFd none 0
  refine ⟨((B.snoc _ _ hrecv).snoc _ _ hlookup).snoc _ _ hwrite, _, _, _, rfl, ?_⟩
  show (byWorker 0 Action.received (B.trace ++ [_] ++ [_])).getLast? = _
  rw [byWorker_snoc, byWorker_snoc]
  simp [Action.received]

/-- A frame that does not fit the buffer of the receiver may arrive cut. -/
theorem not_uncorrupted (ha : 0 < a) (hb : 0 < b) (hwhole : frame.length ≤ 2 * a)
    (hlong : 2 * b < frame.length) : ¬ Uncorrupted a b frame := by
  intro h
  obtain ⟨A, hA⟩ := exists_sends ha hwhole
  obtain ⟨B, tr, u, v, htr, hlast⟩ := exists_writes hb frame
  have hcut : frame.take (2 * b) = frame :=
    h A B hA tr [] u v 0 30 _ none 0 ⟨true, onlyPeer, frame⟩ htr hlast rfl
  have hlen := congrArg List.length hcut
  rw [List.length_take] at hlen
  omega

end Truncation

/-- **Frames arrive as they were sent exactly when they fit the buffer of the
receiver**, for any positive mtus of two tunnels and any frame that fits the buffer of
the sender.  `recvfrom` gets `2 * t->mtu` bytes and discards the rest of a longer
datagram; `worker_thread` cannot tell, and writes what it got. -/
theorem uncorrupted_iff (a b : ℕ) (frame : Bytes) (ha : 0 < a) (hb : 0 < b)
    (hwhole : frame.length ≤ 2 * a) : Uncorrupted a b frame ↔ frame.length ≤ 2 * b := by
  constructor
  · intro h
    by_contra hlong
    exact not_uncorrupted ha hb hwhole (Nat.lt_of_not_le hlong) h
  · exact uncorrupted_of_fits hb

/-- With equal mtus a frame of full size arrives as it was sent. -/
theorem uncorrupted_iff_equalMtus : Uncorrupted 1500 1500 (List.replicate 1514 0) :=
  (uncorrupted_iff 1500 1500 (List.replicate 1514 0) (by decide) (by decide)
    (by rw [List.length_replicate]; decide)).2 (by rw [List.length_replicate]; decide)

/-- **A frame of 1514 bytes arrives cut** at a tunnel with an mtu of 576. -/
theorem corrupts_cut : ¬ ∀ (a b : ℕ) (frame : Bytes), 0 < a → 0 < b → frame.length ≤ 2 * a →
    Uncorrupted a b frame := by
  intro h
  have hlen : (List.replicate 1514 (0 : U8)).length = 1514 := List.length_replicate
  have hwhole : (List.replicate 1514 (0 : U8)).length ≤ 2 * 1500 := by omega
  have hlong : 2 * 576 < (List.replicate 1514 (0 : U8)).length := by omega
  exact not_uncorrupted (by decide) (by decide) hwhole hlong
    (h 1500 576 _ (by decide) (by decide) hwhole)

end UdpEthTunnel
