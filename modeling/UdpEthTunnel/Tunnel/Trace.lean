/-
# What a worker has done

What can be seen of a worker from outside, read off a run: the datagrams it has
received, the frames it has written to tap devices, the frames it has read from
them and those it has sent.

A worker handles one datagram at a time.  The one it has in hand is the last it
has received, cut to the buffer (`inHand`), and a write carries that one
(`write_carries`).
-/

import UdpEthTunnel.Tunnel.Create

namespace UdpEthTunnel

open Tunnel Runs

/-- The steps of a run of the process. -/
abbrev Trace (M E : Type) := List (Event (Sys M) (ℕ × Action E))

section Observations

variable {M E α : Type}

/-- What the calls of worker `w` show, in order. -/
def byWorker (w : ℕ) (f : Action E → Option α) (tr : Trace M E) : List α :=
  tr.filterMap fun e => if e.act.1 = w then f e.act.2 else none

theorem byWorker_snoc (w : ℕ) (f : Action E → Option α) (tr : Trace M E)
    (e : Event (Sys M) (ℕ × Action E)) : byWorker w f (tr ++ [e]) =
      byWorker w f tr ++ if e.act.1 = w then (f e.act.2).toList else [] := by
  unfold byWorker
  rw [List.filterMap_append]
  split_ifs with hw
  · cases hf : f e.act.2 <;> simp [hw, hf]
  · simp [hw]

/-- What the calls of a replayed worker show. -/
theorem byWorker_of_acts {w : ℕ} {acts : List (Action E)} {tr : Trace M E}
    (h : tr.map (·.act) = acts.map (w, ·)) (f : Action E → Option α) :
    byWorker w f tr = acts.filterMap f := by
  have hmap : byWorker w f tr =
      (tr.map (·.act)).filterMap fun wa => if wa.1 = w then f wa.2 else none := by
    rw [List.filterMap_map]
    rfl
  rw [hmap, h, List.filterMap_map]
  exact List.filterMap_congr fun a _ => if_pos rfl

/-- The datagram a call returns. -/
def Action.received : Action E → Option Datagram
  | .recvfrom r => r
  | _ => none

/-- The descriptor and the bytes a call writes. -/
def Action.written : Action E → Option (Fd × Bytes)
  | .write fd bytes _ _ => some (fd, bytes)
  | _ => none

/-- The tap id and the frame of a successful `read`. -/
def Action.frame : Action E → Option (Int × Bytes)
  | .read id _ r => r.map (id, ·)
  | _ => none

/-- The frame a call sends, and where. -/
def Action.sent : Action E → Option (Bytes × Endpoint)
  | .sendto frame dst _ _ => some (frame, dst)
  | _ => none

/-- The datagrams worker `w` has received. -/
def received (w : ℕ) (tr : Trace M E) : List Datagram := byWorker w Action.received tr

/-- The writes worker `w` has issued. -/
def writes (w : ℕ) (tr : Trace M E) : List (Fd × Bytes) := byWorker w Action.written tr

/-- The frames worker `w` has read. -/
def reads (w : ℕ) (tr : Trace M E) : List (Int × Bytes) := byWorker w Action.frame tr

/-- The frames worker `w` has sent. -/
def sends (w : ℕ) (tr : Trace M E) : List (Bytes × Endpoint) := byWorker w Action.sent tr

end Observations

section Extends

variable {M E : Type} {ops : MapOps M E} {s s₀ : Sys M} {tr : Trace M E}

theorem extends_of_run (hrun : Run (Step ops) s₀ tr s)
    (hle : s₀.tunnel.numTapDevs ≤ s₀.tunnel.tapDevs.length) : Extends s₀.tunnel s.tunnel := by
  refine hrun.invariant (I := fun u => Extends s₀.tunnel u.tunnel) (fun u wa v hu hstep => ?_)
    (.rfl hle)
  exact hu.trans (hstep.stepOf.2.2.extends hu.size)

/-- The tunnel where a step starts lies between the ends of the run. -/
theorem extends_of_mem (hrun : Run (Step ops) s₀ tr s)
    (hle : s₀.tunnel.numTapDevs ≤ s₀.tunnel.tapDevs.length) {e : Event (Sys M) (ℕ × Action E)}
    (he : e ∈ tr) : Extends s₀.tunnel e.pre.tunnel ∧ Extends e.pre.tunnel s.tunnel := by
  obtain ⟨tr₁, tr₂, rfl⟩ := List.append_of_mem he
  obtain ⟨hpre, hstep, hpost⟩ := hrun.cut
  have hext := extends_of_run hpre hle
  have hext' := hstep.stepOf.2.2.extends hext.size
  exact ⟨hext, hext'.trans (extends_of_run hpost hext'.size)⟩

/-- The steps of a replayed run, and what they start from. -/
theorem mem_replay {M E : Type} {ops : MapOps M E} {s₀ s : Sys M} {w : ℕ} {acts : List (Action E)}
    (hle : s₀.tunnel.numTapDevs ≤ s₀.tunnel.tapDevs.length)
    (h : replay ops s₀ w acts = some s) : ∃ tr : Trace M E, Run (Step ops) s₀ tr s ∧
      (∀ a ∈ acts, ∃ e ∈ tr, e.act = (w, a)) ∧
      ∀ e ∈ tr, e.act.2 ∈ acts ∧ Extends s₀.tunnel e.pre.tunnel ∧
        Extends e.pre.tunnel s.tunnel := by
  obtain ⟨tr, hrun, hacts⟩ := run_of_exec h
  refine ⟨tr, hrun, fun a ha => ?_, fun e he => ?_⟩
  · have hmem : (w, a) ∈ tr.map (·.act) := hacts ▸ List.mem_map_of_mem ha
    exact List.mem_map.1 hmem
  · have hmem : e.act ∈ acts.map (w, ·) := hacts ▸ List.mem_map_of_mem he
    obtain ⟨a, ha, hea⟩ := List.mem_map.1 hmem
    rw [← hea]
    exact ⟨ha, extends_of_mem hrun hle he⟩

end Extends

/-- The datagram a worker has in hand. -/
def Point.datagram : Point → Option Datagram
  | .lookup d | .unlockMiss d | .wrlock d | .relookup d | .unlockHit _ d | .rdlock _ d
  | .alloc d | .add _ d | .write _ d => some d
  | .tapRead | .tapSend _ | .recv | .rearm => none

def Pc.datagram (pc : Pc) : Option Datagram := pc.point.bind Point.datagram

section InHand

variable {M E : Type} {ops : MapOps M E} {s s₀ s' : Sys M} {w : ℕ} {a : Action E} {tr tr' : Trace M E}

theorem datagram_nextEvent (batch : List TunnelEpollEvent) : (nextEvent batch).datagram = none := by
  rcases nextEvent_cases batch with h | ⟨tev, rest, -, ⟨-, h⟩ | ⟨-, h⟩⟩ <;> rw [h] <;> rfl

/-- **Where a datagram in hand comes from**: it is received, or was in hand before. -/
theorem StepOf.datagram (hs : StepOf ops s w a s') {d : Datagram}
    (hd : (s'.workers w).pc.datagram = some d) :
    (∃ d₀, a = .recvfrom (some d₀) ∧ d₀.inet6 = true ∧ d = d₀.cut s.tunnel.mtu) ∨
      (a.received = none ∧ (s.workers w).pc.datagram = some d) := by
  have haccount : ∀ {id f tev rest p}, p.datagram = none → a.received = none →
      ((s.account w id f (.handle tev rest p)).workers w).pc.datagram = some d →
      (∃ d₀, a = .recvfrom (some d₀) ∧ d₀.inet6 = true ∧ d = d₀.cut s.tunnel.mtu) ∨
        (a.received = none ∧ (s.workers w).pc.datagram = some d) := by
    intro id f tev rest p hp ha h
    rcases s.account_cases w id f (.handle tev rest p) with he | ⟨t, -, he⟩ <;> rw [he] at h
    · exact .inr ⟨ha, h⟩
    · rw [Sys.pc_goto] at h
      exact absurd (hp.symm.trans h) nofun
  cases hs with
  | sendto => exact haccount rfl rfl hd
  | write => exact haccount rfl rfl hd
  | start => simp [Sys.workers_setWorker, Pc.datagram, Pc.point] at hd
  | epollFail | epollWait | rearmFail | allocFail => rw [Sys.pc_goto] at hd; cases hd
  | scopeEnd => rw [Sys.pc_lockGoto] at hd; cases hd
  | rdlockBatch batch => rw [Sys.pc_lockGoto, datagram_nextEvent] at hd; cases hd
  | rearm tev rest => rw [Sys.pc_goto, datagram_nextEvent] at hd; cases hd
  | read tev rest fd r =>
    rw [Sys.pc_goto] at hd
    cases r <;> cases hd
  | recvfrom tev rest r hpc =>
    rw [Sys.pc_goto] at hd
    rcases afterRecv_cases s.tunnel.mtu r with ⟨-, hr⟩ | ⟨d₀, rfl, ⟨h6, hr⟩ | ⟨-, hr⟩⟩ <;>
      rw [hr] at hd <;> cases hd
    exact .inl ⟨d₀, rfl, h6, rfl⟩
  | lookup tev rest d' env tapId hpc =>
    rw [Sys.pc_goto] at hd
    refine .inr ⟨rfl, ?_⟩
    rw [hpc]
    rcases afterLookup_cases (s.tunnel.allows d'.src.addr) tapId d' with
      ⟨-, hr⟩ | ⟨-, ⟨-, hr⟩ | ⟨-, hr⟩⟩ <;> rw [hr] at hd <;> first | exact hd | cases hd
  | relookup tev rest d' env tapId hpc =>
    rw [Sys.pc_goto] at hd
    refine .inr ⟨rfl, ?_⟩
    rw [hpc]
    rcases afterRelookup_cases tapId d' with ⟨-, hr⟩ | ⟨-, hr⟩ <;> rw [hr] at hd <;> exact hd
  | unlockMiss tev rest d' hpc => rw [Sys.pc_lockGoto] at hd; exact .inr ⟨rfl, by rw [hpc]; exact hd⟩
  | wrlock tev rest d' hpc => rw [Sys.pc_lockGoto] at hd; exact .inr ⟨rfl, by rw [hpc]; exact hd⟩
  | unlockHit tev rest id d' hpc =>
    rw [Sys.pc_lockGoto] at hd
    exact .inr ⟨rfl, by rw [hpc]; exact hd⟩
  | rdlockHit tev rest id d' hpc =>
    rw [Sys.pc_lockGoto] at hd
    exact .inr ⟨rfl, by rw [hpc]; exact hd⟩
  | alloc tev rest d' env id t epoll hpc =>
    rw [Sys.pc_goto] at hd
    exact .inr ⟨rfl, by rw [hpc]; exact hd⟩
  | add tev rest id d' env map hpc =>
    rw [Sys.pc_goto] at hd
    exact .inr ⟨rfl, by rw [hpc]; exact hd⟩
  | dieInMap tev rest p a hpc ha =>
    rcases ha with ⟨env, e, rfl, -⟩ | ⟨env, e, id, rfl, -⟩ <;> exact .inr ⟨rfl, hd⟩
  | dieInAlloc => exact .inr ⟨rfl, hd⟩

/-- **The datagram in hand** is the last the worker has received, cut to its buffer. -/
theorem inHand (hidle : ∀ w, (s₀.workers w).pc = .start)
    (hle : s₀.tunnel.numTapDevs ≤ s₀.tunnel.tapDevs.length) (hrun : Run (Step ops) s₀ tr s) :
    Extends s₀.tunnel s.tunnel ∧ ∀ w d, (s.workers w).pc.datagram = some d →
      ∃ d₀, (received w tr).getLast? = some d₀ ∧ d₀.inet6 = true ∧ d = d₀.cut s.tunnel.mtu := by
  induction hrun with
  | nil =>
    refine ⟨.rfl hle, fun w d hd => ?_⟩
    rw [hidle w] at hd
    cases hd
  | @snoc u v tr wa hrun hstep ih =>
    obtain ⟨hext, hhand⟩ := ih
    obtain ⟨x, a⟩ := wa
    obtain ⟨-, -, hs⟩ := hstep.stepOf
    have hext' := hs.extends hext.size
    refine ⟨hext.trans hext', fun w d hd => ?_⟩
    unfold received at hhand ⊢
    rw [byWorker_snoc, hext'.mtu]
    rcases eq_or_ne w x with rfl | hne
    · rcases hs.datagram hd with ⟨d₀, rfl, h6, rfl⟩ | ⟨hnone, hd⟩
      · exact ⟨d₀, by simp [Action.received], h6, rfl⟩
      · obtain ⟨d₀, hlast, hrest⟩ := hhand w d hd
        exact ⟨d₀, by simpa [hnone] using hlast, hrest⟩
    · rw [hs.workers_ne hne] at hd
      obtain ⟨d₀, hlast, hrest⟩ := hhand w d hd
      exact ⟨d₀, by simpa [hne.symm] using hlast, hrest⟩

/-- A write is made for the datagram in hand. -/
theorem StepOf.of_write {fd : Fd} {bytes : Bytes} {r : Option ℕ} {now : Int}
    (hs : StepOf ops s w (.write fd bytes r now) s') : ∃ tev rest id d,
      (s.workers w).pc = .handle tev rest (.write id d) ∧ bytes = d.payload ∧
        Reads (s.tunnel.tapFd id (s.workers w).queueId) fd := by
  cases hs with
  | write tev rest id d fd r now hpc hfd => exact ⟨tev, rest, id, d, hpc, rfl, hfd⟩
  | dieInMap tev rest p a hpc ha => rcases ha with ⟨_, _, h, -⟩ | ⟨_, _, _, h, -⟩ <;> cases h

/-- A read is made for the event in hand. -/
theorem StepOf.of_read {id : Int} {fd : Fd} {r : Option Bytes}
    (hs : StepOf ops s w (.read id fd r) s') : ∃ tev rest,
      (s.workers w).pc = .handle tev rest .tapRead ∧ id = tev.tapId.toInt ∧
        Reads (s.tunnel.tapFd id (s.workers w).queueId) fd := by
  cases hs with
  | read tev rest fd r hpc hfd => exact ⟨tev, rest, hpc, rfl, hfd⟩
  | dieInMap tev rest p a hpc ha => rcases ha with ⟨_, _, h, -⟩ | ⟨_, _, _, h, -⟩ <;> cases h

/-- **What a write carries**: the payload of the last datagram the worker received,
cut to its buffer. -/
theorem write_carries (hidle : ∀ w, (s₀.workers w).pc = .start)
    (hle : s₀.tunnel.numTapDevs ≤ s₀.tunnel.tapDevs.length) {u v : Sys M} {fd : Fd}
    {bytes : Bytes} {r : Option ℕ} {now : Int}
    (hrun : Run (Step ops) s₀ (tr ++ ⟨u, (w, .write fd bytes r now), v⟩ :: tr') s) :
    ∃ d₀, (received w tr).getLast? = some d₀ ∧ d₀.inet6 = true ∧
      bytes = d₀.payload.take (2 * s₀.tunnel.mtu) ∧
      ∃ tev rest id, (u.workers w).pc = .handle tev rest (.write id (d₀.cut s₀.tunnel.mtu)) := by
  obtain ⟨hpre, hstep, -⟩ : Run (Step ops) s₀ tr u ∧
    Step ops u (w, .write fd bytes r now) v ∧ _ := hrun.cut
  obtain ⟨-, -, hs⟩ := hstep.stepOf
  obtain ⟨tev, rest, id, d, hpc, rfl, -⟩ := hs.of_write
  obtain ⟨hext, hhand⟩ := inHand hidle hle hpre
  obtain ⟨d₀, hlast, h6, rfl⟩ := hhand w d (by rw [hpc]; rfl)
  rw [hext.mtu] at hpc ⊢
  exact ⟨d₀, hlast, h6, rfl, tev, rest, id, hpc⟩

end InHand

end UdpEthTunnel
