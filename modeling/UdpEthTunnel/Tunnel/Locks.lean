/-
# The lock and the steps

Where a worker stands tells how it holds the lock (`Pc.Holds`), and a worker that
holds it for writing is alone (`LockInv`).  The rest of the file says what a step
can do to the tunnel: only a worker that holds the write lock adds a device or a
map entry, every other step touches statistics at most (`StepOf.tunnel_cases`).
-/

import UdpEthTunnel.Tunnel.AllocTap
import UdpEthTunnel.Tunnel.Steps

namespace UdpEthTunnel

open Tunnel

/-- The point a worker stands at while it handles an event. -/
def Pc.point : Pc → Option Point
  | .handle _ _ p => some p
  | _ => none

theorem afterRecv_cases (mtu : ℕ) (r : Option Datagram) :
    (r = none ∧ afterRecv mtu r = .rearm) ∨
      ∃ d, r = some d ∧ ((d.inet6 = true ∧ afterRecv mtu r = .lookup (d.cut mtu)) ∨
        (d.inet6 = false ∧ afterRecv mtu r = .recv)) := by
  cases r with
  | none => exact .inl ⟨rfl, rfl⟩
  | some d => cases hd : d.inet6 <;> simp [afterRecv, hd]

theorem afterLookup_cases (allowed : Bool) (tapId : Int) (d : Datagram) :
    (0 ≤ tapId ∧ afterLookup allowed tapId d = .write tapId d) ∨
      tapId < 0 ∧ ((allowed = true ∧ afterLookup allowed tapId d = .unlockMiss d) ∨
        (allowed = false ∧ afterLookup allowed tapId d = .recv)) := by
  unfold afterLookup
  rcases Decidable.em (tapId < 0) with h | h
  · cases allowed <;> simp [h]
  · exact .inl ⟨by omega, if_neg h⟩

theorem afterRelookup_cases (tapId : Int) (d : Datagram) :
    (0 ≤ tapId ∧ afterRelookup tapId d = .unlockHit tapId d) ∨
      (tapId < 0 ∧ afterRelookup tapId d = .alloc d) := by
  unfold afterRelookup
  rcases Decidable.em (0 ≤ tapId) with h | h
  · exact .inl ⟨h, if_pos h⟩
  · exact .inr ⟨by omega, if_neg h⟩

theorem nextEvent_cases (batch : List TunnelEpollEvent) :
    nextEvent batch = .scopeEnd ∨ ∃ tev rest, batch = tev :: rest ∧
      ((tev.isTap = true ∧ nextEvent batch = .handle tev rest .tapRead) ∨
        (tev.isTap = false ∧ nextEvent batch = .handle tev rest .recv)) := by
  cases batch with
  | nil => exact .inl rfl
  | cons tev rest => cases h : tev.isTap <;> simp [nextEvent, h]

/-- How a worker holds the lock where it stands. -/
def Pc.Holds : Pc → LockMode → Prop
  | .start, l | .epollWait, l | .rdlock _, l | .exited, l => l = .free
  | .scopeEnd, l => l ≠ .free
  | .handle _ _ p, l =>
    match p with
    | .wrlock _ | .rdlock _ _ => l = .free
    | .relookup _ | .unlockHit _ _ | .alloc _ | .add _ _ => l = .write
    | .tapRead | .tapSend _ | .recv | .lookup _ | .unlockMiss _ | .write _ _ | .rearm => l ≠ .free

theorem holds_nextEvent {l : LockMode} (hl : l ≠ .free) (batch : List TunnelEpollEvent) :
    (nextEvent batch).Holds l := by
  rcases nextEvent_cases batch with h | ⟨tev, rest, -, ⟨-, h⟩ | ⟨-, h⟩⟩ <;> rw [h] <;> exact hl

/-- **The lock invariant.** -/
structure LockInv {M : Type} (s : Sys M) : Prop where
  excl : ∀ v w, v ≠ w → (s.workers v).lock = .write → (s.workers w).lock = .free
  holds : ∀ w, (s.workers w).pc.Holds (s.workers w).lock
  idle : ∀ w, s.tunnel.numQueues ≤ w → s.workers w = {}

section Locks

variable {M E : Type} {ops : MapOps M E} {s s' : Sys M} {w v : ℕ} {a : Action E} {pc : Pc}

namespace LockInv

theorem congr (h : LockInv s) (hw : s'.workers = s.workers)
    (hn : s'.tunnel.numQueues = s.tunnel.numQueues) : LockInv s' := by
  obtain ⟨hexcl, hholds, hidle⟩ := h
  refine ⟨?_, ?_, ?_⟩
  · rwa [hw]
  · rwa [hw]
  · rwa [hw, hn]

/-- A worker may change its state if the lock it then holds is rightly shared. -/
theorem setWorker {x : Worker} (h : LockInv s) (hw : w < s.tunnel.numQueues)
    (hholds : x.pc.Holds x.lock)
    (hwrite : x.lock = .write → ∀ v, v ≠ w → (s.workers v).lock = .free)
    (hread : x.lock = .read → ∀ v, v ≠ w → (s.workers v).lock ≠ .write) :
    LockInv (s.setWorker w x) := by
  have hne : ∀ {v}, v ≠ w → (s.setWorker w x).workers v = s.workers v := fun hv => by
    rw [Sys.workers_setWorker, if_neg hv]
  have heq : (s.setWorker w x).workers w = x := by rw [Sys.workers_setWorker, if_pos rfl]
  refine ⟨fun u v huv hu => ?_, fun v => ?_, fun v hv => ?_⟩
  · rcases eq_or_ne v w with rfl | hvw
    · rw [hne huv] at hu
      rw [heq]
      cases hl : x.lock with
      | free => rfl
      | read => exact absurd hu (hread hl u huv)
      | write =>
        rw [hwrite hl u huv] at hu
        cases hu
    · rw [hne hvw]
      rcases eq_or_ne u w with rfl | huw
      · rw [heq] at hu
        exact hwrite hu v hvw
      · rw [hne huw] at hu
        exact h.excl u v huv hu
  · rcases eq_or_ne v w with rfl | hvw
    · rwa [heq]
    · rw [hne hvw]
      exact h.holds v
  · have hv' : s.tunnel.numQueues ≤ v := hv
    rw [hne (by omega)]
    exact h.idle v hv

theorem goto (h : LockInv s) (hw : w < s.tunnel.numQueues)
    (hholds : pc.Holds (s.workers w).lock) : LockInv (s.goto w pc) :=
  h.setWorker hw hholds (fun hl v hv => h.excl w v hv.symm hl) fun hl v hv hv' => by
    rw [h.excl v w hv hv'] at hl
    cases hl

theorem free_of_unlocked (h : LockInv s) (hs : s.Unlocked) (v : ℕ) :
    (s.workers v).lock = .free := by
  rcases Nat.lt_or_ge v s.tunnel.numQueues with hv | hv
  · exact hs v hv
  · rw [h.idle v hv]

theorem ne_write_of_noWriter (h : LockInv s) (hs : s.NoWriter) (v : ℕ) :
    (s.workers v).lock ≠ .write := by
  rcases Nat.lt_or_ge v s.tunnel.numQueues with hv | hv
  · exact hs v hv
  · rw [h.idle v hv]
    decide

theorem unlock (h : LockInv s) (hw : w < s.tunnel.numQueues) (hholds : pc.Holds .free) :
    LockInv (s.lockGoto w .free pc) :=
  h.setWorker hw hholds nofun nofun

theorem rdlock (h : LockInv s) (hw : w < s.tunnel.numQueues) (hs : s.NoWriter)
    (hholds : pc.Holds .read) : LockInv (s.lockGoto w .read pc) :=
  h.setWorker hw hholds nofun fun _ v _ => h.ne_write_of_noWriter hs v

theorem wrlock (h : LockInv s) (hw : w < s.tunnel.numQueues) (hs : s.Unlocked)
    (hholds : pc.Holds .write) : LockInv (s.lockGoto w .write pc) :=
  h.setWorker hw hholds (fun _ v _ => h.free_of_unlocked hs v) nofun

/-- At most one worker stands where the write lock is needed. -/
theorem eq_of_write (h : LockInv s) (hv : (s.workers v).lock = .write)
    (hw : (s.workers w).lock = .write) : v = w := by
  by_contra hne
  rw [h.excl v w hne hv] at hw
  cases hw

end LockInv

/-- The points at which a worker holds the lock for writing. -/
def Point.Writer : Point → Prop
  | .relookup _ | .unlockHit _ _ | .alloc _ | .add _ _ => True
  | _ => False

theorem LockInv.write_of_point (h : LockInv s) {tev : TunnelEpollEvent}
    {rest : List TunnelEpollEvent} {p : Point} (hpc : (s.workers w).pc = .handle tev rest p)
    (hp : p.Writer) : (s.workers w).lock = .write := by
  have hholds := h.holds w
  rw [hpc] at hholds
  cases p with
  | relookup | unlockHit | alloc | add => exact hholds
  | _ => exact hp.elim

theorem Sys.account_cases (s : Sys M) (w : ℕ) (id : Int) (f : TunnelStats → TunnelStats) (pc : Pc) :
    s.account w id f pc = s.die .wildAccess ∨
      ∃ t, SameDevs s.tunnel t ∧ s.account w id f pc = (s.setTunnel t).goto w pc := by
  unfold Sys.account
  cases hu : s.tunnel.updateStats id (s.workers w).queueId f with
  | none => exact .inl rfl
  | some t => exact .inr ⟨t, sameDevs_updateStats hu, rfl⟩

/-- A step leaves the other workers where they are. -/
theorem StepOf.workers_ne (h : StepOf ops s w a s') (hv : v ≠ w) :
    s'.workers v = s.workers v := by
  cases h with
  | sendto tev rest frame dst r now =>
    rcases s.account_cases w tev.tapId.toInt (.afterSend r now) (.handle tev rest .tapRead) with
      h | ⟨t, -, h⟩ <;> rw [h]
    · rfl
    · rw [Sys.workers_goto, if_neg hv]
      rfl
  | write tev rest id d fd r now =>
    rcases s.account_cases w id (.afterWrite r now) (.handle tev rest .recv) with
      h | ⟨t, -, h⟩ <;> rw [h]
    · rfl
    · rw [Sys.workers_goto, if_neg hv]
      rfl
  | dieInMap => rfl
  | dieInAlloc => rfl
  | _ => exact Function.update_of_ne hv _ _

/-- **What a step does to the tunnel**: it touches statistics at most, or it is a
call of `tunnel_alloc_new_tap`, or it adds an entry to the map. -/
theorem StepOf.tunnel_cases (h : StepOf ops s w a s') :
    SameDevs s.tunnel s'.tunnel ∨
    (∃ tev rest d env, a = .allocNewTap env ∧ (s.workers w).pc = .handle tev rest (.alloc d) ∧
      ((tunnelAllocNewTap env s.tunnel s.epoll d.src = .ret none s'.tunnel s'.epoll ∧
          (s'.workers w).pc = .handle tev rest .recv) ∨
        ∃ id, tunnelAllocNewTap env s.tunnel s.epoll d.src = .ret (some id) s'.tunnel s'.epoll ∧
          (s'.workers w).pc = .handle tev rest (.add id d))) ∨
    (∃ tev rest id d env map, a = .mapAdd env ∧
      (s.workers w).pc = .handle tev rest (.add id d) ∧
      ops.add env s.tunnel.map d.src id = .ret map ∧ s'.tunnel = { s.tunnel with map := map } ∧
      (s'.workers w).pc = .handle tev rest (.write id d)) := by
  cases h with
  | sendto tev rest frame dst r now =>
    rcases s.account_cases w tev.tapId.toInt (.afterSend r now) (.handle tev rest .tapRead) with
      h | ⟨t, ht, h⟩ <;> rw [h]
    · exact .inl .rfl
    · exact .inl ht
  | write tev rest id d fd r now =>
    rcases s.account_cases w id (.afterWrite r now) (.handle tev rest .recv) with
      h | ⟨t, ht, h⟩ <;> rw [h]
    · exact .inl .rfl
    · exact .inl ht
  | allocFail tev rest d env t epoll hpc halloc =>
    exact .inr (.inl ⟨tev, rest, d, env, rfl, hpc, .inl ⟨halloc, by simp [Sys.workers_goto]⟩⟩)
  | alloc tev rest d env id t epoll hpc halloc =>
    exact .inr (.inl ⟨tev, rest, d, env, rfl, hpc, .inr ⟨id, halloc, by simp [Sys.workers_goto]⟩⟩)
  | add tev rest id d env map hpc hadd =>
    exact .inr (.inr ⟨tev, rest, id, d, env, map, rfl, hpc, hadd, rfl, by simp [Sys.workers_goto]⟩)
  | start => exact .inl ⟨⟨rfl, rfl, rfl, rfl, rfl⟩, rfl, rfl, rfl, rfl, rfl, rfl⟩
  | _ => exact .inl .rfl

/-- The devices of a tunnel stay; only more come. -/
theorem StepOf.extends (hs : StepOf ops s w a s')
    (hle : s.tunnel.numTapDevs ≤ s.tunnel.tapDevs.length) : Extends s.tunnel s'.tunnel := by
  rcases hs.tunnel_cases with hsame | ⟨_, _, d, env, -, -, ⟨halloc, -⟩ | ⟨id, halloc, -⟩⟩ |
    ⟨_, _, id, d, env, map, -, -, -, ht, -⟩
  · exact hsame.extends hle
  · exact (allocNewTap_none hle halloc).1
  · exact (allocNewTap_some hle halloc).ext
  · rw [ht]
    exact extends_of_dev ⟨rfl, rfl, rfl, rfl, rfl⟩ le_rfl hle fun _ _ => rfl

/-- **Every step keeps the lock invariant.** -/
theorem LockInv.step (h : LockInv s) (hle : s.tunnel.numTapDevs ≤ s.tunnel.tapDevs.length)
    (hstep : Step ops s (w, a) s') : LockInv s' := by
  obtain ⟨-, hw, hs⟩ := hstep.stepOf
  have hhere : ∀ {pc}, (s.workers w).pc = pc → pc.Holds (s.workers w).lock := fun hpc =>
    hpc ▸ h.holds w
  have haccount : ∀ {id f pc}, pc.Holds (s.workers w).lock → LockInv (s.account w id f pc) := by
    intro id f pc hpc
    rcases s.account_cases w id f pc with he | ⟨t, ht, he⟩ <;> rw [he]
    · exact h.congr rfl rfl
    · exact (h.congr rfl ht.numQueues : LockInv (s.setTunnel t)).goto (ht.numQueues ▸ hw) hpc
  cases hs with
  | start hpc =>
    exact LockInv.setWorker (x := { pc := .epollWait, queueId := _ }) (h.congr rfl rfl) hw rfl
      nofun nofun
  | epollFail hpc =>
    have hl := hhere hpc
    exact h.goto hw hl
  | epollWait batch hpc =>
    have hl := hhere hpc
    exact LockInv.goto (h.congr rfl rfl) hw hl
  | rdlockBatch batch hpc hlock => exact h.rdlock hw hlock (holds_nextEvent (l := .read) nofun batch)
  | scopeEnd hpc => exact h.unlock hw rfl
  | read tev rest fd r hpc =>
    have hl := hhere hpc
    cases r <;> exact h.goto hw hl
  | sendto tev rest frame dst r now hpc =>
    have hl := hhere hpc
    exact haccount hl
  | recvfrom tev rest r hpc =>
    have hl : (s.workers w).lock ≠ .free := hhere hpc
    refine h.goto hw ?_
    rcases afterRecv_cases s.tunnel.mtu r with ⟨-, hr⟩ | ⟨d, -, ⟨-, hr⟩ | ⟨-, hr⟩⟩ <;> rw [hr] <;>
      exact hl
  | lookup tev rest d env tapId hpc =>
    have hl : (s.workers w).lock ≠ .free := hhere hpc
    refine h.goto hw ?_
    rcases afterLookup_cases (s.tunnel.allows d.src.addr) tapId d with
      ⟨-, hr⟩ | ⟨-, ⟨-, hr⟩ | ⟨-, hr⟩⟩ <;> rw [hr] <;> exact hl
  | unlockMiss tev rest d hpc => exact h.unlock hw rfl
  | wrlock tev rest d hpc hlock => exact h.wrlock hw hlock rfl
  | relookup tev rest d env tapId hpc =>
    have hl : (s.workers w).lock = .write := hhere hpc
    refine h.goto hw ?_
    rcases afterRelookup_cases tapId d with ⟨-, hr⟩ | ⟨-, hr⟩ <;> rw [hr] <;> exact hl
  | unlockHit tev rest id d hpc => exact h.unlock hw rfl
  | rdlockHit tev rest id d hpc hlock =>
    exact h.rdlock hw hlock (show LockMode.read ≠ .free from nofun)
  | allocFail tev rest d env t epoll hpc halloc =>
    have hl : (s.workers w).lock = .write := hhere hpc
    have hn := (allocNewTap_none hle halloc).1.numQueues
    have hfree : (s.workers w).lock ≠ .free := by rw [hl]; decide
    exact LockInv.goto (h.congr rfl hn) (hn ▸ hw) hfree
  | alloc tev rest d env id t epoll hpc halloc =>
    have hl : (s.workers w).lock = .write := hhere hpc
    have hn := (allocNewTap_some hle halloc).ext.numQueues
    exact LockInv.goto (h.congr rfl hn) (hn ▸ hw) hl
  | add tev rest id d env map hpc =>
    have hl : (s.workers w).lock = .write := hhere hpc
    have hfree : (s.workers w).lock ≠ .free := by rw [hl]; decide
    exact LockInv.goto (h.congr rfl rfl) hw hfree
  | write tev rest id d fd r now hpc =>
    have hl := hhere hpc
    exact haccount hl
  | rearm tev rest hpc =>
    have hl : (s.workers w).lock ≠ .free := hhere hpc
    exact LockInv.goto (h.congr rfl rfl) hw (holds_nextEvent hl rest)
  | rearmFail tev rest hpc =>
    have hl := hhere hpc
    exact h.goto hw hl
  | dieInMap => exact h.congr rfl rfl
  | dieInAlloc => exact h.congr rfl rfl

theorem Sys.pc_goto (s : Sys M) (w : ℕ) (pc : Pc) : ((s.goto w pc).workers w).pc = pc := by
  rw [Sys.workers_goto, if_pos rfl]

theorem Sys.pc_lockGoto (s : Sys M) (w : ℕ) (l : LockMode) (pc : Pc) :
    ((s.lockGoto w l pc).workers w).pc = pc := by
  rw [Sys.workers_lockGoto, if_pos rfl]

/-- A worker that has got a tap id enters it in the map, or dies there. -/
theorem StepOf.of_add (h : StepOf ops s w a s') {tev : TunnelEpollEvent}
    {rest : List TunnelEpollEvent} {id : ℕ} {d : Datagram}
    (hpc : (s.workers w).pc = .handle tev rest (.add id d)) :
    (∃ env map, a = .mapAdd env ∧ ops.add env s.tunnel.map d.src id = .ret map ∧
      s' = (s.setTunnel { s.tunnel with map := map }).goto w (.handle tev rest (.write id d))) ∨
    ∃ c, s' = s.die c := by
  cases h with
  | add tev' rest' id' d' env map hpc' hadd =>
    rw [hpc] at hpc'
    cases hpc'
    exact .inl ⟨env, map, rfl, hadd, rfl⟩
  | dieInMap | dieInAlloc => exact .inr ⟨_, rfl⟩
  | start hpc' | epollFail hpc' | epollWait _ hpc' | rdlockBatch _ hpc' | scopeEnd hpc'
  | read _ _ _ _ hpc' | sendto _ _ _ _ _ _ hpc' | recvfrom _ _ _ hpc' | lookup _ _ _ _ _ hpc'
  | unlockMiss _ _ _ hpc' | wrlock _ _ _ hpc' | relookup _ _ _ _ _ hpc' | unlockHit _ _ _ _ hpc'
  | rdlockHit _ _ _ _ hpc' | allocFail _ _ _ _ _ _ hpc' | alloc _ _ _ _ _ _ _ hpc'
  | write _ _ _ _ _ _ _ hpc' | rearm _ _ hpc' | rearmFail _ _ hpc' =>
    rw [hpc] at hpc'
    cases hpc'

end Locks

end UdpEthTunnel
