/-
# The queue of a worker

A worker takes its queue from the counter `queue_ids`, modulo the number of queues.
There are as many workers as queues and each starts once, so the counter does not wrap
and no two workers share a queue (`QueueInv`).
-/

import Mathlib.Data.Finset.Card
import UdpEthTunnel.Tunnel.Devices

namespace UdpEthTunnel

open Tunnel Runs

/-- The workers that have started. -/
def Sys.started {M : Type} (s : Sys M) : Finset ℕ :=
  (Finset.range s.tunnel.numQueues).filter fun w => (s.workers w).pc ≠ .start

/-- **The invariant of the queues.** -/
structure QueueInv {M : Type} (s : Sys M) : Prop where
  size : s.tunnel.numTapDevs ≤ s.tunnel.tapDevs.length
  count : s.tunnel.queueIds = s.started.card
  lt : ∀ w, (s.workers w).pc ≠ .start → (s.workers w).queueId < s.tunnel.queueIds
  inj : ∀ v w, (s.workers v).pc ≠ .start → (s.workers w).pc ≠ .start →
    (s.workers v).queueId = (s.workers w).queueId → v = w

section Queues

variable {M E : Type} {ops : MapOps M E} {s s' : Sys M} {w : ℕ} {a : Action E} {t t' : Tunnel M}

theorem updateStats_eq_some {i : Int} {q : ℕ} {f : TunnelStats → TunnelStats}
    (h : t.updateStats i q f = some t') : ∃ (id : ℕ) (d : TapDev) (stats : List TunnelStats)
      (x : TunnelStats), i = id ∧ t.dev id = some d ∧ d.stats = some stats ∧ stats[q]? = some x ∧
        t' = t.setDev id { d with stats := some (stats.set q (f x)) } := by
  unfold updateStats at h
  simp only [Option.bind_eq_some_iff, Option.map_eq_some_iff] at h
  obtain ⟨d, hd, stats, hstats, x, hx, rfl⟩ := h
  cases i with
  | ofNat id => exact ⟨id, d, stats, x, rfl, hd, hstats, hx, rfl⟩
  | negSucc id => cases hd

theorem growTapDevs_dev {env : AllocTapEnv} {t₁ : Tunnel M}
    (hle : t.numTapDevs ≤ t.tapDevs.length) (h : growTapDevs env t = some t₁) :
    t₁.queueIds = t.queueIds ∧ ∀ i : ℕ, i < t.numTapDevs → t₁.dev i = t.dev i := by
  unfold growTapDevs tapDevsAllocated at h
  split_ifs at h with hfull
  · obtain ⟨tail, -, rfl⟩ := Option.map_eq_some_iff.1 h
    exact ⟨rfl, fun i hi => List.getElem?_append_left (by omega)⟩
  · obtain rfl := Option.some.inj h
    exact ⟨rfl, fun _ _ => rfl⟩

/-- Allocating a device does not touch the counter of the queues. -/
theorem queueIds_of_allocNewTap {env : AllocTapEnv} {epoll epoll' : EpollSets} {e : Endpoint}
    {r : Option ℕ} (hle : t.numTapDevs ≤ t.tapDevs.length)
    (h : tunnelAllocNewTap env t epoll e = .ret r t' epoll') : t'.queueIds = t.queueIds := by
  rcases allocNewTap_cases t env epoll e with ⟨-, hret⟩ | ⟨t₁, hg, hcase⟩
  · rw [hret] at h
    injection h with _ ht
    rw [← ht]
  · have hgrow := (growTapDevs_dev hle hg).1
    rcases hcase with ⟨-, hret⟩ | ⟨-, hret | ⟨fds, epoll₁, ok, -, ⟨-, hret⟩ | ⟨-, hret⟩⟩⟩ <;>
      rw [hret] at h
    · cases h
    · cases h
    · injection h with _ ht
      rw [← ht]
      exact hgrow
    · injection h with _ ht
      rw [← ht]
      exact hgrow

theorem Sys.account_queue (s : Sys M) (w : ℕ) (id : Int) (f : TunnelStats → TunnelStats) (pc : Pc) :
    ((s.account w id f pc).workers w).queueId = (s.workers w).queueId ∧
      (s.account w id f pc).tunnel.queueIds = s.tunnel.queueIds := by
  unfold Sys.account
  cases hu : s.tunnel.updateStats id (s.workers w).queueId f with
  | none => exact ⟨rfl, rfl⟩
  | some t =>
    obtain ⟨i, d, stats, x, -, -, -, -, rfl⟩ := updateStats_eq_some hu
    exact ⟨Sys.queueId_goto .., rfl⟩

/-- **What a step does to the queues**: a worker starts, or nothing. -/
theorem StepOf.queue_cases (hs : StepOf ops s w a s')
    (hle : s.tunnel.numTapDevs ≤ s.tunnel.tapDevs.length) :
    ((s.workers w).pc = .start ∧ (s'.workers w).queueId = s.tunnel.queueIds % s.tunnel.numQueues ∧
        s'.tunnel.queueIds = s.tunnel.queueIds + 1) ∨
      ((s.workers w).pc ≠ .start ∧ (s'.workers w).queueId = (s.workers w).queueId ∧
        s'.tunnel.queueIds = s.tunnel.queueIds) := by
  have hne : ∀ {pc}, (s.workers w).pc = pc → pc ≠ .start → (s.workers w).pc ≠ .start :=
    fun hpc h => hpc ▸ h
  cases hs with
  | start hpc => exact .inl ⟨hpc, by simp [Sys.workers_setWorker], rfl⟩
  | sendto tev rest frame dst r now hpc => exact .inr ⟨hne hpc nofun, s.account_queue ..⟩
  | write tev rest id d fd r now hpc => exact .inr ⟨hne hpc nofun, s.account_queue ..⟩
  | allocFail tev rest d env t epoll hpc halloc =>
    exact .inr ⟨hne hpc nofun, Sys.queueId_goto .., queueIds_of_allocNewTap hle halloc⟩
  | alloc tev rest d env id t epoll hpc halloc =>
    exact .inr ⟨hne hpc nofun, Sys.queueId_goto .., queueIds_of_allocNewTap hle halloc⟩
  | rdlockBatch batch hpc | scopeEnd hpc | unlockMiss tev rest d hpc | wrlock tev rest d hpc
  | unlockHit tev rest id d hpc | rdlockHit tev rest id d hpc =>
    exact .inr ⟨hne hpc nofun, Sys.queueId_lockGoto .., rfl⟩
  | dieInMap tev rest p a hpc => exact .inr ⟨hne hpc nofun, rfl, rfl⟩
  | dieInAlloc tev rest d env c hpc => exact .inr ⟨hne hpc nofun, rfl, rfl⟩
  | epollFail hpc | epollWait batch hpc | read tev rest fd r hpc | recvfrom tev rest r hpc
  | lookup tev rest d env tapId hpc | relookup tev rest d env tapId hpc
  | add tev rest id d env map hpc | rearm tev rest hpc | rearmFail tev rest hpc =>
    exact .inr ⟨hne hpc nofun, Sys.queueId_goto .., rfl⟩

/-- **Every step keeps the queues apart.** -/
theorem QueueInv.step (h : QueueInv s) (hstep : Step ops s (w, a) s') : QueueInv s' := by
  obtain ⟨-, hw, hs⟩ := hstep.stepOf
  have hext := hs.extends h.size
  have hpc' := hs.pc_ne_start
  have hmem : ∀ v, v ∈ s'.started ↔ v < s.tunnel.numQueues ∧ (s'.workers v).pc ≠ .start := by
    intro v
    unfold Sys.started
    rw [Finset.mem_filter, Finset.mem_range, hext.numQueues]
  rcases hs.queue_cases h.size with ⟨hpc, hq, hids⟩ | ⟨hpc, hq, hids⟩
  · have hnot : w ∉ s.started := fun hin => (Finset.mem_filter.1 hin).2 hpc
    have hstarted : s'.started = insert w s.started := by
      ext v
      unfold Sys.started at hnot ⊢
      rw [Finset.mem_insert, Finset.mem_filter, Finset.mem_filter, Finset.mem_range,
        Finset.mem_range, hext.numQueues]
      rcases eq_or_ne v w with rfl | hne
      · simp [hw, hpc']
      · simp [hne, hs.workers_ne hne]
    have hlt : s.tunnel.queueIds < s.tunnel.numQueues := by
      have hsub : s'.started ⊆ Finset.range s.tunnel.numQueues := fun v hv =>
        Finset.mem_range.2 ((hmem v).1 hv).1
      have hcard := Finset.card_le_card hsub
      rw [hstarted, Finset.card_insert_of_notMem hnot, Finset.card_range, ← h.count] at hcard
      omega
    rw [Nat.mod_eq_of_lt hlt] at hq
    refine ⟨hext.size, ?_, fun v hv => ?_, fun u v hu hv huv => ?_⟩
    · rw [hids, hstarted, Finset.card_insert_of_notMem hnot, h.count]
    · rcases eq_or_ne v w with rfl | hne
      · omega
      · rw [hs.workers_ne hne] at hv ⊢
        have := h.lt v hv
        omega
    · rcases eq_or_ne u w with rfl | hu'
      · by_contra hne
        rw [hs.workers_ne (Ne.symm hne)] at hv huv
        have := h.lt v hv
        omega
      · rw [hs.workers_ne hu'] at hu huv
        rcases eq_or_ne v w with rfl | hv'
        · have := h.lt u hu
          omega
        · rw [hs.workers_ne hv'] at hv huv
          exact h.inj u v hu hv huv
  · have hsame : ∀ v, ((s'.workers v).pc ≠ .start ↔ (s.workers v).pc ≠ .start) ∧
        (s'.workers v).queueId = (s.workers v).queueId := by
      intro v
      rcases eq_or_ne v w with rfl | hne
      · exact ⟨⟨fun _ => hpc, fun _ => hpc'⟩, hq⟩
      · rw [hs.workers_ne hne]
        exact ⟨Iff.rfl, rfl⟩
    refine ⟨hext.size, ?_, fun v hv => ?_, fun u v hu hv huv => ?_⟩
    · rw [hids, h.count]
      congr 1
      ext v
      rw [hmem, (hsame v).1]
      unfold Sys.started
      rw [Finset.mem_filter, Finset.mem_range]
    · rw [(hsame v).2, hids]
      exact h.lt v ((hsame v).1.1 hv)
    · rw [(hsame u).2, (hsame v).2] at huv
      exact h.inj u v ((hsame u).1.1 hu) ((hsame v).1.1 hv) huv

/-- A tunnel starts with no worker started. -/
theorem queueInv_created {env : CreateEnv E} {params : TunnelParams}
    (h : tunnelCreate ops env params = .created s) : QueueInv s := by
  obtain ⟨hworkers, -⟩ := tunnelCreate_created h
  have hpc : ∀ w, (s.workers w).pc = .start := fun w => by rw [hworkers]
  have hids : s.tunnel.queueIds = 0 := by
    obtain ⟨t, hzero, hnum, rfl | ⟨epoll, e, id, halloc⟩⟩ := alloc_of_created h
    · exact hzero
    · rw [queueIds_of_allocNewTap (by omega) halloc, hzero]
  have hstarted : s.started = ∅ :=
    Finset.filter_eq_empty_iff.2 fun w _ hw => hw (hpc w)
  refine ⟨size_of_created h, ?_, fun w hw => absurd (hpc w) hw, fun v w hv => absurd (hpc v) hv⟩
  rw [hids, hstarted, Finset.card_empty]

end Queues

end UdpEthTunnel
