/-
# Statistics

A tap device has a block of counters for each queue.  `worker_thread` updates the block
of its own queue after every `sendto` and `write`; `tunnel_print_stats` adds them up.
The queue of a worker comes from an atomic counter modulo the number of queues, and
there are as many workers as queues, so each block has one writer (`QueueInv`).

What the calls for a device have done is read off a run as a ledger of entries; the
totals agree with it (`statistics`).
-/

import Mathlib.Algebra.BigOperators.Group.List.Basic
import Mathlib.Data.BitVec
import UdpEthTunnel.Tunnel.FiniteMap
import UdpEthTunnel.Tunnel.Queues
import UdpEthTunnel.Tunnel.Trace

namespace UdpEthTunnel

open Tunnel Runs

/-! ### Totals -/

/-- A round of the loop over the queues in `tunnel_print_stats`. -/
def TunnelStats.addQueue (total x : TunnelStats) : TunnelStats where
  rxc := total.rxc + x.rxc
  txc := total.txc + x.txc
  errorc := total.errorc + x.errorc
  lastRecvTime := if x.lastRecvTime > total.lastRecvTime then x.lastRecvTime else total.lastRecvTime
  lastSendTime := if x.lastSendTime > total.lastSendTime then x.lastSendTime else total.lastSendTime
  lastErrorTime :=
    if x.lastErrorTime > total.lastErrorTime then x.lastErrorTime else total.lastErrorTime

/-- The statistics of the queues of a device. -/
def Tunnel.statsOf {M : Type} (t : Tunnel M) (id : Int) : Option (List TunnelStats) :=
  (t.dev id).bind (·.stats)

/-- The totals that `tunnel_print_stats` computes for a device; `none` when it reads
outside the statistics. -/
def tunnelPrintStats {M : Type} (t : Tunnel M) (id : Int) : Option TunnelStats :=
  (t.statsOf id).bind fun stats =>
    if t.numQueues ≤ stats.length then some ((stats.take t.numQueues).foldl .addQueue {}) else none

/-- The counters of a list of statistics. -/
def total (f : TunnelStats → U64) (stats : List TunnelStats) : U64 := (stats.map f).sum

/-- The latest of the times in a list of statistics. -/
def latestOf (f : TunnelStats → Int) (stats : List TunnelStats) : Int := (stats.map f).foldl max 0

/-- **The totals**, field by field. -/
theorem foldl_addQueue (stats : List TunnelStats) : stats.foldl TunnelStats.addQueue {} =
    { rxc := total (·.rxc) stats, txc := total (·.txc) stats, errorc := total (·.errorc) stats,
      lastRecvTime := latestOf (·.lastRecvTime) stats, lastSendTime := latestOf (·.lastSendTime) stats,
      lastErrorTime := latestOf (·.lastErrorTime) stats } := by
  have hmax : ∀ x y : Int, (if x > y then x else y) = max y x := by
    intro x y
    split_ifs <;> omega
  have hgen : ∀ acc : TunnelStats, stats.foldl TunnelStats.addQueue acc =
      { rxc := acc.rxc + total (·.rxc) stats, txc := acc.txc + total (·.txc) stats,
        errorc := acc.errorc + total (·.errorc) stats,
        lastRecvTime := (stats.map (·.lastRecvTime)).foldl max acc.lastRecvTime,
        lastSendTime := (stats.map (·.lastSendTime)).foldl max acc.lastSendTime,
        lastErrorTime := (stats.map (·.lastErrorTime)).foldl max acc.lastErrorTime } := by
    induction stats with
    | nil => simp [total]
    | cons x stats ih =>
      intro acc
      rw [List.foldl_cons, ih]
      simp [TunnelStats.addQueue, total, hmax, add_assoc]
  rw [hgen]
  simp [latestOf]

section Totals

variable {stats : List TunnelStats} {q : ℕ} {x y : TunnelStats}

/-- A counter that goes up in one queue goes up in the total. -/
theorem total_set (f : TunnelStats → U64) (d : U64) (hq : stats[q]? = some x) (hy : f y = f x + d) :
    total f (stats.set q y) = total f stats + d := by
  obtain ⟨hlt, rfl⟩ := List.getElem?_eq_some_iff.1 hq
  unfold total
  rw [List.map_set, List.sum_set', dif_pos (by rwa [List.length_map]), List.getElem_map, hy,
    neg_add_cancel_left]

theorem foldl_max_le_iff {ts : List Int} {a b : Int} :
    ts.foldl max a ≤ b ↔ a ≤ b ∧ ∀ t ∈ ts, t ≤ b := by
  induction ts generalizing a with
  | nil => simp
  | cons t ts ih =>
    rw [List.foldl_cons, ih]
    simp [and_assoc]

/-- The time of an event that is not before any other is the latest. -/
theorem latestOf_set (f : TunnelStats → Int) (hq : q < stats.length)
    (hle : latestOf f stats ≤ f y) : latestOf f (stats.set q y) = f y := by
  unfold latestOf at hle ⊢
  obtain ⟨h0, hall⟩ := foldl_max_le_iff.1 hle
  rw [List.map_set]
  apply le_antisymm
  · refine foldl_max_le_iff.2 ⟨h0, fun t ht => ?_⟩
    rcases List.mem_or_eq_of_mem_set ht with ht | rfl
    · exact hall t ht
    · exact le_rfl
  · exact (foldl_max_le_iff.1 le_rfl).2 _ (List.mem_set (by rwa [List.length_map]) _)

theorem latestOf_set_same (f : TunnelStats → Int) (hq : stats[q]? = some x) (hy : f y = f x) :
    latestOf f (stats.set q y) = latestOf f stats := by
  obtain ⟨hlt, rfl⟩ := List.getElem?_eq_some_iff.1 hq
  unfold latestOf
  rw [List.map_set, hy, ← List.getElem_map (f := f) (h := by rwa [List.length_map]),
    List.set_getElem_self]

end Totals

/-! ### The ledger -/

/-- `sendto` of a frame that was read from a device, or `write` to it. -/
inductive Direction where
  | tx
  | rx
deriving DecidableEq, Repr

/-- A call that is accounted for. -/
structure Entry where
  id : Int
  queueId : ℕ
  dir : Direction
  /-- how many bytes the call took; `none` for an error -/
  r : Option ℕ
  now : Int
deriving DecidableEq, Repr

/-- What the call does to the statistics of its queue. -/
def Entry.update (x : Entry) : TunnelStats → TunnelStats :=
  match x.dir with
  | .tx => .afterSend x.r x.now
  | .rx => .afterWrite x.r x.now

/-- The reading of the clock after a call. -/
def Action.now {E : Type} : Action E → Option Int
  | .sendto _ _ _ now | .write _ _ _ now => some now
  | _ => none

/-- The entry of a call of worker `w`. -/
def Sys.entry {M E : Type} (s : Sys M) (w : ℕ) (a : Action E) : Option Entry :=
  match (s.workers w).pc, a with
  | .handle tev _ (.tapSend _), .sendto _ _ r now =>
    some ⟨tev.tapId.toInt, (s.workers w).queueId, .tx, r, now⟩
  | .handle _ _ (.write id _), .write _ _ r now => some ⟨id, (s.workers w).queueId, .rx, r, now⟩
  | _, _ => none

/-- The entry of a step, if it is for the device `id`. -/
def entryFor {M E : Type} (id : ℕ) (e : Event (Sys M) (ℕ × Action E)) : Option Entry :=
  (e.pre.entry e.act.1 e.act.2).filter fun x => x.id = id ∧ id < e.pre.tunnel.numTapDevs

/-- The calls of a run for a device, from the first on. -/
def ledger {M E : Type} (id : ℕ) (tr : Trace M E) : List Entry := tr.filterMap (entryFor id)

/-- The bytes of the successful calls in one direction. -/
def bytes (dir : Direction) (l : List Entry) : ℕ :=
  (l.map fun x => if x.dir = dir then x.r.getD 0 else 0).sum

/-- How many calls have failed. -/
def errors (l : List Entry) : ℕ := l.countP fun x => x.r.isNone

/-- The time of the last call of a kind; 0 if there is none. -/
def lastTime (p : Entry → Bool) (l : List Entry) : Int :=
  ((l.filter p).getLast?.map (·.now)).getD 0

def Entry.succeeded (dir : Direction) (x : Entry) : Bool := x.dir = dir ∧ x.r.isSome

def Entry.failed (x : Entry) : Bool := x.r.isNone

/-- The clock does not run backwards, nor start before the Epoch. -/
def InOrder {M E : Type} (tr : Trace M E) : Prop :=
  (tr.filterMap (·.act.2.now)).Pairwise (· ≤ ·) ∧ ∀ now ∈ tr.filterMap (·.act.2.now), 0 ≤ now

/-- The counters agree with a ledger. -/
structure Counts (l : List Entry) (x : TunnelStats) : Prop where
  rxc : x.rxc = .ofNat 64 (bytes .rx l)
  txc : x.txc = .ofNat 64 (bytes .tx l)
  errorc : x.errorc = .ofNat 64 (errors l)

/-- The times agree with a ledger. -/
structure Times (l : List Entry) (x : TunnelStats) : Prop where
  lastRecvTime : x.lastRecvTime = lastTime (Entry.succeeded .rx) l
  lastSendTime : x.lastSendTime = lastTime (Entry.succeeded .tx) l
  lastErrorTime : x.lastErrorTime = lastTime Entry.failed l

section Ledger

variable {stats : List TunnelStats} {l : List Entry} {x : Entry} {y : TunnelStats}

theorem bytes_snoc (dir : Direction) (l : List Entry) (x : Entry) :
    bytes dir (l ++ [x]) = bytes dir l + if x.dir = dir then x.r.getD 0 else 0 := by
  simp [bytes]

theorem errors_snoc (l : List Entry) (x : Entry) :
    errors (l ++ [x]) = errors l + if x.r.isNone then 1 else 0 := by
  unfold errors
  rw [List.countP_append, List.countP_singleton]

theorem lastTime_snoc (p : Entry → Bool) (l : List Entry) (x : Entry) :
    lastTime p (l ++ [x]) = if p x then x.now else lastTime p l := by
  unfold lastTime
  rw [List.filter_append]
  split_ifs with hp <;> simp [hp]

/-- No time in a ledger is later than the clock. -/
theorem lastTime_le (p : Entry → Bool) {now : Int} (h0 : 0 ≤ now) (hle : ∀ x ∈ l, x.now ≤ now) :
    lastTime p l ≤ now := by
  unfold lastTime
  cases hlast : (l.filter p).getLast? with
  | none => exact h0
  | some x => exact hle x (List.mem_filter.1 (List.mem_of_getLast? hlast)).1

/-- What an entry adds to the counters of its queue. -/
theorem counts_update (x : Entry) (y : TunnelStats) :
    (x.update y).rxc = y.rxc + .ofNat 64 (if x.dir = .rx then x.r.getD 0 else 0) ∧
      (x.update y).txc = y.txc + .ofNat 64 (if x.dir = .tx then x.r.getD 0 else 0) ∧
      (x.update y).errorc = y.errorc + .ofNat 64 (if x.r.isNone then 1 else 0) := by
  obtain ⟨id, q, dir, r, now⟩ := x
  cases dir <;> cases r <;>
    simp [Entry.update, TunnelStats.afterSend, TunnelStats.afterWrite]

/-- The times of its queue after an entry. -/
theorem times_update (x : Entry) (y : TunnelStats) :
    (x.update y).lastRecvTime = (if Entry.succeeded .rx x then x.now else y.lastRecvTime) ∧
      (x.update y).lastSendTime = (if Entry.succeeded .tx x then x.now else y.lastSendTime) ∧
      (x.update y).lastErrorTime = if Entry.failed x then x.now else y.lastErrorTime := by
  obtain ⟨id, q, dir, r, now⟩ := x
  cases dir <;> cases r <;>
    simp [Entry.update, TunnelStats.afterSend, TunnelStats.afterWrite, Entry.succeeded, Entry.failed]

/-- **An entry is counted in the totals.** -/
theorem Counts.snoc (h : Counts l (stats.foldl .addQueue {})) (hq : stats[x.queueId]? = some y) :
    Counts (l ++ [x]) ((stats.set x.queueId (x.update y)).foldl .addQueue {}) := by
  rw [foldl_addQueue] at h ⊢
  obtain ⟨hrx, htx, herr⟩ := counts_update x y
  constructor
  · show total (·.rxc) (stats.set x.queueId (x.update y)) = _
    rw [total_set _ _ hq hrx, bytes_snoc, BitVec.ofNat_add]
    exact congrArg (· + _) h.rxc
  · show total (·.txc) (stats.set x.queueId (x.update y)) = _
    rw [total_set _ _ hq htx, bytes_snoc, BitVec.ofNat_add]
    exact congrArg (· + _) h.txc
  · show total (·.errorc) (stats.set x.queueId (x.update y)) = _
    rw [total_set _ _ hq herr, errors_snoc, BitVec.ofNat_add]
    exact congrArg (· + _) h.errorc

/-- A time of the totals after an entry. -/
theorem latestOf_snoc {f : TunnelStats → Int} {p : Entry → Bool} (h : latestOf f stats = lastTime p l)
    (hq : stats[x.queueId]? = some y) (hf : f (x.update y) = if p x then x.now else f y)
    (h0 : 0 ≤ x.now) (hle : ∀ z ∈ l, z.now ≤ x.now) :
    latestOf f (stats.set x.queueId (x.update y)) = lastTime p (l ++ [x]) := by
  have hlt : x.queueId < stats.length := (List.getElem?_eq_some_iff.1 hq).1
  rw [lastTime_snoc]
  split_ifs at hf ⊢ with hp
  · rw [latestOf_set f hlt ?_, hf]
    rw [h, hf]
    exact lastTime_le p h0 hle
  · rw [latestOf_set_same f hq hf, h]

/-- **An entry is dated in the totals**, if the clock has not run backwards. -/
theorem Times.snoc (h : Times l (stats.foldl .addQueue {})) (hq : stats[x.queueId]? = some y)
    (h0 : 0 ≤ x.now) (hle : ∀ z ∈ l, z.now ≤ x.now) :
    Times (l ++ [x]) ((stats.set x.queueId (x.update y)).foldl .addQueue {}) := by
  rw [foldl_addQueue] at h ⊢
  obtain ⟨hrecv, hsend, herr⟩ := times_update x y
  constructor
  · exact latestOf_snoc h.lastRecvTime hq hrecv h0 hle
  · exact latestOf_snoc h.lastSendTime hq hsend h0 hle
  · exact latestOf_snoc h.lastErrorTime hq herr h0 hle

theorem counts_nil (n : ℕ) : Counts [] ((List.replicate n {}).foldl .addQueue {}) := by
  rw [foldl_addQueue]
  constructor <;> simp [total, bytes, errors]

theorem times_nil (n : ℕ) : Times [] ((List.replicate n {}).foldl .addQueue {}) := by
  have hzero : ∀ f : TunnelStats → Int, f {} = 0 → latestOf f (List.replicate n {}) = 0 := by
    intro f hf
    refine le_antisymm (foldl_max_le_iff.2 ⟨le_rfl, fun t ht => ?_⟩) (foldl_max_le_iff.1 le_rfl).1
    rw [List.map_replicate, hf] at ht
    exact (List.eq_of_mem_replicate ht).le
  rw [foldl_addQueue]
  constructor <;> exact hzero _ rfl

end Ledger

/-! ### Steps -/

/-- The devices keep their statistics; a new one starts with none. -/
structure StatsKept {M : Type} (t t' : Tunnel M) : Prop where
  numQueues : t'.numQueues = t.numQueues
  numTapDevs : t.numTapDevs ≤ t'.numTapDevs
  old : ∀ i : ℕ, i < t.numTapDevs → t'.statsOf i = t.statsOf i
  new : ∀ i : ℕ, t.numTapDevs ≤ i → i < t'.numTapDevs →
    t'.statsOf i = some (List.replicate t.numQueues {})

section Steps

variable {M E : Type} {ops : MapOps M E} {s s' s₀ : Sys M} {w : ℕ} {a : Action E} {t t' : Tunnel M}
  {tr : Trace M E} {id : ℕ} {x : Entry}

theorem statsKept_of_devs (hn : t'.numQueues = t.numQueues) (hnum : t'.numTapDevs = t.numTapDevs)
    (hdev : ∀ i : ℕ, i < t.numTapDevs → t'.dev i = t.dev i) : StatsKept t t' := by
  refine ⟨hn, hnum.ge, fun i hi => ?_, fun i hi hi' => ?_⟩
  · unfold Tunnel.statsOf
    rw [hdev i hi]
  · omega

theorem StatsKept.rfl : StatsKept t t := statsKept_of_devs (by rfl) (by rfl) fun _ _ => by rfl

/-- **`tunnel_alloc_new_tap` keeps the statistics.** -/
theorem statsKept_of_allocNewTap {env : AllocTapEnv} {epoll epoll' : EpollSets} {e : Endpoint}
    {r : Option ℕ} (hle : t.numTapDevs ≤ t.tapDevs.length)
    (h : tunnelAllocNewTap env t epoll e = .ret r t' epoll') : StatsKept t t' := by
  rcases allocNewTap_cases t env epoll e with ⟨-, hret⟩ | ⟨t₁, hg, hcase⟩
  · rw [hret] at h
    injection h with _ ht
    exact ht ▸ StatsKept.rfl
  · have hgrow := (growTapDevs_dev hle hg).2
    obtain ⟨hext, -, hnum, hlt⟩ := growTapDevs_spec hle hg
    have hset : ∀ d, ∀ i : ℕ, i < t.numTapDevs → (t₁.setDev t₁.numTapDevs d).dev i = t.dev i := by
      intro d i hi
      rw [dev_setDev, if_neg (by omega), hgrow i hi]
    rcases hcase with ⟨-, hret⟩ | ⟨-, hret | ⟨fds, epoll₁, ok, -, ⟨-, hret⟩ | ⟨-, hret⟩⟩⟩ <;>
      rw [hret] at h
    · cases h
    · cases h
    · injection h with _ ht
      subst ht
      exact statsKept_of_devs hext.numQueues hnum (hset _)
    · injection h with _ ht
      subst ht
      refine ⟨hext.numQueues, by rw [← hnum]; exact Nat.le_succ _, fun i hi => ?_, fun i hi hi' => ?_⟩
      · exact congrArg (Option.bind · _) (hset _ i hi)
      · have hi'' : i < t₁.numTapDevs + 1 := hi'
        obtain rfl : i = t₁.numTapDevs := by omega
        show ((t₁.setDev t₁.numTapDevs _).dev t₁.numTapDevs).bind _ = _
        rw [dev_setDev, if_pos rfl, dev_natCast, List.getElem?_eq_getElem hlt, hext.numQueues]
        rfl

/-- **What a step does to the statistics**: it makes an entry, or nothing. -/
theorem StepOf.entry_cases (hs : StepOf ops s w a s')
    (hle : s.tunnel.numTapDevs ≤ s.tunnel.tapDevs.length) :
    (∃ x pc, s.entry w a = some x ∧ a.now = some x.now ∧ x.queueId = (s.workers w).queueId ∧
        s' = s.account w x.id x.update pc) ∨
      (s.entry w a = none ∧ StatsKept s.tunnel s'.tunnel) := by
  have hnone : (∀ frame dst r now, a ≠ .sendto frame dst r now) →
      (∀ fd b r now, a ≠ .write fd b r now) → s.entry w a = none := by
    intro hsend hwrite
    unfold Sys.entry
    split
    · exact absurd rfl (hsend _ _ _ _)
    · exact absurd rfl (hwrite _ _ _ _)
    · rfl
  cases hs with
  | sendto tev rest frame dst r now hpc =>
    refine .inl ⟨⟨tev.tapId.toInt, (s.workers w).queueId, .tx, r, now⟩, _, ?_, rfl, rfl, rfl⟩
    unfold Sys.entry
    rw [hpc]
  | write tev rest id d fd r now hpc =>
    refine .inl ⟨⟨id, (s.workers w).queueId, .rx, r, now⟩, _, ?_, rfl, rfl, rfl⟩
    unfold Sys.entry
    rw [hpc]
  | allocFail tev rest d env t epoll hpc halloc =>
    exact .inr ⟨hnone nofun nofun, statsKept_of_allocNewTap hle halloc⟩
  | alloc tev rest d env id t epoll hpc halloc =>
    exact .inr ⟨hnone nofun nofun, statsKept_of_allocNewTap hle halloc⟩
  | start => exact .inr ⟨hnone nofun nofun, statsKept_of_devs rfl rfl fun _ _ => rfl⟩
  | add => exact .inr ⟨hnone nofun nofun, statsKept_of_devs rfl rfl fun _ _ => rfl⟩
  | dieInMap tev rest p a hpc ha =>
    rcases ha with ⟨env, e, rfl, -⟩ | ⟨env, e, id, rfl, -⟩
    · exact .inr ⟨hnone nofun nofun, .rfl⟩
    · exact .inr ⟨hnone nofun nofun, .rfl⟩
  | _ => exact .inr ⟨hnone nofun nofun, .rfl⟩

/-- An entry for a device that is there updates the statistics of its queue. -/
theorem statsOf_account {stats : List TunnelStats} {y : TunnelStats}
    (f : TunnelStats → TunnelStats) (pc : Pc) (hstats : s.tunnel.statsOf id = some stats)
    (hy : stats[(s.workers w).queueId]? = some y) :
    (s.account w id f pc).tunnel.statsOf id = some (stats.set (s.workers w).queueId (f y)) := by
  obtain ⟨d, hd, hds⟩ := Option.bind_eq_some_iff.1 hstats
  have hup : s.tunnel.updateStats id (s.workers w).queueId f =
      some (s.tunnel.setDev id { d with stats := some (stats.set (s.workers w).queueId (f y)) }) := by
    unfold Tunnel.updateStats
    rw [hd, Option.bind_some, hds, Option.bind_some, hy]
    rfl
  unfold Sys.account
  rw [hup]
  show ((s.tunnel.setDev id _).dev id).bind _ = _
  rw [dev_setDev, if_pos rfl, hd]
  rfl

/-- It leaves every other device alone. -/
theorem statsOf_account_ne {i : Int} {f : TunnelStats → TunnelStats} {pc : Pc} (hne : i ≠ id) :
    (s.account w i f pc).tunnel.statsOf id = s.tunnel.statsOf id := by
  unfold Sys.account
  cases hu : s.tunnel.updateStats i (s.workers w).queueId f with
  | none => rfl
  | some t =>
    obtain ⟨j, d, stats, x, rfl, -, -, -, rfl⟩ := updateStats_eq_some hu
    show ((s.tunnel.setDev j _).dev id).bind _ = _
    rw [dev_setDev, if_neg hne.symm]
    rfl

theorem ledger_snoc (id : ℕ) (tr : Trace M E) (e : Event (Sys M) (ℕ × Action E)) :
    ledger id (tr ++ [e]) = ledger id tr ++ (entryFor id e).toList := by
  unfold ledger
  rw [List.filterMap_append]
  congr 1

theorem entryFor_eq_some {e : Event (Sys M) (ℕ × Action E)} :
    entryFor id e = some x ↔ e.pre.entry e.act.1 e.act.2 = some x ∧ x.id = id ∧
      id < e.pre.tunnel.numTapDevs := by
  unfold entryFor
  rw [Option.filter_eq_some_iff]
  simp

/-- What is known of the statistics of a device. -/
structure DevStats (tr : Trace M E) (t : Tunnel M) (id : ℕ) (stats : List TunnelStats) : Prop where
  statsOf : t.statsOf id = some stats
  length : stats.length = t.numQueues
  counts : Counts (ledger id tr) (stats.foldl .addQueue {})
  times : InOrder tr → Times (ledger id tr) (stats.foldl .addQueue {})

/-- **The invariant of the statistics.** -/
structure StatInv (tr : Trace M E) (s : Sys M) : Prop where
  queue : QueueInv s
  dev : ∀ id : ℕ, id < s.tunnel.numTapDevs → ∃ stats, DevStats tr s.tunnel id stats
  new : ∀ id : ℕ, s.tunnel.numTapDevs ≤ id → ledger id tr = []
  dated : ∀ id : ℕ, ∀ x ∈ ledger id tr, x.now ∈ tr.filterMap (·.act.2.now)
  writer : ∀ e ∈ tr, ∀ x, e.pre.entry e.act.1 e.act.2 = some x →
    (s.workers e.act.1).pc ≠ .start ∧ (s.workers e.act.1).queueId = x.queueId

theorem QueueInv.lt_numQueues (h : QueueInv s) (hw : (s.workers w).pc ≠ .start) :
    (s.workers w).queueId < s.tunnel.numQueues := by
  have hcard : s.started.card ≤ s.tunnel.numQueues := by
    have hle := Finset.card_filter_le (Finset.range s.tunnel.numQueues)
      fun w => (s.workers w).pc ≠ .start
    rwa [Finset.card_range] at hle
  have hlt := h.lt w hw
  have hcount := h.count
  omega

theorem inOrder_snoc {e : Event (Sys M) (ℕ × Action E)} (h : InOrder (tr ++ [e])) : InOrder tr ∧
    ∀ now, e.act.2.now = some now → 0 ≤ now ∧ ∀ t ∈ tr.filterMap (·.act.2.now), t ≤ now := by
  obtain ⟨hsorted, hpos⟩ := h
  rw [List.filterMap_append] at hsorted hpos
  obtain ⟨hprev, -, hlast⟩ := List.pairwise_append.1 hsorted
  refine ⟨⟨hprev, fun now hnow => hpos now (List.mem_append_left _ hnow)⟩, fun now hnow => ?_⟩
  have hmem : now ∈ [e].filterMap (·.act.2.now) := by simp [hnow]
  exact ⟨hpos now (List.mem_append_right _ hmem), fun t ht => hlast t ht now hmem⟩

/-- An entry leads to the queue of its worker. -/
theorem Sys.entry_worker (h : s.entry w a = some x) :
    (s.workers w).pc ≠ .start ∧ (s.workers w).queueId = x.queueId := by
  unfold Sys.entry at h
  split at h
  case h_1 hpc =>
    rw [← Option.some.inj h, hpc]
    exact ⟨nofun, rfl⟩
  case h_2 hpc =>
    rw [← Option.some.inj h, hpc]
    exact ⟨nofun, rfl⟩
  case h_3 => cases h

theorem entryFor_of_none {e : Event (Sys M) (ℕ × Action E)}
    (h : e.pre.entry e.act.1 e.act.2 = none) : entryFor id e = none := by
  unfold entryFor
  rw [h]
  rfl

theorem StatInv.init (h : QueueInv s) (hnew : ∀ id : ℕ, id < s.tunnel.numTapDevs →
    s.tunnel.statsOf id = some (List.replicate s.tunnel.numQueues {})) :
    StatInv ([] : Trace M E) s where
  queue := h
  dev id hid := ⟨_, hnew id hid, List.length_replicate, counts_nil _, fun _ => times_nil _⟩
  new _ _ := rfl
  dated _ _ hx := absurd hx List.not_mem_nil
  writer _ he := absurd he List.not_mem_nil

/-- A device for which a step makes no entry. -/
theorem DevStats.idle {stats : List TunnelStats} {e : Event (Sys M) (ℕ × Action E)}
    (h : DevStats tr t id stats) (hstats : t'.statsOf id = t.statsOf id)
    (hn : t'.numQueues = t.numQueues) (he : entryFor id e = none) :
    DevStats (tr ++ [e]) t' id stats := by
  have hledger : ledger id (tr ++ [e]) = ledger id tr := by
    rw [ledger_snoc, he]
    exact List.append_nil _
  exact ⟨hstats.trans h.statsOf, h.length.trans hn.symm, hledger ▸ h.counts,
    fun ho => hledger ▸ h.times (inOrder_snoc ho).1⟩

/-- A device for which a step makes an entry. -/
theorem DevStats.entry {stats : List TunnelStats} {y : TunnelStats}
    {e : Event (Sys M) (ℕ × Action E)} (h : DevStats tr t id stats)
    (hdated : ∀ z ∈ ledger id tr, z.now ∈ tr.filterMap (·.act.2.now))
    (hy : stats[x.queueId]? = some y)
    (hstats : t'.statsOf id = some (stats.set x.queueId (x.update y)))
    (hn : t'.numQueues = t.numQueues) (he : entryFor id e = some x)
    (hnow : e.act.2.now = some x.now) :
    DevStats (tr ++ [e]) t' id (stats.set x.queueId (x.update y)) := by
  have hledger : ledger id (tr ++ [e]) = ledger id tr ++ [x] := by
    rw [ledger_snoc, he]
    rfl
  refine ⟨hstats, by rw [List.length_set, h.length, hn], ?_, fun ho => ?_⟩
  · rw [hledger]
    exact h.counts.snoc hy
  · obtain ⟨hprev, hlast⟩ := inOrder_snoc ho
    obtain ⟨h0, hle⟩ := hlast _ hnow
    rw [hledger]
    exact (h.times hprev).snoc hy h0 fun z hz => hle _ (hdated z hz)

/-- Every device has statistics for the queue of an entry. -/
theorem StatInv.exists_slot (h : StatInv tr s) {stats : List TunnelStats}
    (hx : s.entry w a = some x) (hd : DevStats tr s.tunnel id stats) :
    ∃ y, stats[(s.workers w).queueId]? = some y := by
  have hlt := h.queue.lt_numQueues (Sys.entry_worker hx).1
  rw [← hd.length] at hlt
  exact ⟨_, List.getElem?_eq_getElem hlt⟩

/-- The devices after a step. -/
theorem StatInv.devs_snoc (h : StatInv tr s) (hs : StepOf ops s w a s')
    (hid : id < s'.tunnel.numTapDevs) :
    ∃ stats, DevStats (tr ++ [⟨s, (w, a), s'⟩]) s'.tunnel id stats := by
  have hn := (hs.extends h.queue.size).numQueues
  rcases hs.entry_cases h.queue.size with ⟨x, pc, hx, hnow, hq, rfl⟩ | ⟨hnone, hkept⟩
  · have hnum : id < s.tunnel.numTapDevs := by
      rcases s.account_cases w x.id x.update pc with he | ⟨t, ht, he⟩ <;> rw [he] at hid
      · exact hid
      · exact ht.numTapDevs ▸ hid
    obtain ⟨stats, hd⟩ := h.dev id hnum
    rcases eq_or_ne x.id id with hid' | hne
    · obtain ⟨y, hy⟩ := h.exists_slot hx hd
      have hset := statsOf_account x.update pc hd.statsOf hy
      rw [← hq] at hy hset
      refine ⟨_, hd.entry (h.dated id) hy ?_ hn (entryFor_eq_some.2 ⟨hx, hid', hnum⟩) hnow⟩
      rwa [hid']
    · refine ⟨stats, hd.idle (statsOf_account_ne hne) hn ?_⟩
      refine Option.eq_none_iff_forall_ne_some.2 fun z hz => ?_
      obtain ⟨hz, hzid, -⟩ := entryFor_eq_some.1 hz
      obtain rfl := Option.some.inj (hx.symm.trans hz)
      exact hne hzid
  · rcases Nat.lt_or_ge id s.tunnel.numTapDevs with hold | hnew
    · obtain ⟨stats, hd⟩ := h.dev id hold
      exact ⟨stats, hd.idle (hkept.old id hold) hn (entryFor_of_none hnone)⟩
    · have hledger : ledger id (tr ++ [⟨s, (w, a), s'⟩]) = [] := by
        rw [ledger_snoc, entryFor_of_none hnone, h.new id hnew]
        rfl
      refine ⟨_, hkept.new id hnew hid, by rw [List.length_replicate, hn], ?_, fun _ => ?_⟩
      · rw [hledger]
        exact counts_nil _
      · rw [hledger]
        exact times_nil _

/-- A worker that has made an entry keeps its queue. -/
theorem StatInv.writer_step (h : StatInv tr s) (hs : StepOf ops s w a s') {v q : ℕ}
    (hpc : (s.workers v).pc ≠ .start) (hq : (s.workers v).queueId = q) :
    (s'.workers v).pc ≠ .start ∧ (s'.workers v).queueId = q := by
  rcases eq_or_ne v w with rfl | hne
  · rcases hs.queue_cases h.queue.size with ⟨hstart, -⟩ | ⟨-, hq', -⟩
    · exact absurd hstart hpc
    · exact ⟨hs.pc_ne_start, hq'.trans hq⟩
  · rw [hs.workers_ne hne]
    exact ⟨hpc, hq⟩

/-- **Every step keeps the invariant.** -/
theorem StatInv.snoc (h : StatInv tr s) (hstep : Step ops s (w, a) s') :
    StatInv (tr ++ [⟨s, (w, a), s'⟩]) s' := by
  obtain ⟨-, -, hs⟩ := hstep.stepOf
  have hnum := (hs.extends h.queue.size).numTapDevs
  refine ⟨h.queue.step hstep, fun id hid => h.devs_snoc hs hid, fun id hid => ?_,
    fun id x hx => ?_, fun e he x hx => ?_⟩
  · have hnone : entryFor id ⟨s, (w, a), s'⟩ = none := by
      refine Option.eq_none_iff_forall_ne_some.2 fun x hx => ?_
      have hlt : id < s.tunnel.numTapDevs := (entryFor_eq_some.1 hx).2.2
      omega
    rw [ledger_snoc, h.new id (hnum.trans hid), hnone]
    rfl
  · rw [ledger_snoc] at hx
    rw [List.filterMap_append]
    rcases List.mem_append.1 hx with hx | hx
    · exact List.mem_append_left _ (h.dated id x hx)
    · obtain ⟨hentry, -⟩ := entryFor_eq_some.1 (Option.mem_toList.1 hx)
      rcases hs.entry_cases h.queue.size with ⟨x', pc, hx', hnow, -⟩ | ⟨hnone, -⟩
      · obtain rfl := Option.some.inj (hentry.symm.trans hx')
        exact List.mem_append_right _ (by simp [hnow])
      · exact absurd (hnone.symm.trans hentry) nofun
  · rcases List.mem_append.1 he with he | he
    · obtain ⟨hpc, hq⟩ := h.writer e he x hx
      exact h.writer_step hs hpc hq
    · obtain rfl := List.mem_singleton.1 he
      obtain ⟨hpc, hq⟩ := Sys.entry_worker hx
      exact h.writer_step hs hpc hq

/-- **Every run keeps the invariant.** -/
theorem statInv {env : CreateEnv E} {params : TunnelParams}
    (hcreate : tunnelCreate ops env params = .created s₀) (hrun : Run (Step ops) s₀ tr s) :
    StatInv tr s := by
  induction hrun with
  | nil =>
    refine .init (queueInv_created hcreate) fun id hid => ?_
    obtain ⟨t, -, hnum, rfl | ⟨epoll, e, r, halloc⟩⟩ := alloc_of_created hcreate
    · omega
    · have hkept := statsKept_of_allocNewTap (by omega) halloc
      rw [hkept.new id (by omega) hid, hkept.numQueues]
  | snoc _ hstep ih => exact ih.snoc hstep

/-- The statistics of queue `q` of the device `id`. -/
def Tunnel.slot (t : Tunnel M) (id q : ℕ) : Option TunnelStats := (t.statsOf id).bind (·[q]?)

/-- A step that writes the statistics of queue `q` of the device `id`, or changes them in
whatever way. -/
def WritesSlot (e : Event (Sys M) (ℕ × Action E)) (id q : ℕ) : Prop :=
  (∃ x, e.pre.entry e.act.1 e.act.2 = some x ∧ x.id = id ∧ x.queueId = q) ∨
    (id < e.pre.tunnel.numTapDevs ∧ e.post.tunnel.slot id q ≠ e.pre.tunnel.slot id q)

/-- Only entries write statistics, each those of the queue of its worker. -/
theorem StatInv.of_writesSlot (h : StatInv tr s) (hs : StepOf ops s w a s') {q : ℕ}
    (hw : WritesSlot ⟨s, (w, a), s'⟩ id q) : ∃ x, s.entry w a = some x ∧ x.queueId = q := by
  rcases hw with ⟨x, hx, -, hq⟩ | ⟨hid, hne⟩
  · exact ⟨x, hx, hq⟩
  · rcases hs.entry_cases h.queue.size with ⟨x, pc, hx, -, hq, rfl⟩ | ⟨-, hkept⟩
    · refine ⟨x, hx, ?_⟩
      by_contra hqne
      refine hne ?_
      unfold Tunnel.slot
      rcases eq_or_ne x.id id with heq | hidne
      · obtain ⟨stats, hd⟩ := h.dev id hid
        obtain ⟨y, hy⟩ := h.exists_slot hx hd
        have hset := statsOf_account x.update pc hd.statsOf hy
        show ((s.account w x.id x.update pc).tunnel.statsOf id).bind _ = _
        rw [hq] at hqne
        rw [heq, hset, hd.statsOf, Option.bind_some, Option.bind_some, List.getElem?_set_ne hqne]
      · show ((s.account w x.id x.update pc).tunnel.statsOf id).bind _ = _
        rw [statsOf_account_ne hidne]
    · refine absurd ?_ hne
      unfold Tunnel.slot
      exact congrArg (Option.bind · _) (hkept.old id hid)

end Steps

/-- **Statistics are conserved.**  `worker_thread` accounts for each `write` and `sendto` in the
block of its own queue, without a lock, and `tunnel_print_stats` adds the blocks up.  No block
is written by two workers, so in every run the totals of a device agree with the calls that
were made for it: bytes, packets and errors, and the time of the last one when the clock did
not go back. -/
theorem statistics {M E : Type} (ops : MapOps M E) (env : CreateEnv E) (params : TunnelParams)
    (s₀ s : Sys M) (tr : Trace M E) (hcreate : tunnelCreate ops env params = .created s₀)
    (hrun : Run (Step ops) s₀ tr s) :
    (∀ id : ℕ, id < s.tunnel.numTapDevs → ∃ x, tunnelPrintStats s.tunnel id = some x ∧
      Counts (ledger id tr) x ∧ (InOrder tr → Times (ledger id tr) x)) ∧
    ∀ e ∈ tr, ∀ e' ∈ tr, ∀ id q, WritesSlot e id q → WritesSlot e' id q → e.act.1 = e'.act.1 := by
  have hinv := statInv hcreate hrun
  constructor
  · intro id hid
    obtain ⟨stats, hd⟩ := hinv.dev id hid
    refine ⟨_, ?_, hd.counts, hd.times⟩
    unfold tunnelPrintStats
    rw [hd.statsOf, Option.bind_some, if_pos hd.length.ge, ← hd.length, List.take_length]
  · have hwriter : ∀ e ∈ tr, ∀ id q, WritesSlot e id q →
        (s.workers e.act.1).pc ≠ .start ∧ (s.workers e.act.1).queueId = q := by
      intro e he id q hw
      obtain ⟨tr₁, tr₂, rfl⟩ := List.append_of_mem he
      obtain ⟨hpre, hstep, -⟩ := hrun.cut
      obtain ⟨x, hx, rfl⟩ := (statInv hcreate hpre).of_writesSlot hstep.stepOf.2.2 hw
      exact hinv.writer e he x hx
    intro e he e' he' id q hw hw'
    obtain ⟨hpc, hq⟩ := hwriter e he id q hw
    obtain ⟨hpc', hq'⟩ := hwriter e' he' id q hw'
    exact hinv.queue.inj _ _ hpc hpc' (hq.trans hq'.symm)

/-- A device whose worker writes a frame of 60 bytes to it at time 5. -/
theorem statistics_written : ∃ s₀ s tr x,
    tunnelCreate finiteMapOps (openEnv ()) (openParams 2) = .created s₀ ∧
      Run (Step finiteMapOps) s₀ tr s ∧ tunnelPrintStats s.tunnel (0 : ℕ) = some x ∧
      x.rxc = 60 ∧ x.lastRecvTime = 5 ∧ Counts (ledger 0 tr) x := by
  have hreplay : ∃ s₀, tunnelCreate finiteMapOps (openEnv ()) (openParams 2) = .created s₀ ∧
      ∃ s, replay finiteMapOps s₀ 0 (wakeActions Unit ++ [.recvfrom (some ⟨true, switchHost 2, []⟩),
        .lookup (), .unlock, .wrlock, .lookup (), .allocNewTap (quietAlloc (40 + ·)), .mapAdd (),
        .write 40 [] (some 60) 5]) = some s ∧ s.tunnel.numTapDevs = 1 ∧
        ∃ x, tunnelPrintStats s.tunnel (0 : ℕ) = some x ∧ x.rxc = 60 ∧ x.lastRecvTime = 5 :=
    ⟨_, rfl, _, rfl, rfl, _, rfl, rfl, rfl⟩
  obtain ⟨s₀, hcreate, s, hexec, hnum, x, hx, hrxc, htime⟩ := hreplay
  obtain ⟨tr, hrun, -⟩ := run_of_exec hexec
  obtain ⟨x', hx', hcounts, -⟩ :=
    (statistics finiteMapOps (openEnv ()) (openParams 2) s₀ s tr hcreate hrun).1 0 (by omega)
  obtain rfl := Option.some.inj (hx.symm.trans hx')
  exact ⟨s₀, s, tr, x, hcreate, hrun, hx, hrxc, htime, hcounts⟩

end UdpEthTunnel
