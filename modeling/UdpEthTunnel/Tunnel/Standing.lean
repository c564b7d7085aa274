/-
# What is held while a tunnel is created

`tunnel_create` opens a descriptor for each queue in two loops (`openEach`), and
`tunnel_delete` closes an array of descriptors in a third (`closeAll`).  Between its parts,
a tunnel that is built up holds what its fields name, and a few things that no field names
(`Standing`).

`tunnel_delete` releases what the fields name, except for a descriptor that is 0
(`Standing.delete`).
-/

import Mathlib.Data.List.Nodup
import UdpEthTunnel.Tunnel.CreateLog

namespace UdpEthTunnel

open Tunnel Ledger

/-- Each of `n` queues gets its descriptor, and it is made ready. -/
def AllOpen (create : ℕ → Option Fd) (ready : ℕ → Bool) (n : ℕ) : Prop :=
  ∀ q < n, create q ≠ none ∧ ready q = true

/-- Queue `q` is one of `n`, and gets the descriptor `fd`, to `keep` or if it is made ready;
the queues before it have theirs. -/
structure Opened (create : ℕ → Option Fd) (ready : ℕ → Bool) (keep : Bool) (n q : ℕ) (fd : Fd) :
    Prop where
  lt : q < n
  before : AllOpen create ready q
  made : create q = some fd
  kept : ready q = true ∨ keep = true

/-! ### The loops over the queues -/

section Loops

variable {create : ℕ → Option Fd} {ready : ℕ → Bool} {res : ℕ → Fd → Resource} {keep ok : Bool}
  {q n : ℕ} {log log₀ : List (Entry Resource)} {fds : List Fd} {P : Resource → Prop}

/-- The rounds of the loop, from queue `q` on. -/
theorem openEach_cases (create : ℕ → Option Fd) (ready : ℕ → Bool) (res : ℕ → Fd → Resource)
    (keep : Bool) (q n : ℕ) :
    (create q = none ∧ openEach create ready res keep q (n + 1) = ([], [], false)) ∨
    ∃ fd, create q = some fd ∧
      ((ready q = true ∧ ∃ log fds ok, openEach create ready res keep (q + 1) n = (log, fds, ok) ∧
          openEach create ready res keep q (n + 1) = (.acquire (res q fd) :: log, fd :: fds, ok)) ∨
        (ready q = false ∧ keep = true ∧
          openEach create ready res keep q (n + 1) = ([.acquire (res q fd)], [fd], false)) ∨
        (ready q = false ∧ keep = false ∧ openEach create ready res keep q (n + 1) =
          ([.acquire (res q fd), .release (res q fd)], [], false))) := by
  simp only [openEach]
  cases hc : create q with
  | none => exact .inl ⟨rfl, rfl⟩
  | some fd =>
    refine .inr ⟨fd, rfl, ?_⟩
    cases hr : ready q with
    | true =>
      rcases hrest : openEach create ready res keep (q + 1) n with ⟨log, fds, ok⟩
      exact .inl ⟨rfl, log, fds, ok, rfl, rfl⟩
    | false => cases keep <;> simp

/-- **Which descriptors the loop opens.** -/
theorem openEach_spec (h : openEach create ready res keep q n = (log, fds, ok)) :
    (ok = true ↔ ∀ j < n, create (q + j) ≠ none ∧ ready (q + j) = true) ∧
      ∀ j fd, fds[j]? = some fd ↔ j < n ∧
        (∀ i < j, create (q + i) ≠ none ∧ ready (q + i) = true) ∧ create (q + j) = some fd ∧
        (ready (q + j) = true ∨ keep = true) := by
  induction n generalizing q log fds ok with
  | zero =>
    obtain ⟨rfl, rfl, rfl⟩ : [] = log ∧ [] = fds ∧ true = ok := by simpa [openEach] using h
    simp
  | succ n ih =>
    have hshift : ∀ i, q + 1 + i = q + (i + 1) := fun i => by omega
    have hsplit : ∀ k, (∀ i < k + 1, create (q + i) ≠ none ∧ ready (q + i) = true) ↔
        (create q ≠ none ∧ ready q = true) ∧
          ∀ i < k, create (q + (i + 1)) ≠ none ∧ ready (q + (i + 1)) = true := fun k =>
      Nat.forall_lt_succ_left
    rcases openEach_cases create ready res keep q n with ⟨hnone, he⟩ | ⟨fd, hfd,
      ⟨hready, log', fds', ok', hrest, he⟩ | ⟨hready, hkeep, he⟩ | ⟨hready, hkeep, he⟩⟩ <;>
      rw [he] at h <;> cases h
    · refine ⟨by rw [hsplit]; simp [hnone], fun j fd => ?_⟩
      cases j with
      | zero => simp [hnone]
      | succ j => rw [hsplit]; simp [hnone]
    · obtain ⟨hok, hfds⟩ := ih hrest
      simp only [hshift] at hok hfds
      refine ⟨by rw [hsplit, hok]; simp [hfd, hready], fun j fd' => ?_⟩
      cases j with
      | zero => simp [hfd, hready]
      | succ j => rw [hsplit, List.getElem?_cons_succ, hfds]; simp [hfd, hready]
    · refine ⟨by rw [hsplit]; simp [hready], fun j fd' => ?_⟩
      cases j with
      | zero => simp [hfd, hkeep]
      | succ j => rw [hsplit]; simp [hready]
    · refine ⟨by rw [hsplit]; simp [hready], fun j fd' => ?_⟩
      cases j with
      | zero => simp [hready, hkeep]
      | succ j => rw [hsplit]; simp [hready]

/-- The loop over all the queues. -/
theorem openEach_all (h : openEach create ready res keep 0 n = (log, fds, ok)) :
    (ok = true ↔ AllOpen create ready n) ∧
      ∀ j fd, fds[j]? = some fd ↔ Opened create ready keep n j fd := by
  obtain ⟨hok, hfds⟩ := openEach_spec h
  simp only [Nat.zero_add] at hok hfds
  refine ⟨hok, fun j fd => (hfds j fd).trans ⟨?_, ?_⟩⟩
  · rintro ⟨hlt, hbefore, hmade, hkept⟩
    exact ⟨hlt, hbefore, hmade, hkept⟩
  · rintro ⟨hlt, hbefore, hmade, hkept⟩
    exact ⟨hlt, hbefore, hmade, hkept⟩

/-- **What the loop holds in the end**: the descriptors that stand in the array. -/
theorem holds_openEach (h : openEach create ready res keep q n = (log, fds, ok))
    (hlog : Holds log₀ P) (hfresh : ∀ j fd, q ≤ j → ¬ P (res j fd))
    (hinj : ∀ j j' fd fd', res j fd = res j' fd' → j = j') :
    Holds (log₀ ++ log) fun r => P r ∨ ∃ j fd, fds[j]? = some fd ∧ r = res (q + j) fd := by
  induction n generalizing q log fds ok log₀ P with
  | zero =>
    obtain ⟨rfl, rfl, rfl⟩ : [] = log ∧ [] = fds ∧ true = ok := by simpa [openEach] using h
    rw [List.append_nil]
    exact hlog.congr fun r => by simp
  | succ n ih =>
    rcases openEach_cases create ready res keep q n with ⟨-, he⟩ | ⟨fd, -, ⟨-, log', fds', ok', hrest, he⟩ |
      ⟨-, -, he⟩ | ⟨-, -, he⟩⟩ <;> rw [he] at h <;> cases h
    · rw [List.append_nil]
      exact hlog.congr fun r => by simp
    · have hfirst := hlog.acquire (hfresh q fd le_rfl)
      have hall := ih hrest hfirst (fun j fd' hj => by
        rintro (hP | heq)
        · exact hfresh j fd' (by omega) hP
        · have := hinj _ _ _ _ heq
          omega)
      rw [List.append_assoc] at hall
      refine hall.congr fun r => ?_
      rw [or_assoc]
      refine or_congr_right ⟨?_, ?_⟩
      · rintro (rfl | ⟨j, fd', hj, rfl⟩)
        · exact ⟨0, fd, rfl, rfl⟩
        · exact ⟨j + 1, fd', hj, by rw [show q + 1 + j = q + (j + 1) by omega]⟩
      · rintro ⟨j, fd', hj, rfl⟩
        cases j with
        | zero => exact .inl (by rw [Option.some.inj hj]; rfl)
        | succ j => exact .inr ⟨j, fd', hj, by rw [show q + 1 + j = q + (j + 1) by omega]⟩
    · refine (hlog.acquire (hfresh q fd le_rfl)).congr fun r => or_congr_right ⟨?_, ?_⟩
      · rintro rfl
        exact ⟨0, fd, rfl, rfl⟩
      · rintro ⟨j, fd', hj, rfl⟩
        cases j with
        | zero => rw [Option.some.inj hj]; rfl
        | succ j => cases hj
    · have hfirst := (hlog.acquire (hfresh q fd le_rfl)).release (.inr rfl)
      rw [List.append_assoc] at hfirst
      refine hfirst.congr fun r => ⟨fun h => .inl (h.1.resolve_right h.2), ?_⟩
      rintro (hP | ⟨j, fd', hj, -⟩)
      · exact ⟨.inl hP, fun heq => hfresh q fd le_rfl (heq ▸ hP)⟩
      · cases hj

/-- **The loop of `tunnel_delete` over an array** releases the descriptors that are not 0. -/
theorem holds_closeAll (op : ℕ → Fd → DeleteOp)
    (hop : ∀ q fd, (op q fd).entry = some (.release (res q fd)))
    (hinj : ∀ j j' fd fd', res j fd = res j' fd' → j = j')
    (hlog : Holds log₀ P) (hheld : ∀ q fd, fds[q]? = some fd → P (res q fd)) (n : ℕ) :
    Holds (log₀ ++ (closeAll op fds n).filterMap DeleteOp.entry) fun r =>
      P r ∧ ¬ ∃ q fd, q < n ∧ 0 < fd ∧ fds[q]? = some fd ∧ r = res q fd := by
  induction n with
  | zero =>
    have hnil : (closeAll op fds 0).filterMap DeleteOp.entry = [] := rfl
    rw [hnil, List.append_nil]
    exact hlog.congr fun r => by simp
  | succ n ih =>
    rw [closeAll_succ, List.filterMap_append, ← List.append_assoc]
    have hget : ∀ fd, fds[n]? = some fd → fds.getD n 0 = fd := fun fd hfd => by
      rw [List.getD_eq_getElem?_getD, hfd, Option.getD_some]
    by_cases hpos : 0 < fds.getD n 0
    · obtain ⟨fd, hfd⟩ : ∃ fd, fds[n]? = some fd := by
        cases hn : fds[n]? with
        | none => rw [List.getD_eq_getElem?_getD, hn] at hpos; cases hpos
        | some fd => exact ⟨fd, rfl⟩
      rw [hget fd hfd] at hpos ⊢
      have hentry : (closeOpen (op n) fd).filterMap DeleteOp.entry = [.release (res n fd)] := by
        rw [closeOpen, if_pos hpos, List.filterMap_cons_some (hop n fd), List.filterMap_nil]
      rw [hentry]
      have hnot : ¬ ∃ q fd', q < n ∧ 0 < fd' ∧ fds[q]? = some fd' ∧ res n fd = res q fd' := by
        rintro ⟨q, fd', hq, -, -, heq⟩
        have := hinj _ _ _ _ heq
        omega
      refine (ih.release ⟨hheld n fd hfd, hnot⟩).congr fun r => ⟨?_, ?_⟩
      · rintro ⟨⟨hP, hold⟩, hne⟩
        refine ⟨hP, ?_⟩
        rintro ⟨q, fd', hq, hpos', hfd', rfl⟩
        rcases Nat.lt_succ_iff_lt_or_eq.1 hq with hlt | rfl
        · exact hold ⟨q, fd', hlt, hpos', hfd', rfl⟩
        · rw [hfd] at hfd'
          exact hne (by rw [Option.some.inj hfd'])
      · rintro ⟨hP, hall⟩
        refine ⟨⟨hP, ?_⟩, fun heq => hall ⟨n, fd, by omega, hpos, hfd, heq⟩⟩
        rintro ⟨q, fd', hq, hrest⟩
        exact hall ⟨q, fd', by omega, hrest⟩
    · have hentry : (closeOpen (op n) (fds.getD n 0)).filterMap DeleteOp.entry = [] := by
        rw [closeOpen, if_neg hpos, List.filterMap_nil]
      rw [hentry, List.append_nil]
      refine ih.congr fun r => and_congr_right fun _ => not_congr ⟨?_, ?_⟩
      · rintro ⟨q, fd, hq, hrest⟩
        exact ⟨q, fd, by omega, hrest⟩
      · rintro ⟨q, fd, hq, hpos', hfd, heq⟩
        refine ⟨q, fd, lt_of_le_of_ne (Nat.lt_succ_iff.1 hq) ?_, hpos', hfd, heq⟩
        rintro rfl
        rw [hget fd hfd] at hpos
        exact hpos hpos'

end Loops

/-! ### What is held -/

/-- The part of a tunnel that its deletion depends on, and what no field of it names. -/
structure Shape where
  queues : ℕ
  socks : List Fd := []
  epolls : List Fd := []
  /-- how many workers have been started -/
  started : ℕ := 0
  /-- the control socket is 0 -/
  ctl : Prop := False
  /-- `must_asprintf` has made the name of the bridge -/
  text : Prop := False
  /-- the control socket that sets up the device is 0 -/
  tapCtl : Prop := False

/-- The control socket that sets up the device is 0 where `zero`. -/
def Shape.withTap (k : Shape) (zero : Prop) : Shape := { k with tapCtl := zero }

/-- What no field of the tunnel names. -/
def Shape.Lost (k : Shape) (r : Resource) : Prop :=
  (r = .ctl 0 ∧ k.ctl) ∨ (r = .bridgeText ∧ k.text) ∨ (r = .tapCtl 0 ∧ k.tapCtl)

/-- What the fields of the tunnel name. -/
def Build.Owns (b : Build) : Resource → Prop
  | .block x => x ∈ b.blocks
  | .bridgeText | .ctl _ | .netDev | .tapCtl _ => False
  | .udp q fd => b.tunnel.udpFds[q]? = some fd
  | .epoll q fd => b.tunnel.epollFds[q]? = some fd
  | .thread w => w ∈ b.threads

/-- **Where `tunnel_create` stands**: it holds what the fields name and what they do not;
the blocks are among `used`, and there is at most one device, with its arrays. -/
structure Standing (k : Shape) (used : List Block) (b : Build) : Prop where
  holds : Holds b.log fun r => b.Owns r ∨ k.Lost r
  used : ∀ x ∈ b.blocks, x ∈ used
  queues : b.tunnel.numQueues = k.queues
  socks : b.tunnel.udpFds = k.socks
  epolls : b.tunnel.epollFds = k.epolls
  threads : b.threads = List.range k.started
  devs : (b.tunnel.numTapDevs = 0 ∧ ∀ i, .tapFds i ∉ b.blocks ∧ .stats i ∉ b.blocks) ∨
    (b.tunnel.numTapDevs = 1 ∧
      ∀ i, (.tapFds i ∈ b.blocks ↔ i = 0) ∧ (.stats i ∈ b.blocks ↔ i = 0))

section Standing

variable {k : Shape} {used : List Block} {b : Build} {garbage : ℕ → ℕ → Fd}

theorem not_lost_block (k : Shape) (x : Block) : ¬ k.Lost (.block x) := by
  rintro (⟨h, -⟩ | ⟨h, -⟩ | ⟨h, -⟩) <;> cases h

theorem not_held_block {x : Block} (hx : x ∉ b.blocks) :
    ¬ (b.Owns (.block x) ∨ k.Lost (.block x)) := by
  rintro (hin | hlost)
  · exact hx hin
  · exact not_lost_block k x hlost

theorem held_threads (b : Build) (k : Shape) :
    ∀ r ∈ b.threads.map Resource.thread, b.Owns r ∨ k.Lost r := by
  intro r hr
  obtain ⟨w, hw, rfl⟩ := List.mem_map.1 hr
  exact .inl hw

/-- The next worker has not been started. -/
theorem Standing.not_held_thread (h : Standing k used b) :
    ¬ (b.Owns (.thread k.started) ∨ k.Lost (.thread k.started)) := by
  simp [Build.Owns, Shape.Lost, h.threads]

theorem owns_alloc (b : Build) (x : Block) (r : Resource) :
    (b.alloc x).Owns r ↔ b.Owns r ∨ r = .block x := by
  cases r <;> simp [Build.Owns, Build.alloc]

theorem holds_alloc {x : Block} (h : Holds b.log fun r => b.Owns r ∨ k.Lost r)
    (hx : x ∉ b.blocks) : Holds (b.alloc x).log fun r => (b.alloc x).Owns r ∨ k.Lost r := by
  exact (h.acquire (not_held_block hx)).congr fun r => by rw [owns_alloc, or_right_comm]

theorem used_alloc {x : Block} (h : ∀ y ∈ b.blocks, y ∈ used) :
    ∀ y ∈ (b.alloc x).blocks, y ∈ x :: used := by
  intro y hy
  rcases List.mem_append.1 hy with hy | hy
  · exact List.mem_cons_of_mem x (h y hy)
  · exact List.mem_cons.2 (.inl (List.mem_singleton.1 hy))

/-- A new block, for a field that was `NULL`. -/
theorem Standing.alloc (h : Standing k used b) (x : Block) (hx : x ∉ used)
    (hdev : ∀ i, x ≠ .tapFds i ∧ x ≠ .stats i) : Standing k (x :: used) (b.alloc x) := by
  have hmem : ∀ y, y ≠ x → (y ∈ (b.alloc x).blocks ↔ y ∈ b.blocks) := by
    intro y hy
    simp [Build.alloc, hy]
  refine ⟨holds_alloc h.holds fun hin => hx (h.used x hin), used_alloc h.used, h.queues, h.socks,
    h.epolls, h.threads, ?_⟩
  have hfds := fun i => hmem (.tapFds i) (hdev i).1.symm
  have hstats := fun i => hmem (.stats i) (hdev i).2.symm
  refine h.devs.imp (And.imp_right fun hno i => ?_) (And.imp_right fun hone i => ?_)
  · rw [hfds, hstats]
    exact hno i
  · rw [hfds, hstats]
    exact hone i

/-- The entries leave nothing held, except the control socket of the device where `zero`. -/
def LeavesCtl (log : List (Entry Resource)) (zero : Prop) : Prop :=
  ∀ (log₀ : List (Entry Resource)) (P : Resource → Prop), Holds log₀ P → ¬ P .netDev →
    (∀ fd, ¬ P (.tapCtl fd)) → Holds (log₀ ++ log) fun r => P r ∨ (r = .tapCtl 0 ∧ zero)

/-- The arrays of the device. -/
theorem Standing.addDev (h : Standing k used b) (htap : k.tapCtl = False)
    (hnone : b.tunnel.numTapDevs = 0) {log : List (Entry Resource)} {zero : Prop}
    (hlog : LeavesCtl log zero) {t : Tunnel MapHeap}
    (hqueues : t.numQueues = b.tunnel.numQueues) (hsocks : t.udpFds = b.tunnel.udpFds)
    (hepolls : t.epollFds = b.tunnel.epollFds) (hone : t.numTapDevs = 1) :
    Standing (k.withTap zero) (.stats 0 :: .tapFds 0 :: used)
      ((((b.alloc (.tapFds 0)).put log).alloc (.stats 0)).setTunnel t) := by
  have hno : ∀ i, Block.tapFds i ∉ b.blocks ∧ Block.stats i ∉ b.blocks := by
    rcases h.devs with ⟨-, hno⟩ | ⟨hone, -⟩
    · exact hno
    · omega
  have hused := used_alloc (x := .stats 0) (used_alloc (x := .tapFds 0) h.used)
  have hfirst := hlog _ _ (holds_alloc (x := .tapFds 0) h.holds (hno 0).1)
    (by simp [Build.Owns, Shape.Lost]) (by simp [Build.Owns, Shape.Lost, htap])
  have hholds := hfirst.acquire (r := .block (.stats 0))
    (by simp [Build.Owns, Build.alloc, not_lost_block, (hno 0).2])
  refine ⟨hholds.congr fun r => ?_, hused, hqueues.trans h.queues,
    hsocks.trans h.socks, hepolls.trans h.epolls, h.threads, .inr ⟨hone, fun i => ⟨?_, ?_⟩⟩⟩
  · cases r <;> simp [Build.Owns, Build.setTunnel, Build.alloc, Build.put, Shape.Lost,
      Shape.withTap, hsocks, hepolls, htap, or_assoc]
  · simp [Build.setTunnel, Build.alloc, Build.put, (hno i).1]
  · simp [Build.setTunnel, Build.alloc, Build.put, (hno i).2]

/-- A block that is released again, after the entries for the device. -/
theorem Standing.putBlock (h : Standing k used b) (htap : k.tapCtl = False) {x : Block}
    (hx : x ∉ used) {log : List (Entry Resource)} {zero : Prop} (hlog : LeavesCtl log zero) :
    Standing (k.withTap zero) used
      (b.put (.acquire (.block x) :: (log ++ [.release (.block x)]))) := by
  have hnew : ¬ (b.Owns (.block x) ∨ k.Lost (.block x)) :=
    not_held_block fun hin => hx (h.used x hin)
  have hdone := (hlog _ _ (h.holds.acquire hnew) (by simp [Build.Owns, Shape.Lost])
    (by simp [Build.Owns, Shape.Lost, htap])).release (r := .block x) (.inl (.inr rfl))
  simp only [List.append_assoc, List.singleton_append] at hdone
  refine ⟨hdone.congr fun r => ?_, h.used, h.queues, h.socks, h.epolls, h.threads, h.devs⟩
  have hfree : x ∉ b.blocks := fun hin => hx (h.used x hin)
  cases r with
  | block y =>
    by_cases hy : y = x
    · simp [Build.Owns, Build.put, not_lost_block, hy, hfree]
    · simp [Build.Owns, Build.put, not_lost_block, hy]
  | _ => simp [Build.Owns, Build.put, Shape.Lost, Shape.withTap, htap]

/-- Before anything is acquired. -/
theorem Standing.empty : Standing { queues := 0 } [] .empty := by
  refine ⟨Holds.nil.congr fun r => ?_, by simp [Build.empty], rfl, rfl, rfl, rfl,
    .inl ⟨rfl, by simp [Build.empty]⟩⟩
  cases r <;> simp [Build.Owns, Build.empty, Shape.Lost]

/-- Fields that hold no resource are set. -/
theorem Standing.setTunnel (h : Standing k used b) (t : Tunnel MapHeap) {n : ℕ}
    (hqueues : t.numQueues = n) (hsocks : t.udpFds = b.tunnel.udpFds)
    (hepolls : t.epollFds = b.tunnel.epollFds) (hdevs : t.numTapDevs = b.tunnel.numTapDevs) :
    Standing { k with queues := n } used (b.setTunnel t) := by
  refine ⟨h.holds.congr fun r => or_congr ?_ Iff.rfl, h.used, hqueues,
    hsocks.trans h.socks, hepolls.trans h.epolls, h.threads, ?_⟩
  · cases r <;> simp [Build.Owns, Build.setTunnel, hsocks, hepolls]
  · show (t.numTapDevs = 0 ∧ _) ∨ (t.numTapDevs = 1 ∧ _)
    rw [hdevs]
    exact h.devs

theorem Standing.setEpoll (h : Standing k used b) (epoll : EpollSets) :
    Standing k used { b with epoll := epoll } :=
  ⟨h.holds, h.used, h.queues, h.socks, h.epolls, h.threads, h.devs⟩

/-- The control socket of the device, in other words. -/
theorem Standing.congr (h : Standing k used b) {zero : Prop} (htap : k.tapCtl ↔ zero) :
    Standing (k.withTap zero) used b := by
  obtain rfl := propext htap
  exact h

theorem Standing.mono (h : Standing k used b) {used' : List Block} (hsub : used ⊆ used') :
    Standing k used' b :=
  ⟨h.holds, fun x hx => hsub (h.used x hx), h.queues, h.socks, h.epolls, h.threads, h.devs⟩

theorem filterMap_entry {α : Type} {f : α → DeleteOp} {g : α → Entry Resource}
    (hfg : ∀ a, (f a).entry = some (g a)) (l : List α) :
    (l.map f).filterMap DeleteOp.entry = l.map g := by
  have hcomp : DeleteOp.entry ∘ f = some ∘ g := funext hfg
  rw [List.filterMap_map, hcomp, List.filterMap_eq_map]

/-- **The loop of `tunnel_delete` over the devices** releases the arrays of the device. -/
theorem Standing.holds_deleteTapDevs (h : Standing k used b) (garbage : ℕ → ℕ → Fd)
    {log : List (Entry Resource)} {P : Resource → Prop} (hlog : Holds log P)
    (hP : ∀ x, P (.block x) ↔ x ∈ b.blocks) :
    Holds (log ++ (deleteTapDevs garbage b.tunnel).filterMap DeleteOp.entry) fun r =>
      P r ∧ ∀ i, r ≠ .block (.tapFds i) ∧ r ≠ .block (.stats i) := by
  rcases h.devs with ⟨hnone, hno⟩ | ⟨hone, hdev⟩
  · have hnil : deleteTapDevs garbage b.tunnel = [] := by simp [deleteTapDevs, hnone]
    rw [hnil, List.filterMap_nil, List.append_nil]
    refine hlog.congr fun r => ⟨fun hr => ⟨hr, fun i => ⟨?_, ?_⟩⟩, And.left⟩
    · rintro rfl
      exact (hno i).1 ((hP _).1 hr)
    · rintro rfl
      exact (hno i).2 ((hP _).1 hr)
  · have hentries : (deleteTapDevs garbage b.tunnel).filterMap DeleteOp.entry =
        [.use (.block (.tapFds 0)), .release (.block (.tapFds 0)), .release (.block (.stats 0))] := by
      rw [deleteTapDevs_one hone, closeOpen]
      split_ifs <;> rfl
    have hfds : P (.block (.tapFds 0)) := (hP _).2 ((hdev 0).1.2 rfl)
    have hstats : P (.block (.stats 0)) := (hP _).2 ((hdev 0).2.2 rfl)
    have hreleased := ((hlog.use hfds).release hfds).release (r := .block (.stats 0))
      ⟨hstats, by simp⟩
    rw [hentries]
    simp only [List.append_assoc] at hreleased
    refine hreleased.congr fun r => ⟨?_, ?_⟩
    · rintro ⟨⟨hr, hfds'⟩, hstats'⟩
      refine ⟨hr, fun i => ⟨?_, ?_⟩⟩
      · rintro rfl
        obtain rfl := (hdev i).1.1 ((hP _).1 hr)
        exact hfds' rfl
      · rintro rfl
        obtain rfl := (hdev i).2.1 ((hP _).1 hr)
        exact hstats' rfl
    · rintro ⟨hr, hne⟩
      exact ⟨⟨hr, (hne 0).1⟩, (hne 0).2⟩

/-- A descriptor of an array stays open if it is 0. -/
theorem stays_iff {fds : List Fd} {n q : ℕ} {fd : Fd} (hlen : fds.length ≤ n) :
    (fds[q]? = some fd ∧ (q < n → 0 < fd → ¬ fds[q]? = some fd)) ↔ fd = 0 ∧ fds[q]? = some 0 := by
  constructor
  · rintro ⟨hfd, hstay⟩
    obtain ⟨hq, -⟩ := List.getElem?_eq_some_iff.1 hfd
    have hzero : fd = 0 := by
      by_contra hne
      exact hstay (lt_of_lt_of_le hq hlen) (Nat.pos_of_ne_zero hne) hfd
    exact ⟨hzero, hzero ▸ hfd⟩
  · rintro ⟨rfl, hfd⟩
    exact ⟨hfd, fun _ hpos => absurd hpos (Nat.lt_irrefl 0)⟩

theorem mem_ownBlocks {x : Block} (hx : ∀ i, ¬ x = .tapFds i ∧ ¬ x = .stats i) : x ∈ ownBlocks := by
  cases x with
  | tapFds i => exact absurd rfl (hx i).1
  | stats i => exact absurd rfl (hx i).2
  | _ => decide

/-- What `tunnel_delete` leaves behind. -/
def Shape.Left (k : Shape) (r : Resource) : Prop :=
  (∃ q, r = .udp q 0 ∧ k.socks[q]? = some 0) ∨ (∃ q, r = .epoll q 0 ∧ k.epolls[q]? = some 0) ∨
    k.Lost r

/-- **What `tunnel_delete` leaves behind**: the descriptors that are 0, and what no field
names. -/
theorem Standing.delete (h : Standing k used b) (garbage : ℕ → ℕ → Fd)
    (hsocks : k.socks.length ≤ k.queues) (hepolls : k.epolls.length ≤ k.queues) :
    Holds (b.delete garbage).log k.Left := by
  have hthreads := held_threads b k
  have hnodup : (b.threads.map Resource.thread).Nodup := by
    rw [h.threads]
    exact List.nodup_range.map fun _ _ heq => Resource.thread.inj heq
  -- the workers
  have hcancelled := h.holds.useAll hthreads
  have hjoined := hcancelled.releaseAll hnodup hthreads
  -- the sockets
  have hudp := holds_closeAll .closeUdp (fun _ _ => rfl)
    (fun _ _ _ _ heq => (Resource.udp.inj heq).1) hjoined
    (fun q fd (hfd : b.tunnel.udpFds[q]? = some fd) => ⟨.inl hfd, by simp⟩) b.tunnel.numQueues
  -- the device
  have hdevs := h.holds_deleteTapDevs garbage hudp fun x => by
    simp [Build.Owns, not_lost_block]
  -- the epoll sets
  have hepoll := holds_closeAll .closeEpoll (fun _ _ => rfl)
    (fun _ _ _ _ heq => (Resource.epoll.inj heq).1) hdevs
    (fun q fd (hfd : b.tunnel.epollFds[q]? = some fd) => by simp [Build.Owns, hfd])
    b.tunnel.numQueues
  -- the other blocks
  have hown : ∀ x ∈ ownBlocks, ∀ i, x ≠ .tapFds i ∧ x ≠ .stats i := by
    unfold ownBlocks
    simp
  have hdistinct : ((ownBlocks.filter (· ∈ b.blocks)).map Resource.block).Nodup :=
    ((by decide : ownBlocks.Nodup).filter _).map fun _ _ heq => Resource.block.inj heq
  have hblocks := hepoll.releaseAll hdistinct (by
      intro r hr
      obtain ⟨x, hx, rfl⟩ := List.mem_map.1 hr
      obtain ⟨hx, hin⟩ := List.mem_filter.1 hx
      simpa [Build.Owns, not_lost_block] using ⟨of_decide_eq_true hin, hown x hx⟩)
  have hlog : (b.delete garbage).log = b.log ++ (b.threads.map Resource.thread).map .use ++
      (b.threads.map Resource.thread).map .release ++
      (closeAll .closeUdp b.tunnel.udpFds b.tunnel.numQueues).filterMap DeleteOp.entry ++
      (deleteTapDevs garbage b.tunnel).filterMap DeleteOp.entry ++
      (closeAll .closeEpoll b.tunnel.epollFds b.tunnel.numQueues).filterMap DeleteOp.entry ++
      ((ownBlocks.filter (· ∈ b.blocks)).map Resource.block).map .release := by
    simp only [Build.delete, Build.put, Build.deleteOps, List.filterMap_append, List.append_assoc,
      List.map_map]
    rw [filterMap_entry (fun _ => rfl), filterMap_entry (fun _ => rfl),
      filterMap_entry (fun _ => rfl)]
    rfl
  rw [hlog]
  refine hblocks.congr fun r => ?_
  cases r with
  | block x =>
    simpa [Build.Owns, Shape.Left, not_lost_block] using
      fun hin hne => (⟨mem_ownBlocks hne, hin⟩ : x ∈ ownBlocks ∧ x ∈ b.blocks)
  | bridgeText => simp [Build.Owns, Shape.Left]
  | ctl fd => simp [Build.Owns, Shape.Left]
  | netDev => simp [Build.Owns, Shape.Left]
  | tapCtl fd => simp [Build.Owns, Shape.Left]
  | udp q fd =>
    simpa [Build.Owns, Shape.Left, Shape.Lost, h.socks, h.queues] using stays_iff hsocks
  | epoll q fd =>
    simpa [Build.Owns, Shape.Left, Shape.Lost, h.epolls, h.queues] using stays_iff hepolls
  | thread w => simp [Build.Owns, Shape.Left, Shape.Lost]

end Standing

end UdpEthTunnel
