/-
# The exits of `net_create_tap_mq_fds`

A dozen exits of `net_create_tap_mq_fds` share one clean-up.  Here the events of a call are
replayed strictly (`stillOpen`): an event that closes a descriptor which is not open refuses
the replay.  So a replay that ends with nothing open says that each descriptor was closed
once for each time it was opened, after that, and no other descriptor at all
(`count_of_stillOpen`).

If the kernel never returns the descriptor 0, which the clean-up would not close, every exit
balances (`exits_balance`).
-/

import UdpEthTunnel.Net.Tap

namespace UdpEthTunnel

/-- What an event leaves open; `none` when it closes what is not open. -/
def FdEvent.apply (s : Multiset ℕ) : FdEvent → Option (Multiset ℕ)
  | .opened fd => some (fd ::ₘ s)
  | .closed fd => if fd ∈ s then some (s.erase fd) else none

/-- What is open after the events, of those that were opened in them; `none` when a
descriptor is closed that is not open. -/
def stillOpen (s : Multiset ℕ) (log : List FdEvent) : Option (Multiset ℕ) :=
  log.foldlM FdEvent.apply s

/-- The kernel returns descriptors above 0 for the queues and for the control socket. -/
def TapMqEnv.PositiveFds (env : TapMqEnv) : Prop :=
  (∀ i, ∀ fd ∈ env.openTun i, 0 < fd) ∧ ∀ fd ∈ env.ctlSocket, 0 < fd

section Exits

variable {env : TapMqEnv} {s t : Multiset ℕ} {fds : List ℕ} {log : List FdEvent} {ok : Bool}
  {fd i n : ℕ}

theorem stillOpen_append (s : Multiset ℕ) (log log' : List FdEvent) :
    stillOpen s (log ++ log') = (stillOpen s log).bind fun s => stillOpen s log' :=
  List.foldlM_append ..

theorem stillOpen_opened (s : Multiset ℕ) (fd : ℕ) (log : List FdEvent) :
    stillOpen s (.opened fd :: log) = stillOpen (fd ::ₘ s) log := rfl

theorem stillOpen_closed (s : Multiset ℕ) (fd : ℕ) (log : List FdEvent) :
    stillOpen (fd ::ₘ s) (.closed fd :: log) = stillOpen s log := by
  have happly : FdEvent.apply (fd ::ₘ s) (.closed fd) = some s := by
    unfold FdEvent.apply
    dsimp only
    rw [if_pos (Multiset.mem_cons_self fd s), Multiset.erase_cons_head]
  unfold stillOpen
  rw [List.foldlM_cons, happly]
  rfl

/-- **What a replay counts**: a descriptor is opened as often as it is closed, and once more
for each time it is still open. -/
theorem count_of_stillOpen (h : stillOpen s log = some t) (fd : ℕ) :
    s.count fd + log.count (.opened fd) = log.count (.closed fd) + t.count fd := by
  induction log generalizing s with
  | nil =>
    obtain rfl := Option.some.inj h
    simp
  | cons e log ih =>
    unfold stillOpen at h
    rw [List.foldlM_cons] at h
    obtain ⟨s', happly, hrest⟩ := Option.bind_eq_some_iff.1 h
    have hcount := ih hrest
    cases e with
    | opened x =>
      obtain rfl := Option.some.inj happly
      have hother : (FdEvent.opened x :: log).count (.closed fd) = log.count (.closed fd) :=
        List.count_cons_of_ne (by simp)
      rw [hother, List.count_cons]
      rw [Multiset.count_cons] at hcount
      by_cases hx : x = fd
      · rw [if_pos hx.symm] at hcount
        rw [if_pos (by simp [hx])]
        omega
      · rw [if_neg (Ne.symm hx)] at hcount
        rw [if_neg (by simp [hx])]
        omega
    | closed x =>
      have hother : (FdEvent.closed x :: log).count (.opened fd) = log.count (.opened fd) :=
        List.count_cons_of_ne (by simp)
      unfold FdEvent.apply at happly
      dsimp only at happly
      split_ifs at happly with hmem
      obtain rfl := Option.some.inj happly
      rw [hother, List.count_cons]
      by_cases hx : x = fd
      · subst hx
        have hpos := Multiset.count_pos.2 hmem
        rw [Multiset.count_erase_self] at hcount
        rw [if_pos (by simp)]
        omega
      · rw [Multiset.count_erase_of_ne (Ne.symm hx)] at hcount
        rw [if_neg (by simp [hx])]
        omega

/-! ### The parts of a call -/

/-- The listing of devices is closed again. -/
theorem stillOpen_procLog (env : TapMqEnv) (s : Multiset ℕ) :
    stillOpen s (procLog env) = some s := by
  unfold procLog
  cases env.procNetDev with
  | none => rfl
  | some x => rw [stillOpen_opened, stillOpen_closed]; rfl

/-- **The clean-up** closes the descriptors that are stored. -/
theorem stillOpen_closeFds (hpos : ∀ fd ∈ fds, 0 < fd) (s : Multiset ℕ) :
    stillOpen (s + fds) (closeFds fds) = some s := by
  have hall : fds.filter (0 < ·) = fds :=
    List.filter_eq_self.2 fun fd hfd => decide_eq_true (hpos fd hfd)
  unfold closeFds
  rw [hall]
  clear hall hpos
  induction fds with
  | nil =>
    rw [Multiset.coe_nil, Multiset.add_zero]
    rfl
  | cons fd fds ih =>
    rw [← Multiset.cons_coe, Multiset.add_cons, List.map_cons, stillOpen_closed]
    exact ih

/-- **The loop** opens what it stores; the descriptor of a queue that cannot be attached is
closed before the jump. -/
theorem stillOpen_openTapFds (h : openTapFds env i n = (log, fds, ok)) (s : Multiset ℕ) :
    stillOpen s log = some (s + fds) ∧ ∀ fd ∈ fds, ∃ j, fd ∈ env.openTun j := by
  induction n generalizing i log fds ok s with
  | zero =>
    obtain ⟨rfl, rfl, rfl⟩ : [] = log ∧ [] = fds ∧ true = ok := by simpa [openTapFds] using h
    exact ⟨congrArg some (Multiset.add_zero s).symm, by simp⟩
  | succ n ih =>
    rcases openTapFds_succ h with ⟨-, rfl, -, hlog⟩ | ⟨tunFd, log₁, fds₁, hopen, -, hrest, rfl, rfl⟩
    · refine ⟨?_, by simp⟩
      rw [Multiset.coe_nil, Multiset.add_zero]
      rcases hlog with rfl | ⟨tunFd, rfl⟩
      · rfl
      · exact stillOpen_closed s tunFd []
    · obtain ⟨hlog, hfds⟩ := ih hrest (tunFd ::ₘ s)
      refine ⟨?_, fun fd hfd => ?_⟩
      · rw [stillOpen_opened, hlog, ← Multiset.cons_coe, Multiset.add_cons, Multiset.cons_add]
      · rcases List.mem_cons.1 hfd with rfl | hfd
        · exact ⟨i, hopen⟩
        · exact hfds fd hfd

/-- **How each exit leaves the descriptors.** -/
theorem exits_cases (hpos : env.PositiveFds) (baseTapDev : Option CStr) (queues : ℕ) (mtu : Int)
    (bridge : Option CStr) :
    ∃ r, netCreateTapMqFds env baseTapDev queues mtu bridge = r ∧
      (r.ok = false ∧ stillOpen 0 r.log = some 0 ∨ r.ok = true ∧ stillOpen 0 r.log = some r.fds) := by
  obtain ⟨r, hr, hexit⟩ := netCreateTapMqFds_exits env baseTapDev queues mtu bridge
  refine ⟨r, hr, ?_⟩
  rcases hexit with ⟨-, hok, -, -, -, hlog⟩ | ⟨-, -, log, opened, hopen, hexit⟩
  · rw [hlog]
    exact .inl ⟨hok, stillOpen_procLog env 0⟩
  obtain ⟨hloop, hfrom⟩ := stillOpen_openTapFds hopen 0
  have hfds : ∀ fd ∈ r.fds, 0 < fd := by
    intro fd hfd
    obtain ⟨j, hj⟩ := hfrom fd hfd
    exact hpos.1 j fd hj
  have hclose := stillOpen_closeFds hfds 0
  rw [Multiset.zero_add] at hloop hclose
  have hopened : stillOpen 0 (procLog env ++ log) = some (r.fds : Multiset ℕ) := by
    rw [stillOpen_append, stillOpen_procLog]
    exact hloop
  -- the clean-up, after any events that leave the descriptors of the queues open
  have herror : ∀ log, stillOpen 0 log = some (r.fds : Multiset ℕ) →
      stillOpen 0 (log ++ closeFds r.fds) = some 0 := by
    intro log hlog
    rw [stillOpen_append, hlog]
    exact hclose
  rcases hexit with ⟨-, hok, -, hlog⟩ | ⟨-, ctlFd, block, hctl, -, hblock, hset⟩
  · rw [hlog]
    exact .inl ⟨hok, herror _ hopened⟩
  · have hctlFd : closeFds [ctlFd] = [.closed ctlFd] := by simp [closeFds, hpos.2 ctlFd hctl]
    have hleft : stillOpen 0 block = some (r.fds : Multiset ℕ) := by
      rw [hblock, List.append_assoc, stillOpen_append, hopened, hctlFd]
      show stillOpen (r.fds : Multiset ℕ) [.opened ctlFd, .closed ctlFd] = _
      rw [stillOpen_opened, stillOpen_closed]
      rfl
    rcases hset with ⟨-, hok, hlog⟩ | ⟨-, hok, hlog⟩
    · rw [hlog]
      exact .inr ⟨hok, hleft⟩
    · rw [hlog]
      exact .inl ⟨hok, herror _ hleft⟩

/-- **Every exit balances.**  `net_create_tap_mq_fds` leaves through one clean-up, which closes
the descriptors attached so far and the control socket, those that are positive.  For every
number of queues and whatever fails, if the kernel gives out no descriptor 0: a call that
returns false has closed each descriptor that it opened, once, and no other; after a call that
returns true the descriptors in `fds`, one for each queue, are open and no other. -/
theorem exits_balance (env : TapMqEnv) (baseTapDev : Option CStr) (queues : ℕ) (mtu : Int)
    (bridge : Option CStr) (hpos : env.PositiveFds) :
    ((netCreateTapMqFds env baseTapDev queues mtu bridge).ok = false →
      stillOpen 0 (netCreateTapMqFds env baseTapDev queues mtu bridge).log = some 0 ∧
        ∀ fd, (netCreateTapMqFds env baseTapDev queues mtu bridge).log.count (.opened fd) =
          (netCreateTapMqFds env baseTapDev queues mtu bridge).log.count (.closed fd)) ∧
    ((netCreateTapMqFds env baseTapDev queues mtu bridge).ok = true →
      (netCreateTapMqFds env baseTapDev queues mtu bridge).fds.length = queues ∧
        stillOpen 0 (netCreateTapMqFds env baseTapDev queues mtu bridge).log =
          some (netCreateTapMqFds env baseTapDev queues mtu bridge).fds) := by
  constructor
  · intro hok
    obtain ⟨r, hr, ⟨-, hopen⟩ | ⟨hok', -⟩⟩ := exits_cases hpos baseTapDev queues mtu bridge
    · rw [hr]
      refine ⟨hopen, fun fd => ?_⟩
      have hcount := count_of_stillOpen hopen fd
      rwa [Multiset.count_zero, Nat.zero_add, Nat.add_zero] at hcount
    · rw [hr, hok'] at hok
      cases hok
  · intro hok
    refine ⟨(fds_of_succeeds (ok_iff_succeeds.1 hok)).1, ?_⟩
    obtain ⟨r, hr, ⟨hok', -⟩ | ⟨-, hopen⟩⟩ := exits_cases hpos baseTapDev queues mtu bridge
    · rw [hr, hok'] at hok
      cases hok
    · rw [hr]
      exact hopen

end Exits

/-- A kernel that has two queues and fails to set the flags of the device. -/
def flagsFail : TapMqEnv :=
  { procNetDev := some (3, []), openTun := fun q => some (3 + q), tunSetIff := fun _ => true,
    ctlSocket := some 9, ifIndex := fun _ => true, setIfMtu := fun _ => true, bridgeIndex := .found,
    addBridge := true, getBridgeFlags := true, setBridgeFlags := true, getBridgeMtu := true,
    addToBridge := true, getIfFlags := fun _ => true, setIfFlags := fun _ => false }

/-- The last `ioctl` fails, for two queues: everything is closed again.  Where it succeeds, the
two descriptors are open. -/
theorem exits_balance_flags :
    stillOpen 0 (netCreateTapMqFds flagsFail none 2 1400 none).log = some 0 ∧
      stillOpen 0 (netCreateTapMqFds { flagsFail with setIfFlags := fun _ => true } none 2 1400
        none).log = some {3, 4} := by
  have hfds : ∀ i, ∀ fd ∈ some (3 + i), 0 < fd := by
    intro i fd hfd
    obtain rfl := Option.some.inj hfd
    omega
  have hctl : ∀ fd ∈ some 9, 0 < fd := by
    intro fd hfd
    obtain rfl := Option.some.inj hfd
    omega
  have hpos : flagsFail.PositiveFds := ⟨hfds, hctl⟩
  have hpos' : ({ flagsFail with setIfFlags := fun _ => true } : TapMqEnv).PositiveFds := ⟨hfds, hctl⟩
  exact ⟨((exits_balance flagsFail none 2 1400 none hpos).1 (by decide)).1,
    ((exits_balance _ none 2 1400 none hpos').2 (by decide)).2⟩

end UdpEthTunnel
