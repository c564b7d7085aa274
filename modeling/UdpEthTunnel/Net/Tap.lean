/-
# Tap devices

`net_create_tap_mq_fds` of `src/net.c`: the name of a new tap device, a descriptor of it
for each queue, and its set-up through a control socket.

What the kernel answers is an argument (`TapMqEnv`).  Beside its result the model keeps
the descriptors that the call opens and closes, in order; `openAfter` says which of them
are open at the end (`openAfter_netCreateTapMqFds`).
-/

import Mathlib.Data.Multiset.AddSub
import Mathlib.Data.Multiset.Filter
import UdpEthTunnel.CString

namespace UdpEthTunnel

/-- A descriptor is opened or closed. -/
inductive FdEvent where
  | opened (fd : ℕ)
  | closed (fd : ℕ)
deriving DecidableEq, Repr

/-- What an event does to the open descriptors. -/
def openStep (s : Multiset ℕ) : FdEvent → Multiset ℕ
  | .opened fd => fd ::ₘ s
  | .closed fd => s.erase fd

/-- The descriptors that are open after the events, of those that were opened in them. -/
def openAfter (log : List FdEvent) : Multiset ℕ := log.foldl openStep 0

/-- What `ioctl(SIOCGIFINDEX)` says of the bridge. -/
inductive BridgeIndex where
  | found
  /-- `ENODEV` -/
  | missing
  | failed
deriving DecidableEq, Repr

/-- What the kernel does during a call of `net_create_tap_mq_fds`. -/
structure TapMqEnv where
  /-- `fopen("/proc/net/dev")`: its descriptor, and the pieces `fgets` reads -/
  procNetDev : Option (ℕ × List CStr)
  /-- `open("/dev/net/tun")`, for each queue -/
  openTun : ℕ → Option ℕ
  /-- `ioctl(TUNSETIFF)`, for each queue -/
  tunSetIff : ℕ → Bool
  ctlSocket : Option ℕ
  /-- `ioctl(SIOCGIFINDEX)` of the device of this name -/
  ifIndex : CStr → Bool
  /-- `ioctl(SIOCSIFMTU)` -/
  setIfMtu : CStr → Bool
  bridgeIndex : BridgeIndex
  /-- `ioctl(SIOCBRADDBR)` -/
  addBridge : Bool
  /-- `ioctl(SIOCGIFFLAGS)` and `ioctl(SIOCSIFFLAGS)` of the bridge -/
  getBridgeFlags : Bool
  setBridgeFlags : Bool
  /-- `ioctl(SIOCGIFMTU)` of the bridge -/
  getBridgeMtu : Bool
  /-- `ioctl(SIOCBRADDIF)` -/
  addToBridge : Bool
  /-- `ioctl(SIOCGIFFLAGS)` and `ioctl(SIOCSIFFLAGS)` of the device of this name -/
  getIfFlags : CStr → Bool
  setIfFlags : CStr → Bool

/-- `IFNAMSIZ`. -/
def ifNamSiz : ℕ := 16

/-- The decimal text of an `int`. -/
def decimalInt (n : Int) : CStr := if n < 0 then '-' :: decimal n.natAbs else decimal n.natAbs

/-- `highest_tap_num`: the greatest number after the base name in a line, or -1. -/
def highestTapNum (dev : CStr) (lines : List CStr) : Int :=
  lines.foldl (fun highest line =>
    match strstr line dev with
    | none => highest
    | some name =>
      let tapNum := atoi (name.drop dev.length)
      if tapNum > highest then tapNum else highest) (-1)

/-- `tap_name`: the base name and the next number, which is an `int`. -/
def tapName (env : TapMqEnv) (baseTapDev : Option CStr) : CStr :=
  let dev := baseTapDev.getD ['t', 'a', 'p']
  let lines := (env.procNetDev.map (·.2)).getD []
  dev ++ decimalInt (BitVec.ofInt 32 (highestTapNum dev lines + 1)).toInt

/-- The events of the listing of devices. -/
def procLog (env : TapMqEnv) : List FdEvent :=
  match env.procNetDev with
  | none => []
  | some (fd, _) => [.opened fd, .closed fd]

/-- The loop that opens a descriptor for each of `n` queues, from queue `i` on: the events,
the descriptors that stand in `fds`, and whether there is one for each queue. -/
def openTapFds (env : TapMqEnv) (i : ℕ) : ℕ → List FdEvent × List ℕ × Bool
  | 0 => ([], [], true)
  | n + 1 =>
    match env.openTun i with
    | none => ([], [], false)
    | some tunFd =>
      if env.tunSetIff i = false then ([.opened tunFd, .closed tunFd], [], false)
      else
        let (log, fds, ok) := openTapFds env (i + 1) n
        (.opened tunFd :: log, tunFd :: fds, ok)

/-- The bridge is there, or is created. -/
def bridgeReady (env : TapMqEnv) : Bool :=
  match env.bridgeIndex with
  | .found => true
  | .missing => env.addBridge && env.getBridgeFlags && env.setBridgeFlags
  | .failed => false

/-- `strlcpy(ifr.ifr_name, tap_name, IFNAMSIZ - 1)`: the copy has 14 characters at most, one
less than the name may have. -/
def ifrName (tapName : CStr) : CStr := tapName.take (ifNamSiz - 2)

/-- The set-up of the device of this name through the control socket. -/
def setUpTap (env : TapMqEnv) (name : CStr) (mtu : Int) (bridge : Option CStr) : Bool :=
  env.ifIndex name && (decide (mtu ≤ 0) || env.setIfMtu name) &&
    (bridge.isNone || (bridgeReady env && env.getBridgeMtu && env.addToBridge)) &&
    env.getIfFlags name && env.setIfFlags name

/-- The clean-up at `error`. -/
def closeFds (fds : List ℕ) : List FdEvent := (fds.filter (0 < ·)).map .closed

/-- What a call of `net_create_tap_mq_fds` returns and leaves: the descriptors in `fds` and
the name of the device, the control socket if the call has opened one, and the events of
descriptors. -/
structure TapMqResult where
  ok : Bool
  fds : List ℕ
  name : Option CStr
  ctl : Option ℕ
  log : List FdEvent
deriving DecidableEq, Repr

/-- `net_create_tap_mq_fds`. -/
def netCreateTapMqFds (env : TapMqEnv) (baseTapDev : Option CStr) (queues : ℕ) (mtu : Int)
    (bridge : Option CStr) : TapMqResult :=
  let name := tapName env baseTapDev
  if ifNamSiz ≤ name.length then
    { ok := false, fds := [], name := none, ctl := none, log := procLog env }
  else
    let (log, fds, opened) := openTapFds env 0 queues
    let log := procLog env ++ log
    let error (ctl : Option ℕ) (log : List FdEvent) : TapMqResult :=
      { ok := false, fds := fds, name := some name, ctl := ctl, log := log ++ closeFds fds }
    if opened = false then error none log
    else
      match env.ctlSocket with
      | none => error none log
      | some ctlFd =>
        -- the control socket is closed when its block is left
        let log := log ++ [.opened ctlFd] ++ closeFds [ctlFd]
        if setUpTap env (ifrName name) mtu bridge then
          { ok := true, fds := fds, name := some name, ctl := some ctlFd, log := log }
        else error (some ctlFd) log

/-! ### What is open at the end -/

namespace TapMqEnv

/-- A descriptor is opened for the queue and attached to the device. -/
def attaches (env : TapMqEnv) (i : ℕ) : Bool := (env.openTun i).isSome && env.tunSetIff i

/-- The descriptors of the queues before the first that fails. -/
def stored (env : TapMqEnv) (n : ℕ) : List ℕ :=
  ((List.range n).takeWhile env.attaches).map fun i => (env.openTun i).getD 0

/-- The name fits, every queue is attached and the device is set up. -/
def Succeeds (env : TapMqEnv) (baseTapDev : Option CStr) (queues : ℕ) (mtu : Int)
    (bridge : Option CStr) : Prop :=
  (tapName env baseTapDev).length < ifNamSiz ∧ (∀ i < queues, env.attaches i = true) ∧
    env.ctlSocket.isSome = true ∧ setUpTap env (ifrName (tapName env baseTapDev)) mtu bridge = true

/-- The name fits and every queue is attached, so that the call opens its control socket. -/
def OpensCtl (env : TapMqEnv) (baseTapDev : Option CStr) (queues : ℕ) (ctlFd : ℕ) : Prop :=
  (tapName env baseTapDev).length < ifNamSiz ∧ (∀ i < queues, env.attaches i = true) ∧
    env.ctlSocket = some ctlFd

/-- None of the descriptors that the clean-up finds is 0, nor is the control socket. -/
def Positive (env : TapMqEnv) (queues : ℕ) : Prop :=
  0 ∉ env.stored queues ∧ ((∀ i < queues, env.attaches i = true) → env.ctlSocket ≠ some 0)

end TapMqEnv

/-- The descriptors that the clean-up does not close. -/
def zeros (fds : List ℕ) : Multiset ℕ := (fds : Multiset ℕ).filter fun fd => ¬ 0 < fd

section OpenAfter

variable {env : TapMqEnv} {s : Multiset ℕ} {fds : List ℕ} {log : List FdEvent} {ok : Bool}
  {i n : ℕ} {baseTapDev bridge : Option CStr} {mtu : Int}

theorem zeros_eq_zero_iff : zeros fds = 0 ↔ 0 ∉ fds := by
  unfold zeros
  rw [Multiset.filter_eq_nil]
  constructor
  · intro h hmem
    exact h 0 hmem (by omega)
  · rintro h fd hfd hzero
    obtain rfl : fd = 0 := by omega
    exact h hfd

theorem foldl_closed (fds : List ℕ) (s : Multiset ℕ) :
    (fds.map .closed).foldl openStep s = s - fds := by
  induction fds generalizing s with
  | nil => simp
  | cons fd fds ih =>
    rw [List.map_cons, List.foldl_cons, ih, ← Multiset.cons_coe, Multiset.sub_cons]
    rfl

/-- **The clean-up** leaves the descriptor 0 open, and what else there is. -/
theorem foldl_closeFds (fds : List ℕ) (s : Multiset ℕ) :
    (closeFds fds).foldl openStep (fds + s) = zeros fds + s := by
  have hsplit := Multiset.filter_add_not (fun fd => 0 < fd) (fds : Multiset ℕ)
  unfold closeFds zeros
  rw [foldl_closed, ← Multiset.filter_coe]
  nth_rewrite 1 [← hsplit]
  rw [Multiset.add_assoc, Multiset.add_comm]
  exact Multiset.add_sub_cancel_right

/-- The control socket is closed again. -/
theorem foldl_ctlFd (s : Multiset ℕ) (ctlFd : ℕ) :
    ([FdEvent.opened ctlFd] ++ closeFds [ctlFd]).foldl openStep s = s + zeros [ctlFd] := by
  rcases Nat.eq_zero_or_pos ctlFd with rfl | hpos
  · show 0 ::ₘ s = s + {0}
    rw [Multiset.add_comm, Multiset.singleton_add]
  · have hclose : closeFds [ctlFd] = [.closed ctlFd] := by simp [closeFds, hpos]
    have hzeros : zeros [ctlFd] = 0 := zeros_eq_zero_iff.2 (by simp [hpos.ne])
    rw [hclose, hzeros, Multiset.add_zero]
    exact Multiset.erase_cons_head ctlFd s

/-- **One queue**: it is not attached, and what was opened for it is closed again; or its
descriptor is stored and the loop goes on. -/
theorem openTapFds_succ (h : openTapFds env i (n + 1) = (log, fds, ok)) :
    (env.attaches i = false ∧ fds = [] ∧ ok = false ∧
        (log = [] ∨ ∃ tunFd, log = [.opened tunFd, .closed tunFd])) ∨
      ∃ tunFd log₁ fds₁, env.openTun i = some tunFd ∧ env.attaches i = true ∧
        openTapFds env (i + 1) n = (log₁, fds₁, ok) ∧
        log = .opened tunFd :: log₁ ∧ fds = tunFd :: fds₁ := by
  unfold openTapFds at h
  cases hopen : env.openTun i with
  | none =>
    rw [hopen] at h
    obtain ⟨rfl, rfl, rfl⟩ : [] = log ∧ [] = fds ∧ false = ok := by simpa using h
    exact .inl ⟨by simp [TapMqEnv.attaches, hopen], rfl, rfl, .inl rfl⟩
  | some tunFd =>
    rw [hopen] at h
    dsimp only at h
    split_ifs at h with hset
    · obtain ⟨rfl, rfl, rfl⟩ :
          [.opened tunFd, .closed tunFd] = log ∧ [] = fds ∧ false = ok := by simpa using h
      exact .inl ⟨by simp [TapMqEnv.attaches, hset], rfl, rfl, .inr ⟨tunFd, rfl⟩⟩
    · have hattach : env.attaches i = true := by simpa [TapMqEnv.attaches, hopen] using hset
      rcases hrest : openTapFds env (i + 1) n with ⟨log₁, fds₁, ok₁⟩
      rw [hrest] at h
      obtain ⟨rfl, rfl, rfl⟩ : .opened tunFd :: log₁ = log ∧ tunFd :: fds₁ = fds ∧ ok₁ = ok := by
        simpa using h
      exact .inr ⟨tunFd, log₁, fds₁, rfl, hattach, rfl, rfl, rfl⟩

/-- **What the loop opens**: the descriptors it stores. -/
theorem openTapFds_spec (h : openTapFds env i n = (log, fds, ok)) :
    (∀ s, log.foldl openStep s = s + fds) ∧
      fds = ((List.range' i n).takeWhile env.attaches).map (fun j => (env.openTun j).getD 0) ∧
      (ok = true ↔ ∀ j ∈ List.range' i n, env.attaches j = true) := by
  induction n generalizing i log fds ok with
  | zero =>
    obtain ⟨rfl, rfl, rfl⟩ : [] = log ∧ [] = fds ∧ true = ok := by simpa [openTapFds] using h
    exact ⟨fun s => (Multiset.add_zero s).symm, rfl, by simp⟩
  | succ n ih =>
    rw [List.range'_succ]
    rcases openTapFds_succ h with ⟨hnot, rfl, rfl, hlog⟩ |
      ⟨tunFd, log₁, fds₁, hopen, hattach, hrest, rfl, rfl⟩
    · refine ⟨fun s => ?_, ?_, ?_⟩
      · rw [Multiset.coe_nil, Multiset.add_zero]
        rcases hlog with rfl | ⟨tunFd, rfl⟩
        · rfl
        · exact Multiset.erase_cons_head tunFd s
      · rw [List.takeWhile_cons_of_neg (by rw [hnot]; decide), List.map_nil]
      · refine iff_of_false Bool.false_ne_true fun hall => ?_
        rw [hall i List.mem_cons_self] at hnot
        exact absurd hnot nofun
    · obtain ⟨hlog, hfds, hok⟩ := ih hrest
      refine ⟨fun s => ?_, ?_, ?_⟩
      · show log₁.foldl openStep (tunFd ::ₘ s) = _
        rw [hlog, ← Multiset.cons_coe, Multiset.add_cons, Multiset.cons_add]
      · rw [List.takeWhile_cons_of_pos hattach, List.map_cons, hopen, hfds]
        rfl
      · rw [hok, List.forall_mem_cons]
        exact (and_iff_right hattach).symm

/-- The listing of devices leaves nothing open. -/
theorem foldl_procLog (env : TapMqEnv) (s : Multiset ℕ) : (procLog env).foldl openStep s = s := by
  unfold procLog
  cases env.procNetDev with
  | none => rfl
  | some x => exact Multiset.erase_cons_head x.1 s

/-- **The exits of `net_create_tap_mq_fds`**: before a descriptor is opened, for the name; to
`error` from the loop, or for want of a control socket; and when the block of the control
socket has been left. -/
theorem netCreateTapMqFds_exits (env : TapMqEnv) (baseTapDev : Option CStr) (queues : ℕ)
    (mtu : Int) (bridge : Option CStr) :
    ∃ r, netCreateTapMqFds env baseTapDev queues mtu bridge = r ∧
    ((ifNamSiz ≤ (tapName env baseTapDev).length ∧ r.ok = false ∧ r.name = none ∧ r.fds = [] ∧
        r.ctl = none ∧ r.log = procLog env) ∨
     (tapName env baseTapDev).length < ifNamSiz ∧ r.name = some (tapName env baseTapDev) ∧
      ∃ log opened, openTapFds env 0 queues = (log, r.fds, opened) ∧
       ((opened = false ∨ opened = true ∧ env.ctlSocket = none) ∧ r.ok = false ∧ r.ctl = none ∧
          r.log = procLog env ++ log ++ closeFds r.fds ∨
        opened = true ∧ ∃ ctlFd block, env.ctlSocket = some ctlFd ∧ r.ctl = some ctlFd ∧
          block = procLog env ++ log ++ [.opened ctlFd] ++ closeFds [ctlFd] ∧
          (setUpTap env (ifrName (tapName env baseTapDev)) mtu bridge = true ∧ r.ok = true ∧
              r.log = block ∨
           setUpTap env (ifrName (tapName env baseTapDev)) mtu bridge = false ∧ r.ok = false ∧
              r.log = block ++ closeFds r.fds))) := by
  refine ⟨_, rfl, ?_⟩
  unfold netCreateTapMqFds
  dsimp only
  by_cases hname : ifNamSiz ≤ (tapName env baseTapDev).length
  · rw [if_pos hname]
    exact .inl ⟨hname, rfl, rfl, rfl, rfl, rfl⟩
  rw [if_neg hname]
  rcases openTapFds env 0 queues with ⟨log, fds, opened⟩
  refine .inr ⟨Nat.lt_of_not_le hname, ?_⟩
  cases opened with
  | false => exact ⟨rfl, log, _, rfl, .inl ⟨.inl rfl, rfl, rfl, rfl⟩⟩
  | true =>
    rw [if_neg nofun]
    cases hctl : env.ctlSocket with
    | none => exact ⟨rfl, log, _, rfl, .inl ⟨.inr ⟨rfl, rfl⟩, rfl, rfl, rfl⟩⟩
    | some ctlFd =>
      dsimp only
      cases hset : setUpTap env (ifrName (tapName env baseTapDev)) mtu bridge with
      | true =>
        exact ⟨rfl, log, _, rfl, .inr ⟨rfl, ctlFd, _, rfl, rfl, rfl, .inl ⟨rfl, rfl, rfl⟩⟩⟩
      | false =>
        exact ⟨rfl, log, _, rfl, .inr ⟨rfl, ctlFd, _, rfl, rfl, rfl, .inr ⟨rfl, rfl, rfl⟩⟩⟩

/-- **How `net_create_tap_mq_fds` ends**, and what is open then: the name does not fit; a
queue fails, or there is no control socket; the set-up fails; or the call succeeds. -/
theorem netCreateTapMqFds_cases (env : TapMqEnv) (baseTapDev : Option CStr) (queues : ℕ)
    (mtu : Int) (bridge : Option CStr) :
    ∃ r, netCreateTapMqFds env baseTapDev queues mtu bridge = r ∧
    ((ifNamSiz ≤ (tapName env baseTapDev).length ∧ r.ok = false ∧ r.ctl = none ∧
        openAfter r.log = 0) ∨
     (tapName env baseTapDev).length < ifNamSiz ∧ r.fds = env.stored queues ∧
      (((¬ ∀ i < queues, env.attaches i = true) ∧ r.ok = false ∧ r.ctl = none ∧
          openAfter r.log = zeros (env.stored queues)) ∨
       (∀ i < queues, env.attaches i = true) ∧
        (env.ctlSocket = none ∧ r.ok = false ∧ r.ctl = none ∧
            openAfter r.log = zeros (env.stored queues) ∨
         ∃ ctlFd, env.ctlSocket = some ctlFd ∧ r.ctl = some ctlFd ∧
          (setUpTap env (ifrName (tapName env baseTapDev)) mtu bridge = true ∧ r.ok = true ∧
              openAfter r.log = env.stored queues + zeros [ctlFd] ∨
           setUpTap env (ifrName (tapName env baseTapDev)) mtu bridge = false ∧ r.ok = false ∧
              openAfter r.log = zeros (env.stored queues) + zeros [ctlFd])))) := by
  obtain ⟨r, hr, hexit⟩ := netCreateTapMqFds_exits env baseTapDev queues mtu bridge
  refine ⟨r, hr, ?_⟩
  rcases hexit with ⟨hname, hok, -, -, hnone, hlog⟩ | ⟨hname, -, log, opened, hopen, hexit⟩
  · refine .inl ⟨hname, hok, hnone, ?_⟩
    rw [hlog]
    exact foldl_procLog env 0
  obtain ⟨hloop, hfds, hall⟩ := openTapFds_spec hopen
  rw [← List.range_eq_range'] at hfds hall
  simp only [List.mem_range] at hall
  have hstored : r.fds = env.stored queues := hfds
  rw [hstored] at hexit hloop
  have hopened : (procLog env ++ log).foldl openStep 0 = env.stored queues := by
    rw [List.foldl_append, foldl_procLog, hloop, Multiset.zero_add]
  have herror : openAfter (procLog env ++ log ++ closeFds (env.stored queues)) =
      zeros (env.stored queues) := by
    have hclose := foldl_closeFds (env.stored queues) 0
    rw [Multiset.add_zero, Multiset.add_zero] at hclose
    unfold openAfter
    rw [List.foldl_append, hopened, hclose]
  refine .inr ⟨hname, hstored, ?_⟩
  rcases hexit with ⟨hwhy, hok, hnone, hlog⟩ | ⟨hopened', ctlFd, block, hctl, hsome, hblock, hset⟩
  · rw [← hlog] at herror
    rcases hwhy with hnot | ⟨hopened', hctl⟩
    · refine .inl ⟨fun h => ?_, hok, hnone, herror⟩
      rw [hall.2 h] at hnot
      cases hnot
    · exact .inr ⟨hall.1 hopened', .inl ⟨hctl, hok, hnone, herror⟩⟩
  · have hblock' : block.foldl openStep 0 = env.stored queues + zeros [ctlFd] := by
      rw [hblock, List.append_assoc (procLog env ++ log), List.foldl_append, hopened, foldl_ctlFd]
    refine .inr ⟨hall.1 hopened', .inr ⟨ctlFd, hctl, hsome, ?_⟩⟩
    rcases hset with ⟨hset, hok, rfl⟩ | ⟨hset, hok, hlog⟩
    · exact .inl ⟨hset, hok, hblock'⟩
    · refine .inr ⟨hset, hok, ?_⟩
      unfold openAfter
      rw [hlog, List.foldl_append, hblock', foldl_closeFds]

/-- **When the call succeeds.** -/
theorem ok_iff_succeeds : (netCreateTapMqFds env baseTapDev n mtu bridge).ok = true ↔
    env.Succeeds baseTapDev n mtu bridge := by
  unfold TapMqEnv.Succeeds
  obtain ⟨r, hr, hcase⟩ := netCreateTapMqFds_cases env baseTapDev n mtu bridge
  rw [hr]
  rcases hcase with ⟨hname, hok, -⟩ | ⟨hname, -, ⟨hall, hok, -⟩ | ⟨hall, ⟨hctl, hok, -⟩ |
    ⟨ctlFd, hctl, -, ⟨hset, hok, -⟩ | ⟨hset, hok, -⟩⟩⟩⟩ <;> rw [hok]
  · exact iff_of_false Bool.false_ne_true fun h => Nat.not_lt.2 hname h.1
  · exact iff_of_false Bool.false_ne_true fun h => hall h.2.1
  · exact iff_of_false Bool.false_ne_true fun h => by simp [hctl] at h
  · exact iff_of_true rfl ⟨hname, hall, by rw [hctl]; rfl, hset⟩
  · exact iff_of_false Bool.false_ne_true fun h => by simp [hset] at h

/-- **Which control socket the call opens.** -/
theorem ctl_eq_some_iff {ctlFd : ℕ} : (netCreateTapMqFds env baseTapDev n mtu bridge).ctl =
    some ctlFd ↔ env.OpensCtl baseTapDev n ctlFd := by
  unfold TapMqEnv.OpensCtl
  obtain ⟨r, hr, hcase⟩ := netCreateTapMqFds_cases env baseTapDev n mtu bridge
  rw [hr]
  rcases hcase with ⟨hname, -, hctl, -⟩ | ⟨hname, -, ⟨hall, -, hctl, -⟩ | ⟨hall, ⟨hnone, -, hctl, -⟩ |
    ⟨fd, hsome, hctl, -⟩⟩⟩ <;> rw [hctl]
  · exact iff_of_false nofun fun h => Nat.not_lt.2 hname h.1
  · exact iff_of_false nofun fun h => hall h.2.1
  · exact iff_of_false nofun fun h => by simp [hnone] at h
  · rw [hsome]
    exact ⟨fun h => ⟨hname, hall, h⟩, fun h => h.2.2⟩

/-- **When a call that fails has closed what it opened.** -/
theorem closed_iff_positive (hfail : ¬ env.Succeeds baseTapDev n mtu bridge) :
    openAfter (netCreateTapMqFds env baseTapDev n mtu bridge).log = 0 ↔
      ifNamSiz ≤ (tapName env baseTapDev).length ∨ env.Positive n := by
  have hok := mt ok_iff_succeeds.1 hfail
  unfold TapMqEnv.Positive
  obtain ⟨r, hr, hcase⟩ := netCreateTapMqFds_cases env baseTapDev n mtu bridge
  rw [hr] at hok ⊢
  rcases hcase with ⟨hname, -, -, hlog⟩ | ⟨hname, -, ⟨hall, -, -, hlog⟩ | ⟨hall, ⟨hctl, -, -, hlog⟩ |
    ⟨ctlFd, hctl, -, ⟨-, hok', -⟩ | ⟨-, -, hlog⟩⟩⟩⟩
  · exact iff_of_true hlog (.inl hname)
  · rw [hlog, zeros_eq_zero_iff, or_iff_right (Nat.not_le.2 hname)]
    exact (and_iff_left fun h => absurd h hall).symm
  · rw [hlog, zeros_eq_zero_iff, or_iff_right (Nat.not_le.2 hname), hctl]
    exact (and_iff_left fun _ => nofun).symm
  · exact absurd hok' hok
  · have hboth : zeros (env.stored n) + zeros [ctlFd] = 0 ↔
        zeros (env.stored n) = 0 ∧ zeros [ctlFd] = 0 := by
      simp only [Multiset.eq_zero_iff_forall_notMem, Multiset.mem_add, not_or, forall_and]
    rw [hlog, hboth, zeros_eq_zero_iff, zeros_eq_zero_iff, or_iff_right (Nat.not_le.2 hname), hctl]
    refine and_congr_right fun _ => ?_
    rw [List.mem_singleton]
    constructor
    · exact fun hne _ h => hne (Option.some.inj h).symm
    · exact fun h hzero => h hall (congrArg some hzero.symm)

/-- **A call that succeeds** leaves the descriptors of its queues open. -/
theorem fds_of_succeeds (hok : env.Succeeds baseTapDev n mtu bridge) :
    (netCreateTapMqFds env baseTapDev n mtu bridge).fds.length = n ∧
      (netCreateTapMqFds env baseTapDev n mtu bridge).fds ≤
        openAfter (netCreateTapMqFds env baseTapDev n mtu bridge).log := by
  have hok' := ok_iff_succeeds.2 hok
  obtain ⟨hname, hall, -, -⟩ := hok
  obtain ⟨r, hr, hcase⟩ := netCreateTapMqFds_cases env baseTapDev n mtu bridge
  rw [hr] at hok' ⊢
  have hstored : (env.stored n).length = n := by
    unfold TapMqEnv.stored
    rw [List.takeWhile_eq_self_iff.2 fun i hi => hall i (List.mem_range.1 hi), List.length_map,
      List.length_range]
  rcases hcase with ⟨_, hfail, -⟩ | ⟨-, hfds, ⟨_, hfail, -⟩ | ⟨-, ⟨_, hfail, -⟩ |
    ⟨ctlFd, -, -, ⟨-, -, hlog⟩ | ⟨_, hfail, -⟩⟩⟩⟩
  · exact absurd (hfail.symm.trans hok') nofun
  · exact absurd (hfail.symm.trans hok') nofun
  · exact absurd (hfail.symm.trans hok') nofun
  · rw [hfds, hlog]
    exact ⟨hstored, Multiset.le_add_right _ _⟩
  · exact absurd (hfail.symm.trans hok') nofun

end OpenAfter

end UdpEthTunnel
