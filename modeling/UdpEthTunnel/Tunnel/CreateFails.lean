/-
# When a tunnel cannot be created

`tunnel_create` returns `NULL`: has everything been released that it acquired on the way?
`tunnel_delete` releases what the fields of the tunnel name, except for a descriptor
that is 0.  So what is missing in the end is what no field names: the name of the tunnel
when the sockets have no array, the text of `must_asprintf`, a control socket if it is
0.  And when a worker cannot be started after another one, the workers are cancelled once
more through the tunnel that has just been deleted.

The proof takes the parts of `tunnel_create` one by one (`Stage`); `cleansUp_iff` says
exactly which failures are cleaned up after.
-/

import UdpEthTunnel.Tunnel.AllOrNothing
import UdpEthTunnel.Tunnel.Standing

namespace UdpEthTunnel

open Tunnel Ledger

section Exits

variable (c : CreateCalls) (params : TunnelParams)

/-- The interface can be asked for its address and its mtu. -/
def CreateCalls.Control : Prop :=
  c.ctlFd ≠ none ∧ c.sock.ifAddr ≠ none ∧ c.sock.ifMtu = true

/-- All the sockets are opened. -/
def CreateCalls.AllSocks (n : ℕ) : Prop := c.Control ∧ AllOpen c.sock.socket c.sock.ready n

/-- The socket of queue `q` is opened, with the descriptor `fd`. -/
def CreateCalls.SockOpened (n q : ℕ) (fd : Fd) : Prop :=
  c.Control ∧ Opened c.sock.socket c.sock.ready false n q fd

/-- All the epoll sets are created. -/
def CreateCalls.AllEpoll (n : ℕ) : Prop :=
  c.env.callocEpollFds = true ∧ AllOpen c.env.epollCreate c.epollReady n

/-- The epoll set of queue `q` is created, with the descriptor `fd`. -/
def CreateCalls.EpollOpened (n q : ℕ) (fd : Fd) : Prop :=
  c.env.callocEpollFds = true ∧ Opened c.env.epollCreate c.epollReady true n q fd

/-- `t->mtu`. -/
def TunnelParams.tapMtu (params : TunnelParams) : ℕ := if params.mtu > 0 then params.mtu.toNat else 1500

/-- `tunnel_alloc_new_tap` gets what it needs. -/
def CreateCalls.DeviceReady (n : ℕ) : Prop :=
  c.env.alloc.realloc ≠ none ∧
    c.tap.Succeeds params.tapBaseName n params.tapMtu params.bridgeName ∧
    ∀ q < n, c.env.alloc.nonblocking q = true ∧ c.env.alloc.epollAdd q = true

/-- `net_create_tap_mq_fds` is called: the allow list is made, if one is configured, the default
endpoint resolves, and there is a table for its device. -/
structure CreateCalls.ReachesTap : Prop where
  allowed : ∀ text, params.allowedRemoteHosts = some text → c.env.cidrList text ≠ none
  host : ∃ host, params.defaultRemoteHost = some host ∧ c.env.lookupHost host ≠ none
  table : c.env.alloc.realloc ≠ none

/-- Every call before the first `pthread_create` succeeds. -/
structure CreateCalls.Prepared : Prop where
  socks : c.AllSocks (c.numQueues params).toNat
  epoll : c.AllEpoll (c.numQueues params).toNat
  hosts : params.allowedRemoteHosts ≠ none ∨ params.defaultRemoteHost ≠ none
  allowed : ∀ text, params.allowedRemoteHosts = some text → c.env.cidrList text ≠ none
  device : ∀ host, params.defaultRemoteHost = some host →
    c.env.lookupHost host ≠ none ∧ c.DeviceReady params (c.numQueues params).toNat
  workers : c.env.mallocWorkers = true

/-- **The failures that are cleaned up after**, once there is a tunnel.  There is an array
for the sockets; no descriptor that is opened is 0, be it that of a queue or that of a control
socket; the name of the bridge is configured, if it comes to that; and if a thread is what
fails, it is the first, and it leaves no trace. -/
structure CleanExit : Prop where
  array : 0 ≤ c.numQueues params ∧ c.env.callocUdpFds = true
  ctl : c.ctlFd ≠ some 0
  socks : ∀ q, ¬ c.SockOpened (c.numQueues params).toNat q 0
  bridge : c.AllSocks (c.numQueues params).toNat → params.bridgeName ≠ none
  epoll : c.AllSocks (c.numQueues params).toNat →
    ∀ q, ¬ c.EpollOpened (c.numQueues params).toNat q 0
  tapCtl : c.AllSocks (c.numQueues params).toNat → c.AllEpoll (c.numQueues params).toNat →
    c.ReachesTap params → ¬ c.tap.OpensCtl params.tapBaseName (c.numQueues params).toNat 0
  threads : c.Prepared params → c.env.pthreadCreate 0 = false ∧ c.staleThread 0 = false

end Exits

/-! ### The parts -/

/-- **A part of `tunnel_create`**: if it ends, it has succeeded where `good` says so, and
the tunnel satisfies `S`. -/
def Stage (r : Reply Build) (good : Prop) (S : Build → Prop) : Prop :=
  ∀ ok, r.ending = .ret ok → (ok = true ↔ good) ∧ S r.state

section Stage

variable {r : Reply Build} {f : Build → Reply Build} {good good' : Prop} {S S' : Build → Prop}
  {b : Build}

theorem Stage.ret {ok : Bool} (hok : ok = true ↔ good) (hS : S b) : Stage ⟨.ret ok, b⟩ good S := by
  intro ok' h
  injection h with h
  exact ⟨h ▸ hok, hS⟩

theorem Stage.crash (x : Crash) : Stage ⟨.crash x, b⟩ good S := by
  intro ok h
  cases h

theorem Stage.stuck : Stage ⟨.stuck, b⟩ good S := by
  intro ok h
  cases h

theorem Stage.mono (h : Stage r good S) (hgood : good ↔ good') (hS : ∀ b, S b → S' b) :
    Stage r good' S' := fun ok hret =>
  ⟨(h ok hret).1.trans hgood, hS _ (h ok hret).2⟩

/-- Two parts, one after the other. -/
theorem Stage.andThen (h : Stage r good S) (hgood : ∀ b, S b → good → Stage (f b) good' S')
    (hbad : ∀ b, S b → ¬ good → S' b) : Stage (r.andThen f) (good ∧ good') S' := by
  intro ok hret
  by_cases htrue : r.ending = .ret true
  · rw [Reply.andThen_of_true htrue] at hret ⊢
    obtain ⟨hg, hS⟩ := h true htrue
    obtain ⟨hok, hS'⟩ := hgood _ hS (hg.1 rfl) ok hret
    exact ⟨hok.trans (and_iff_right (hg.1 rfl)).symm, hS'⟩
  · rw [Reply.andThen_of_ne htrue] at hret ⊢
    obtain ⟨hg, hS⟩ := h ok hret
    have hfalse : ok ≠ true := fun hok => htrue (hok ▸ hret)
    have hnot : ¬ good := hg.not.1 hfalse
    exact ⟨iff_of_false hfalse fun hboth => hnot hboth.1, hbad _ hS hnot⟩

end Stage

/-! ### Before `tunnel_delete` can be called -/

section Parts

variable {c : CreateCalls} {params : TunnelParams} {k : Shape} {used : List Block} {b : Build}
  {n : ℕ}

/-- There is neither a device nor a table for one. -/
def Build.Bare (b : Build) : Prop := b.tunnel.tapDevs = [] ∧ b.tunnel.numTapDevs = 0

/-- The mtu and the names have been set, and there is no device. -/
def Build.Named (params : TunnelParams) (b : Build) : Prop :=
  b.Bare ∧ b.tunnel.mtu = params.tapMtu

/-- **What the first part comes to**, if it ends. -/
theorem newTunnel_cases (c : CreateCalls) (params : TunnelParams) :
    c.env.malloc = false ∧ newTunnel c params = ⟨.ret false, .empty⟩ ∨
    c.env.malloc = true ∧
      ((newTunnel c params).ending = .crash .wildAccess ∨
       ¬ (0 ≤ c.numQueues params ∧ c.env.callocUdpFds = true) ∧
        (newTunnel c params).ending = .ret false ∧ ¬ Balanced (newTunnel c params).state.log ∨
       (0 ≤ c.numQueues params ∧ c.env.callocUdpFds = true) ∧
        (newTunnel c params).ending = .ret true ∧ (newTunnel c params).state.Bare ∧
        Standing { queues := (c.numQueues params).toNat } [.udpFds, .name, .tunnel]
          (newTunnel c params).state) := by
  unfold newTunnel
  by_cases hmalloc : c.env.malloc = false
  · exact .inl ⟨hmalloc, if_pos hmalloc⟩
  · refine .inr ⟨eq_true_of_ne_false hmalloc, ?_⟩
    rw [if_neg hmalloc]
    have hstart := (Standing.empty.alloc .tunnel (by simp) (by simp)).alloc .name (by simp) (by simp)
    by_cases hname : params.tunnelName = none
    · exact .inl (by simp only [hname, if_true])
    · simp only [hname, if_false]
      by_cases harray : 0 ≤ c.numQueues params ∧ c.env.callocUdpFds = true
      · rw [if_pos harray]
        have hqueues := hstart.setTunnel { Build.empty.tunnel with
          numQueues := (c.numQueues params).toNat } rfl rfl rfl rfl
        exact .inr (.inr ⟨harray, rfl, ⟨rfl, rfl⟩, hqueues.alloc .udpFds (by simp) (by simp)⟩)
      · rw [if_neg harray]
        -- the name is still held
        exact .inr (.inl ⟨harray, rfl, by decide⟩)

/-! ### The sockets and the epoll sets -/

/-- A control socket is closed where its scope ends, unless it is 0. -/
theorem holds_closeCtl {log : List (Entry Resource)} {P : Resource → Prop} {res : Resource}
    (ctl : Fd) (hlog : Holds log P) (hctl : P res) :
    Holds (log ++ if ctl > 0 then [.release res] else []) fun r =>
      P r ∧ (r = res → ctl = 0) := by
  by_cases hpos : ctl > 0
  · rw [if_pos hpos]
    refine (hlog.release hctl).congr fun r => and_congr_right fun _ => ?_
    exact ⟨fun hne heq => absurd heq hne, fun hzero heq => hpos.ne' (hzero heq)⟩
  · rw [if_neg hpos, List.append_nil]
    exact hlog.congr fun r => (and_iff_left fun _ => Nat.eq_zero_of_not_pos hpos).symm

/-- The control socket has been opened, and the sockets `fds`. -/
theorem Standing.openSocks (h : Standing { queues := n } used b) (log : List (Entry Resource))
    (fds : List Fd) {ctl : Fd} (hctl : c.ctlFd = some ctl)
    (hlog : Holds (b.log ++ [.acquire (.ctl ctl)] ++ log) fun r =>
      ((b.Owns r ∨ Shape.Lost { queues := n } r) ∨ r = .ctl ctl) ∨
        ∃ q fd, fds[q]? = some fd ∧ r = .udp (0 + q) fd) :
    Standing { queues := n, socks := fds, ctl := c.ctlFd = some 0 } used
      ((b.put (.acquire (.ctl ctl) ::
        (log ++ if ctl > 0 then [.release (.ctl ctl)] else []))).setTunnel
          { b.tunnel with udpFds := fds }) := by
  refine ⟨?_, h.used, h.queues, rfl, h.epolls, h.threads, h.devs⟩
  have hclosed := holds_closeCtl ctl hlog (.inl (.inr rfl))
  simp only [List.append_assoc, List.singleton_append] at hclosed
  have hnone : b.tunnel.udpFds = [] := h.socks
  refine hclosed.congr fun r => ?_
  rw [hctl]
  cases r with
  | ctl fd =>
    have hzero : (fd = ctl ∧ (fd = ctl → ctl = 0)) ↔ fd = 0 ∧ ctl = 0 := by
      constructor
      · rintro ⟨rfl, hz⟩
        exact ⟨hz rfl, hz rfl⟩
      · rintro ⟨rfl, rfl⟩
        exact ⟨rfl, fun _ => rfl⟩
    simpa [Build.Owns, Shape.Lost] using hzero
  | _ => simp [Build.Owns, Build.setTunnel, Build.put, Shape.Lost, hnone]

/-- **The sockets.** -/
theorem stage_openUdpSocks (h : Standing { queues := n } used b) (hbare : b.Bare) :
    Stage (openUdpSocks c params b) (c.AllSocks n) fun b => ∃ socks,
      (∀ q fd, socks[q]? = some fd ↔ c.SockOpened n q fd) ∧
      Standing { queues := n, socks := socks, ctl := c.ctlFd = some 0 } used b ∧ b.Bare := by
  unfold openUdpSocks
  by_cases hiface : params.bindIface = none
  · rw [if_pos hiface]
    exact .crash _
  · rw [if_neg hiface]
    have hnone : b.tunnel.udpFds = [] := h.socks
    have hnot : ¬ c.Control → ∀ q fd, ([] : List Fd)[q]? = some fd ↔ c.SockOpened n q fd :=
      fun hno q fd => by simp [CreateCalls.SockOpened, hno]
    cases hctl : c.ctlFd with
    | none =>
      have hno : ¬ c.Control := fun hyes => hyes.1 hctl
      refine Stage.ret (by simp [CreateCalls.AllSocks, hno]) ⟨[], hnot hno, ?_, hbare⟩
      simpa using h
    | some ctl =>
      have hfirst := h.holds.acquire (r := .ctl ctl) (by simp [Build.Owns, Shape.Lost])
      dsimp only
      rw [← hctl]
      by_cases hask : c.sock.ifAddr = none ∨ c.sock.ifMtu = false
      · rw [if_pos hask]
        have hno : ¬ c.Control := fun hyes =>
          hask.elim hyes.2.1 fun hfalse => absurd hyes.2.2 (by simp [hfalse])
        have hstanding := h.openSocks [] b.tunnel.udpFds hctl (by simpa [hnone] using hfirst)
        exact Stage.ret (by simp [CreateCalls.AllSocks, hno])
          ⟨b.tunnel.udpFds, by rw [hnone]; exact hnot hno, hstanding, hbare⟩
      · rw [if_neg hask]
        have hyes : c.Control := ⟨by simp [hctl], fun hnone => hask (.inl hnone),
          eq_true_of_ne_false fun hfalse => hask (.inr hfalse)⟩
        rcases hopen : openEach c.sock.socket c.sock.ready .udp false 0 b.tunnel.numQueues with
          ⟨log, fds, ok⟩
        have hall := openEach_all hopen
        have hlog := holds_openEach hopen hfirst
          (fun j fd _ => by simp [Build.Owns, Shape.Lost, hnone])
          (fun _ _ _ _ heq => (Resource.udp.inj heq).1)
        rw [h.queues] at hall
        exact Stage.ret (by rw [hall.1, CreateCalls.AllSocks, and_iff_right hyes])
          ⟨fds, fun q fd => by rw [hall.2, CreateCalls.SockOpened, and_iff_right hyes],
            h.openSocks log fds hctl hlog, hbare⟩

/-- **The names.** -/
theorem stage_setNames (h : Standing k [.udpFds, .name, .tunnel] b) (htext : k.text = False)
    (hbare : b.Bare) :
    Stage (setNames params b) True fun b => b.Named params ∧
      Standing { k with text := params.bridgeName = none }
        [.bridgeName, .tapBaseName, .udpFds, .name, .tunnel] b := by
  unfold setNames
  have hmtu := h.setTunnel { b.tunnel with
    mtu := if params.mtu > 0 then params.mtu.toNat else 1500 } h.queues rfl rfl rfl
  have hb₁ : (b.setTunnel { b.tunnel with
    mtu := if params.mtu > 0 then params.mtu.toNat else 1500 }).Named params := ⟨hbare, rfl⟩
  dsimp only
  generalize b.setTunnel _ = b₁ at hmtu hb₁ ⊢
  have hbase : Standing k [.tapBaseName, .udpFds, .name, .tunnel]
      (if params.tapBaseName.isSome then b₁.alloc .tapBaseName else b₁) := by
    split_ifs
    · exact hmtu.alloc .tapBaseName (by simp) (by simp)
    · exact hmtu.mono (by simp)
  have hnamed : (if params.tapBaseName.isSome then b₁.alloc .tapBaseName else b₁).Named params := by
    split_ifs
    · exact hb₁
    · exact hb₁
  generalize (if params.tapBaseName.isSome then b₁.alloc .tapBaseName else b₁) = b₂ at hbase hnamed ⊢
  cases hbridge : params.bridgeName with
  | some name =>
    refine Stage.ret (by simp) ⟨hnamed, ?_⟩
    have hall := hbase.alloc .bridgeName (by simp) (by simp)
    simpa [← htext] using hall
  | none =>
    refine Stage.ret (by simp) ⟨hnamed, ?_, fun x hx => List.mem_cons_of_mem _ (hbase.used x hx),
      hbase.queues, hbase.socks, hbase.epolls, hbase.threads, hbase.devs⟩
    refine (hbase.holds.acquire (r := .bridgeText) (by simp [Build.Owns, Shape.Lost, htext])).congr
      fun r => ?_
    cases r <;> simp [Build.Owns, Build.put, Shape.Lost, htext]

/-- **The epoll sets.** -/
theorem stage_openEpollFds (h : Standing k [.bridgeName, .tapBaseName, .udpFds, .name, .tunnel] b)
    (hepolls : k.epolls = []) (hnamed : b.Named params) :
    Stage (openEpollFds c b) (c.AllEpoll k.queues) fun b => ∃ epolls,
      (∀ q fd, epolls[q]? = some fd ↔ c.EpollOpened k.queues q fd) ∧ b.Named params ∧
      Standing { k with epolls := epolls }
        [.epollFds, .bridgeName, .tapBaseName, .udpFds, .name, .tunnel] b := by
  unfold openEpollFds
  by_cases hcalloc : c.env.callocEpollFds = false
  · rw [if_pos hcalloc]
    exact Stage.ret (by simp [CreateCalls.AllEpoll, hcalloc])
      ⟨k.epolls, by simp [CreateCalls.EpollOpened, hcalloc, hepolls], hnamed, h.mono (by simp)⟩
  · rw [if_neg hcalloc]
    have hyes := eq_true_of_ne_false hcalloc
    have harray := h.alloc .epollFds (by simp) (by simp)
    dsimp only
    rcases hopen : openEach c.env.epollCreate c.epollReady .epoll true 0
      (b.alloc .epollFds).tunnel.numQueues with ⟨log, fds, ok⟩
    have hall := openEach_all hopen
    have hnone : b.tunnel.epollFds = [] := h.epolls.trans hepolls
    have hlog := holds_openEach hopen harray.holds
      (fun j fd _ => by simp [Build.Owns, Build.alloc, Shape.Lost, hnone])
      (fun _ _ _ _ heq => (Resource.epoll.inj heq).1)
    rw [harray.queues] at hall
    refine Stage.ret ?_ ⟨fds, fun q fd => ?_, hnamed, hlog.congr fun r => ?_, harray.used, h.queues,
      h.socks, rfl, h.threads, harray.devs⟩
    · rw [hall.1, CreateCalls.AllEpoll, and_iff_right hyes]
    · rw [hall.2, CreateCalls.EpollOpened, and_iff_right hyes]
    · cases r <;> simp [Build.Owns, Build.alloc, Build.put, Shape.Lost, hnone]

/-! ### The rest -/

/-- **The allow list.** -/
theorem stage_addAllowed (h : Standing k used b) (hnamed : b.Named params)
    (hnew : .allowedAddrList ∉ used) :
    Stage (addAllowed c params b)
      (∀ text, params.allowedRemoteHosts = some text → c.env.cidrList text ≠ none) fun b =>
      b.Named params ∧ Standing k (.allowedAddrList :: used) b := by
  have hsame : Standing k (.allowedAddrList :: used) b := h.mono (List.subset_cons_self _ _)
  unfold addAllowed
  cases htext : params.allowedRemoteHosts with
  | none => exact Stage.ret (by simp) ⟨hnamed, hsame⟩
  | some text =>
    dsimp only
    cases hlist : c.env.cidrList text with
    | none => exact Stage.ret (by simp [hlist]) ⟨hnamed, hsame⟩
    | some list =>
      have hset := h.setTunnel { b.tunnel with allowedAddrList := some list } h.queues rfl rfl rfl
      exact Stage.ret (by simp [hlist]) ⟨hnamed, hset.alloc .allowedAddrList hnew (by simp)⟩

/-- **The map.** -/
theorem stage_addMap (h : Standing k used b) (hnamed : b.Named params) (hnew : .map ∉ used) :
    Stage (addMap c b) True fun b =>
      (b.Named params ∧ b.tunnel.map = heapOps.create c.env.mapCreate) ∧
        Standing k (.map :: used) b := by
  have hset := h.setTunnel { b.tunnel with map := heapOps.create c.env.mapCreate } h.queues
    rfl rfl rfl
  unfold addMap
  dsimp only
  split_ifs
  · exact Stage.ret (by simp) ⟨⟨hnamed, rfl⟩, hset.alloc .map hnew (by simp)⟩
  · exact Stage.ret (by simp) ⟨⟨hnamed, rfl⟩, hset.mono (List.subset_cons_self _ _)⟩

/-- **What is left of `net_create_tap_mq_fds`**, beside the descriptors of the device: its
control socket, if that is 0. -/
theorem tapEntries_leavesCtl (c : CreateCalls) (params : TunnelParams) (t : Tunnel MapHeap) :
    LeavesCtl (c.tapEntries params t) ((c.tapMq params t).ctl = some 0) := by
  intro log P hlog hnetDev hctl
  -- the listing is closed again
  have hlist : Holds (log ++ if c.tap.procNetDev.isSome then [.acquire .netDev, .release .netDev]
      else []) P := by
    split_ifs
    · have hread := (hlog.acquire hnetDev).release (r := .netDev) (.inr rfl)
      rw [List.append_assoc] at hread
      refine hread.congr fun r => ⟨fun h => h.1.resolve_right h.2, fun h => ⟨.inl h, ?_⟩⟩
      rintro rfl
      exact hnetDev h
    · rwa [List.append_nil]
  unfold CreateCalls.tapEntries
  cases (c.tapMq params t).ctl with
  | none => exact hlist.congr fun r => by simp
  | some ctl =>
    have hclosed := holds_closeCtl ctl (hlist.acquire (hctl ctl)) (.inr rfl)
    simp only [List.append_assoc, List.singleton_append] at hclosed ⊢
    refine hclosed.congr fun r => ⟨?_, ?_⟩
    · rintro ⟨hr | rfl, hzero⟩
      · exact .inl hr
      · obtain rfl := hzero rfl
        exact .inr ⟨rfl, rfl⟩
    · rintro (hr | ⟨rfl, hzero⟩)
      · refine ⟨.inl hr, ?_⟩
        rintro rfl
        exact absurd hr (hctl ctl)
      · obtain rfl := Option.some.inj hzero
        exact ⟨.inr rfl, fun _ => rfl⟩

/-- **A device.** -/
theorem stage_allocTap (h : Standing k used b) (htap : k.tapCtl = False) (hnamed : b.Named params)
    (htable : .tapDevs ∉ used) (hfds : .tapFds 0 ∉ used) (e : Endpoint) :
    Stage (allocTap c params b e) (c.DeviceReady params k.queues)
      (Standing (k.withTap
          (c.env.alloc.realloc ≠ none ∧ c.tap.OpensCtl params.tapBaseName k.queues 0))
        (.stats 0 :: .tapFds 0 :: .tapDevs :: used)) := by
  obtain ⟨⟨hdevs, hnum⟩, hmtu⟩ := hnamed
  have hsize : b.tunnel.tapDevsAllocated = 0 := congrArg List.length hdevs
  have hgrown := h.alloc .tapDevs htable (by simp)
  -- the control socket and the descriptors of the device
  have hentries := tapEntries_leavesCtl c params b.tunnel
  have hctl : (c.tapMq params b.tunnel).ctl = some 0 ↔ c.tap.OpensCtl params.tapBaseName k.queues 0 := by
    rw [← h.queues]
    exact ctl_eq_some_iff
  have hcreate : (c.tapMq params b.tunnel).createFds = none ↔
      ¬ c.tap.Succeeds params.tapBaseName k.queues params.tapMtu params.bridgeName := by
    rw [← h.queues, ← hmtu]
    exact createFds_eq_none_iff
  have hmade : ∀ t₁, growTapDevs (c.allocEnv params b.tunnel) b.tunnel = some t₁ →
      c.env.alloc.realloc ≠ none := by
    intro t₁ hg hnone
    have hfull : growTapDevs (c.allocEnv params b.tunnel) b.tunnel = none :=
      growTapDevs_eq_none_iff.2 ⟨by omega, hnone⟩
    rw [hfull] at hg
    cases hg
  unfold allocTap
  dsimp only
  rcases allocNewTap_cases b.tunnel (c.allocEnv params b.tunnel) b.epoll e with ⟨hg, hret⟩ |
    ⟨t₁, hg, ⟨-, hret⟩ | ⟨-, hret | ⟨fds, epoll, ok, hreg, ⟨rfl, hret⟩ | ⟨rfl, hret⟩⟩⟩⟩ <;>
    rw [hret, hg, hnum]
  · have hrealloc : c.env.alloc.realloc = none := (growTapDevs_eq_none_iff.1 hg).2
    refine Stage.ret (by simp [CreateCalls.DeviceReady, hrealloc]) ?_
    have hsame : Standing k (.stats 0 :: .tapFds 0 :: .tapDevs :: used) b :=
      h.mono fun x hx => by simp [hx]
    exact hsame.congr (by simp [hrealloc, htap])
  · exact .crash _
  · exact .crash _
  · obtain ⟨⟨hext, -⟩, -, hnum₁, -⟩ := growTapDevs_spec (by omega) hg
    have hrealloc := hmade t₁ hg
    refine Stage.ret (iff_of_false (by simp) ?_) ?_
    · rintro ⟨-, hsucceeds, hready⟩
      rcases hreg with ⟨hnone, -⟩ | ⟨-, hreg⟩
      · exact hcreate.1 hnone hsucceeds
      · obtain ⟨i, hi, hall, -, hstop, -⟩ := registerTapFds_spec hreg
        rw [List.length_map, List.length_range, hext.numQueues, h.queues] at hi hall hstop
        have hlt : i < k.queues := lt_of_le_of_ne hi fun heq => Bool.false_ne_true (hall.2 heq)
        exact hstop hlt (hready _ (by omega))
    · have hreleased := hgrown.putBlock htap (x := .tapFds 0) (by simpa using hfds) hentries
      have hset := hreleased.setTunnel (t₁.setDev t₁.numTapDevs ⟨e, none, none⟩)
        (hext.numQueues.trans h.queues) hext.udpFds hext.epollFds hnum₁
      exact ((hset.setEpoll epoll).mono fun _ hx =>
        List.mem_cons_of_mem _ (List.mem_cons_of_mem _ hx)).congr (by simp [Shape.withTap, hrealloc, hctl])
  · obtain ⟨⟨hext, -⟩, -, hnum₁, -⟩ := growTapDevs_spec (by omega) hg
    have hrealloc := hmade t₁ hg
    rcases hreg with ⟨-, -, hfalse⟩ | ⟨hsome, hreg⟩
    · cases hfalse
    · obtain ⟨i, -, hall, hdone, -, -⟩ := registerTapFds_spec hreg
      rw [List.length_map, List.length_range, hext.numQueues, h.queues] at hall
      obtain rfl := hall.1 rfl
      have hsucceeds : c.tap.Succeeds params.tapBaseName k.queues params.tapMtu params.bridgeName := by
        by_contra hfail
        cases (hcreate.2 hfail).symm.trans hsome
      refine Stage.ret (iff_of_true rfl ⟨hrealloc, hsucceeds, fun q hq => ?_⟩) ?_
      · simpa [CreateCalls.allocEnv] using hdone q hq
      · have hdev := hgrown.addDev htap hnum hentries (t := { t₁.setDev t₁.numTapDevs ⟨e, some
          ((List.range t₁.numQueues).map fds), some (List.replicate t₁.numQueues {})⟩ with
          numTapDevs := t₁.numTapDevs + 1 }) hext.numQueues hext.udpFds hext.epollFds (by
            show t₁.numTapDevs + 1 = 1
            omega)
        exact (hdev.setEpoll epoll).congr (by simp [Shape.withTap, hrealloc, hctl])

/-- **The device of the default endpoint.** -/
theorem stage_addDefaultTap (h : Standing k used b) (htap : k.tapCtl = False)
    (hnamed : b.Named params ∧ b.tunnel.map = heapOps.create c.env.mapCreate)
    (htable : .tapDevs ∉ used) (hfds : .tapFds 0 ∉ used) :
    Stage (addDefaultTap c params b)
      (∀ host, params.defaultRemoteHost = some host →
        c.env.lookupHost host ≠ none ∧ c.DeviceReady params k.queues)
      (Standing (k.withTap
          ((∃ host, params.defaultRemoteHost = some host ∧ c.env.lookupHost host ≠ none) ∧
            c.env.alloc.realloc ≠ none ∧ c.tap.OpensCtl params.tapBaseName k.queues 0))
        (.stats 0 :: .tapFds 0 :: .tapDevs :: used)) := by
  have hsame : Standing k (.stats 0 :: .tapFds 0 :: .tapDevs :: used) b :=
    h.mono fun x hx => by simp [hx]
  unfold addDefaultTap
  cases hhost : params.defaultRemoteHost with
  | none => exact Stage.ret (by simp) (hsame.congr (by simp [htap]))
  | some host =>
    dsimp only
    cases haddr : c.env.lookupHost host with
    | none => exact Stage.ret (by simp [haddr]) (hsame.congr (by simp [haddr, htap]))
    | some addr =>
      dsimp only
      cases hadd : heapOps.addAssign c.env.mapAdd b.tunnel.map ⟨addr, params.remotePort⟩ 0 with
      | stuck => exact .stuck
      | crash => exact .crash _
      | ret map =>
        cases map with
        | none =>
          rw [hnamed.2] at hadd
          exact absurd hadd heapAddAssign_create_ne_null
        | some map =>
          have hset := h.setTunnel { b.tunnel with map := map } h.queues rfl rfl rfl
          refine (stage_allocTap hset htap hnamed.1 htable hfds _).mono (by simp [haddr]) fun b hb => ?_
          simpa [haddr] using hb

/-- **The array of the workers.** -/
theorem stage_addWorkers (h : Standing k used b) (hnew : .workers ∉ used) :
    Stage (addWorkers c b) (c.env.mallocWorkers = true) (Standing k (.workers :: used)) := by
  unfold addWorkers
  split_ifs with hmalloc
  · exact Stage.ret (by simp [hmalloc]) (h.alloc .workers hnew (by simp))
  · exact Stage.ret (by simp [hmalloc]) (h.mono (List.subset_cons_self _ _))

end Parts

/-! ### The whole -/

section Whole

variable {c : CreateCalls} {params : TunnelParams} {k : Shape} {used : List Block} {b : Build}
  {n : ℕ}

/-- **Where a tunnel of `n` queues stands** when it has been built, or has not. -/
structure Exit (c : CreateCalls) (params : TunnelParams) (n : ℕ) (k : Shape) (b : Build) : Prop where
  standing : ∃ used, Standing k used b
  queues : k.queues = n
  socks : ∀ q fd, k.socks[q]? = some fd ↔ c.SockOpened n q fd
  epolls : ∀ q fd, k.epolls[q]? = some fd ↔ c.AllSocks n ∧ c.EpollOpened n q fd
  ctl : k.ctl ↔ c.ctlFd = some 0
  text : k.text ↔ c.AllSocks n ∧ params.bridgeName = none
  tapCtl : k.tapCtl ↔ c.AllSocks n ∧ c.AllEpoll n ∧ c.ReachesTap params ∧
    c.tap.OpensCtl params.tapBaseName n 0

/-- The parts after the epoll sets. -/
theorem stage_tail (h : Standing k [.epollFds, .bridgeName, .tapBaseName, .udpFds, .name, .tunnel] b)
    (htap : k.tapCtl = False) (hnamed : b.Named params) :
    Stage ((checkHosts params b).andThen fun b => (addAllowed c params b).andThen fun b =>
        (addMap c b).andThen fun b => (addDefaultTap c params b).andThen fun b => addWorkers c b)
      ((params.allowedRemoteHosts ≠ none ∨ params.defaultRemoteHost ≠ none) ∧
        (∀ text, params.allowedRemoteHosts = some text → c.env.cidrList text ≠ none) ∧ True ∧
        (∀ host, params.defaultRemoteHost = some host →
          c.env.lookupHost host ≠ none ∧ c.DeviceReady params k.queues) ∧ c.env.mallocWorkers = true)
      fun b => ∃ used, Standing (k.withTap
        (c.ReachesTap params ∧ c.tap.OpensCtl params.tapBaseName k.queues 0)) used b := by
  have hnone : ∀ {used b}, ¬ c.ReachesTap params → Standing k used b → ∃ used, Standing (k.withTap
      (c.ReachesTap params ∧ c.tap.OpensCtl params.tapBaseName k.queues 0)) used b := by
    intro used b hno hb
    exact ⟨used, hb.congr (by simp [hno, htap])⟩
  have hhosts : Stage (checkHosts params b)
      (params.allowedRemoteHosts ≠ none ∨ params.defaultRemoteHost ≠ none) fun b => b.Named params ∧
      Standing k [.epollFds, .bridgeName, .tapBaseName, .udpFds, .name, .tunnel] b :=
    Stage.ret (by simp [Option.isSome_iff_ne_none]) ⟨hnamed, h⟩
  refine hhosts.andThen (fun b hb _ => ?_) fun b hb hno => hnone (fun hreach => hno (.inr ?_)) hb.2
  · refine (stage_addAllowed hb.2 hb.1 (by simp)).andThen (fun b hb hlist => ?_) fun b hb hno =>
      hnone (fun hreach => hno hreach.allowed) hb.2
    refine (stage_addMap hb.2 hb.1 (by simp)).andThen (fun b hb _ => ?_) fun _ _ hno =>
      absurd trivial hno
    have hreaches : c.ReachesTap params ∧ c.tap.OpensCtl params.tapBaseName k.queues 0 ↔
        (∃ host, params.defaultRemoteHost = some host ∧ c.env.lookupHost host ≠ none) ∧
          c.env.alloc.realloc ≠ none ∧ c.tap.OpensCtl params.tapBaseName k.queues 0 :=
      ⟨fun h => ⟨h.1.host, h.1.table, h.2⟩, fun h => ⟨⟨hlist, h.1, h.2.1⟩, h.2.2⟩⟩
    rw [hreaches]
    refine (stage_addDefaultTap hb.2 htap hb.1 (by simp) (by simp)).andThen (fun b hb _ => ?_)
      fun b hb _ => ⟨_, hb⟩
    exact (stage_addWorkers hb (by simp)).mono Iff.rfl fun b hb => ⟨_, hb⟩
  · obtain ⟨host, hhost, -⟩ := hreach.host
    rw [hhost]
    simp

/-- The calls in the order of the parts, two of which always succeed. -/
theorem prepared_iff : c.Prepared params ↔ c.AllSocks (c.numQueues params).toNat ∧ True ∧
    c.AllEpoll (c.numQueues params).toNat ∧
    (params.allowedRemoteHosts ≠ none ∨ params.defaultRemoteHost ≠ none) ∧
    (∀ text, params.allowedRemoteHosts = some text → c.env.cidrList text ≠ none) ∧ True ∧
    (∀ host, params.defaultRemoteHost = some host →
      c.env.lookupHost host ≠ none ∧ c.DeviceReady params (c.numQueues params).toNat) ∧
    c.env.mallocWorkers = true := by
  constructor
  · rintro ⟨hsocks, hepoll, hhosts, hallowed, hdevice, hworkers⟩
    exact ⟨hsocks, trivial, hepoll, hhosts, hallowed, trivial, hdevice, hworkers⟩
  · rintro ⟨hsocks, -, hepoll, hhosts, hallowed, -, hdevice, hworkers⟩
    exact ⟨hsocks, hepoll, hhosts, hallowed, hdevice, hworkers⟩

/-- **The tunnel is built up, if every call succeeds**; either way, this is where it stands. -/
theorem stage_buildTunnel (h : Standing { queues := (c.numQueues params).toNat }
    [.udpFds, .name, .tunnel] b) (hbare : b.Bare) :
    Stage (buildTunnel c params b) (c.Prepared params) fun b =>
      ∃ k, k.started = 0 ∧ Exit c params (c.numQueues params).toNat k b := by
  rw [prepared_iff]
  refine (stage_openUdpSocks h hbare).andThen ?_ ?_
  · rintro b ⟨socks, hsocks, hb, hbare⟩ hall
    refine (stage_setNames hb rfl hbare).andThen ?_ fun _ _ hno => absurd trivial hno
    rintro b ⟨hnamed, hb⟩ -
    refine (stage_openEpollFds hb rfl hnamed).andThen ?_ ?_
    · rintro b ⟨epolls, hepolls, hnamed, hb⟩ hepoll
      refine (stage_tail hb rfl hnamed).mono Iff.rfl ?_
      rintro b ⟨used, hb⟩
      exact ⟨_, rfl, ⟨used, hb⟩, rfl, hsocks, by simpa [Shape.withTap, hall] using hepolls, Iff.rfl,
        by simp [Shape.withTap, hall], by simp [Shape.withTap, hall, hepoll]⟩
    · rintro b ⟨epolls, hepolls, -, hb⟩ hno
      exact ⟨_, rfl, ⟨_, hb⟩, rfl, hsocks, by simpa [hall] using hepolls, Iff.rfl, by simp [hall],
        by simp [hno]⟩
  · rintro b ⟨socks, hsocks, hb, -⟩ hno
    exact ⟨_, rfl, ⟨_, hb⟩, rfl, hsocks, by simp [hno], Iff.rfl, by simp [hno], by simp [hno]⟩

/-- The descriptors of an array are those of the queues. -/
theorem length_le_of_lt {fds : List Fd} (h : ∀ q fd, fds[q]? = some fd → q < n) :
    fds.length ≤ n := by
  by_contra hlt
  have hget := List.getElem?_eq_getElem (show n < fds.length by omega)
  exact Nat.lt_irrefl n (h n _ hget)

theorem Exit.holds_delete (h : Exit c params n k b) (garbage : ℕ → ℕ → Fd) :
    Holds (b.delete garbage).log k.Left := by
  obtain ⟨used, hstanding⟩ := h.standing
  refine hstanding.delete garbage (length_le_of_lt fun q fd hfd => ?_)
    (length_le_of_lt fun q fd hfd => ?_)
  · rw [h.queues]
    exact ((h.socks q fd).1 hfd).2.lt
  · rw [h.queues]
    exact ((h.epolls q fd).1 hfd).2.2.lt

/-- **When `tunnel_delete` leaves nothing behind.** -/
theorem Exit.balanced_iff (h : Exit c params n k b) (garbage : ℕ → ℕ → Fd) :
    Balanced (b.delete garbage).log ↔ c.ctlFd ≠ some 0 ∧ (∀ q, ¬ c.SockOpened n q 0) ∧
      (c.AllSocks n → params.bridgeName ≠ none) ∧ (c.AllSocks n → ∀ q, ¬ c.EpollOpened n q 0) ∧
      (c.AllSocks n → c.AllEpoll n → c.ReachesTap params →
        ¬ c.tap.OpensCtl params.tapBaseName n 0) := by
  rw [(h.holds_delete garbage).balanced_iff]
  constructor
  · intro hnone
    have hlost : ∀ r, ¬ k.Lost r := fun r hr => hnone r (.inr (.inr hr))
    refine ⟨fun hctl => hlost (.ctl 0) (.inl ⟨rfl, h.ctl.2 hctl⟩),
      fun q hq => hnone (.udp q 0) (.inl ⟨q, rfl, (h.socks q 0).2 hq⟩),
      fun hall hbridge => hlost .bridgeText (.inr (.inl ⟨rfl, h.text.2 ⟨hall, hbridge⟩⟩)),
      fun hall q hq => hnone (.epoll q 0) (.inr (.inl ⟨q, rfl, (h.epolls q 0).2 ⟨hall, hq⟩⟩)),
      fun hall hepoll hreach hopens =>
        hlost (.tapCtl 0) (.inr (.inr ⟨rfl, h.tapCtl.2 ⟨hall, hepoll, hreach, hopens⟩⟩))⟩
  · rintro ⟨hctl, hsocks, hbridge, hepolls, htap⟩ r
      (⟨q, -, hq⟩ | ⟨q, -, hq⟩ | ⟨-, hc⟩ | ⟨-, ht⟩ | ⟨-, hd⟩)
    · exact hsocks q ((h.socks q 0).1 hq)
    · exact hepolls ((h.epolls q 0).1 hq).1 q ((h.epolls q 0).1 hq).2
    · exact hctl (h.ctl.1 hc)
    · exact hbridge (h.text.1 ht).1 (h.text.1 ht).2
    · obtain ⟨hall, hepoll, hreach, hopens⟩ := h.tapCtl.1 hd
      exact htap hall hepoll hreach hopens

/-- Worker `k.started` is started. -/
theorem Standing.startWorker (h : Standing k used b) :
    Standing { k with started := k.started + 1 } used
      { b.put [.acquire (.thread k.started)] with threads := b.threads ++ [k.started] } := by
  refine ⟨(h.holds.acquire h.not_held_thread).congr fun r => ?_, h.used, h.queues, h.socks,
    h.epolls, ?_, h.devs⟩
  · cases r <;> simp [Build.Owns, Build.put, Shape.Lost]
  · show b.threads ++ [k.started] = List.range (k.started + 1)
    rw [h.threads, List.range_succ]

/-- **A worker that cannot be started**: those before it have been. -/
theorem startWorkers_fails {i : ℕ} (h : Standing { k with started := i } used b)
    (hnull : (startWorkers c i n b).ending = .ret false) : ∃ j b', i ≤ j ∧
      (∀ w, i ≤ w → w < j → c.env.pthreadCreate w = true) ∧ c.env.pthreadCreate j = false ∧
      Standing { k with started := j } used b' ∧ (startWorkers c i n b).state =
        (Build.delete c.garbage
          (if c.staleThread j then { b' with threads := b'.threads ++ [j] } else b')).put
          (cancelWorkers j) := by
  induction n generalizing i b with
  | zero => cases hnull
  | succ n ih =>
    unfold startWorkers at hnull ⊢
    cases hcreate : c.env.pthreadCreate i with
    | true =>
      rw [hcreate, if_pos rfl] at hnull
      obtain ⟨j, b', hij, hstarted, hfails, hb', hstate⟩ := ih h.startWorker hnull
      refine ⟨j, b', Nat.le_of_succ_le hij, fun w hw hwj => ?_, hfails, hb', by rw [if_pos rfl, hstate]⟩
      rcases Nat.eq_or_lt_of_le hw with rfl | hlt
      · exact hcreate
      · exact hstarted w hlt hwj
    | false =>
      exact ⟨i, b, le_rfl, fun w hw hwi => by omega, hcreate, h, by rw [if_neg (by simp)]⟩

/-- A handle that is not that of a thread is cancelled. -/
theorem Standing.not_balanced_of_stale (h : Standing k used b) (garbage : ℕ → ℕ → Fd)
    (log : List (Entry Resource)) :
    ¬ Balanced ((Build.delete garbage
      { b with threads := b.threads ++ [k.started] }).put log).log := by
  have hcancelled := h.holds.useAll (held_threads b k)
  simp only [Build.delete, Build.put, Build.deleteOps, List.map_append, List.filterMap_append,
    List.append_assoc]
  rw [filterMap_entry (fun _ => rfl)]
  rw [← List.append_assoc]
  rw [List.map_map] at hcancelled
  exact hcancelled.not_balanced_of_use h.not_held_thread

/-- The workers are cancelled through the tunnel that has been deleted. -/
theorem not_balanced_of_started {j : ℕ} {log : List (Entry Resource)}
    (h : Holds log k.Left) (hj : 0 < j) : ¬ Balanced (log ++ cancelWorkers j) := by
  obtain ⟨j, rfl⟩ := Nat.exists_eq_succ_of_ne_zero hj.ne'
  have hnot : ¬ k.Left (.block .tunnel) := by
    simp [Shape.Left, Shape.Lost]
  unfold cancelWorkers
  rw [List.range_succ_eq_map]
  exact h.not_balanced_of_use hnot

/-- **A worker cannot be started**: this is cleaned up after if it is the first. -/
theorem Exit.startWorkers_balanced_iff (h : Exit c params n k b) (hzero : k.started = 0)
    (hprepared : c.Prepared params) (harray : 0 ≤ c.numQueues params ∧ c.env.callocUdpFds = true)
    (hn : n = (c.numQueues params).toNat) {m : ℕ}
    (hnull : (startWorkers c 0 m b).ending = .ret false) :
    Balanced (startWorkers c 0 m b).state.log ↔ CleanExit c params := by
  obtain ⟨used, hstanding⟩ := h.standing
  have hnone : Standing { k with started := 0 } used b := by
    rw [← hzero]
    exact hstanding
  obtain ⟨j, b', -, hstarted, hfails, hb', hstate⟩ := startWorkers_fails hnone hnull
  have hexit : Exit c params n { k with started := j } b' := { h with standing := ⟨used, hb'⟩ }
  have hearlier : 0 < j → ¬ CleanExit c params := fun hj hclean => by
    have hfirst := (hclean.threads hprepared).1
    rw [hstarted 0 le_rfl hj] at hfirst
    cases hfirst
  rw [hstate]
  cases hstale : c.staleThread j with
  | true =>
    rw [if_pos rfl]
    refine iff_of_false (hb'.not_balanced_of_stale c.garbage _) fun hclean => ?_
    rcases Nat.eq_zero_or_pos j with rfl | hj
    · have htrace := (hclean.threads hprepared).2
      rw [hstale] at htrace
      cases htrace
    · exact hearlier hj hclean
  | false =>
    rw [if_neg (by simp)]
    rcases Nat.eq_zero_or_pos j with rfl | hj
    · have hlog : ((b'.delete c.garbage).put (cancelWorkers 0)).log = (b'.delete c.garbage).log :=
        List.append_nil _
      rw [hlog, hexit.balanced_iff, hn]
      constructor
      · rintro ⟨hctl, hsocks, hbridge, hepoll, htap⟩
        exact ⟨harray, hctl, hsocks, hbridge, hepoll, htap, fun _ => ⟨hfails, hstale⟩⟩
      · rintro ⟨-, hctl, hsocks, hbridge, hepoll, htap, -⟩
        exact ⟨hctl, hsocks, hbridge, hepoll, htap⟩
    · exact iff_of_false (not_balanced_of_started (hexit.holds_delete c.garbage) hj) (hearlier hj)

end Whole

/-- **Which failures are cleaned up after.**  Each exit of `tunnel_create` leaves the clean-up to
`tunnel_delete`, which releases what the fields of the tunnel name.  So a call that returns
`NULL` has released everything once exactly when the fields name everything and say that it
is there (`CleanExit`): there is an array for the sockets, no descriptor is 0, the bridge has
a name; and when no worker has been started, whom it would cancel once more through the tunnel
that has been deleted. -/
theorem cleansUp_iff (c : CreateCalls) (params : TunnelParams)
    (hnull : (tunnelCreateLog c params).ending = .ret false) :
    Balanced (tunnelCreateLog c params).state.log ↔ c.env.malloc = false ∨ CleanExit c params := by
  rcases newTunnel_cases c params with ⟨hmalloc, hnew⟩ | ⟨hmalloc, hcrash | ⟨hno, hret, hlost⟩ |
    ⟨harray, hret, hbare, hstanding⟩⟩
  · have hcreate : tunnelCreateLog c params = ⟨.ret false, .empty⟩ := by
      unfold tunnelCreateLog
      rw [hnew, Reply.andThen_of_ne (by simp)]
    rw [hcreate]
    exact iff_of_true (by decide) (.inl hmalloc)
  · have hcreate : tunnelCreateLog c params = newTunnel c params :=
      Reply.andThen_of_ne (by simp [hcrash]) _
    rw [hcreate, hcrash] at hnull
    cases hnull
  · have hcreate : tunnelCreateLog c params = newTunnel c params :=
      Reply.andThen_of_ne (by simp [hret]) _
    rw [hcreate]
    refine iff_of_false hlost ?_
    rintro (hfalse | hclean)
    · rw [hmalloc] at hfalse
      cases hfalse
    · exact hno hclean.array
  · rw [or_iff_right (by simp [hmalloc])]
    obtain ⟨b, hb⟩ : ∃ b, (newTunnel c params).state = b := ⟨_, rfl⟩
    rw [hb] at hbare hstanding
    have hcreate : tunnelCreateLog c params = ((buildTunnel c params b).orDelete c.garbage).andThen
        fun b => startWorkers c 0 b.tunnel.numQueues b := by
      unfold tunnelCreateLog
      rw [Reply.andThen_of_true hret, hb]
    have hstage := stage_buildTunnel hstanding hbare
    rw [hcreate] at hnull ⊢
    unfold Reply.orDelete at hnull ⊢
    by_cases hfails : (buildTunnel c params b).ending = .ret false
    · obtain ⟨hok, k, -, hexit⟩ := hstage false hfails
      have hnot : ¬ c.Prepared params := hok.not.1 (by simp)
      rw [if_pos hfails, Reply.andThen_of_ne (by simp), hexit.balanced_iff]
      constructor
      · rintro ⟨hctl, hsocks, hbridge, hepoll, htap⟩
        exact ⟨harray, hctl, hsocks, hbridge, hepoll, htap, fun hyes => absurd hyes hnot⟩
      · rintro ⟨-, hctl, hsocks, hbridge, hepoll, htap, -⟩
        exact ⟨hctl, hsocks, hbridge, hepoll, htap⟩
    · rw [if_neg hfails] at hnull ⊢
      by_cases hbuilt : (buildTunnel c params b).ending = .ret true
      · obtain ⟨hok, k, hzero, hexit⟩ := hstage true hbuilt
        rw [Reply.andThen_of_true hbuilt] at hnull ⊢
        exact hexit.startWorkers_balanced_iff hzero (hok.1 rfl) harray rfl hnull
      · rw [Reply.andThen_of_ne hbuilt] at hnull
        exact absurd hnull hfails

/-! ### Failures to try it on -/

/-- Calls in which everything succeeds. -/
def openCalls : CreateCalls :=
  { env := openEnv (heapEnv .failed), ctlFd := some 9,
    sock := { ifAddr := some (192, 168, 1, 1), ifMtu := true, socket := fun q => some (10 + q),
              reusePort := fun _ => true, bind := fun _ => some 5000 },
    tap := quietTap, staleThread := fun _ => false, garbage := fun _ _ => 0 }

/-- A tunnel with two queues and a name for its bridge. -/
def namedParams : TunnelParams :=
  { numQueues := 2, allowedRemoteHosts := some hostsText,
    bindIface := some "eth0".toList, tunnelName := some "tunnel".toList,
    bridgeName := some "br0".toList }

/-- The threads that can be started are those of these workers. -/
def CreateCalls.withThreads (c : CreateCalls) (ok : ℕ → Bool) : CreateCalls :=
  { c with env := { c.env with pthreadCreate := ok } }

/-- No thread can be started: everything is released. -/
theorem cleansUp_iff_noThread :
    (tunnelCreateLog (openCalls.withThreads fun _ => false) namedParams).ending = .ret false ∧
      Balanced (tunnelCreateLog (openCalls.withThreads fun _ => false) namedParams).state.log := by
  have hnull : (tunnelCreateLog (openCalls.withThreads fun _ => false) namedParams).ending =
      .ret false := by decide
  refine ⟨hnull, (cleansUp_iff _ _ hnull).2 (.inr ?_)⟩
  refine ⟨by decide, by decide, ?_, fun _ => by decide, ?_, ?_, fun _ => ⟨rfl, rfl⟩⟩
  · rintro q ⟨-, -, -, hmade, -⟩
    have hzero : 10 + q = 0 := Option.some.inj hmade
    omega
  · rintro - q ⟨-, -, -, hmade, -⟩
    have hzero : 20 + q = 0 := Option.some.inj hmade
    omega
  · rintro - - - ⟨-, -, hctl⟩
    cases hctl

/-- The call returns `NULL`, and not everything is released. -/
def LeavesBehind (c : CreateCalls) (params : TunnelParams) : Prop :=
  (tunnelCreateLog c params).ending = .ret false ∧ ¬ Balanced (tunnelCreateLog c params).state.log

/-- **What is not cleaned up after**: the second thread cannot be started; there are no
hosts, and no name for the bridge; the sockets get no array; the control socket of the
interface is 0; that of the device of the default endpoint is, and no thread can be started. -/
theorem cleansUp_fails :
    LeavesBehind (openCalls.withThreads (· == 0)) namedParams ∧
      LeavesBehind openCalls { namedParams with bridgeName := none, allowedRemoteHosts := none } ∧
      LeavesBehind { openCalls with env := { openCalls.env with callocUdpFds := false } }
        namedParams ∧
      LeavesBehind { openCalls with ctlFd := some 0 }
        { namedParams with allowedRemoteHosts := none } ∧
      LeavesBehind { openCalls.withThreads (fun _ => false) with
          tap := { quietTap with ctlSocket := some 0 } }
        { namedParams with defaultRemoteHost := some "peer".toList, defaultRemotePort := 5000 } := by
  unfold LeavesBehind
  decide +kernel

end UdpEthTunnel
