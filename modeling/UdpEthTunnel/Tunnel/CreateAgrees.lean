/-
# Two accounts of one function

`tunnelCreate` says which tunnel a call of `tunnel_create` makes, `tunnelCreateLog` what
the call acquires and releases.  Part by part they do the same (`Reply.view` leaves out
what has been acquired): the calls end in the same way, and make the same tunnel
(`tunnelCreateLog_eq`).
-/

import UdpEthTunnel.Tunnel.CreateFails

namespace UdpEthTunnel

open Tunnel CreateOutcome

/-- What a call comes to, apart from what it has acquired. -/
def Reply.view (r : Reply Build) : CreateOutcome (Tunnel MapHeap × EpollSets) :=
  match r.ending with
  | .ret true => .created (r.state.tunnel, r.state.epoll)
  | .ret false => .null
  | .crash x => .crash x
  | .stuck => .stuck

/-- A part does to a tunnel what `g` does. -/
def Agrees (f : Build → Reply Build)
    (g : Tunnel MapHeap × EpollSets → CreateOutcome (Tunnel MapHeap × EpollSets)) : Prop :=
  ∀ b, (f b).view = g (b.tunnel, b.epoll)

/-- The sockets that the call gets from `net_create_udp_sock_fds`. -/
def CreateCalls.udpSocks (c : CreateCalls) (bindPort : Int) (n : ℕ) : Option (ℕ → Fd) := do
  let _ ← c.ctlFd
  let socks ← netCreateUdpSockFds c.sock bindPort n
  pure fun q => (socks[q]?.map (·.fd)).getD 0

section Agrees

variable (c : CreateCalls) (params : TunnelParams) {f f' : Build → Reply Build}
  {g g' : Tunnel MapHeap × EpollSets → CreateOutcome (Tunnel MapHeap × EpollSets)}

theorem Agrees.view_andThen (h : Agrees f g) (r : Reply Build) :
    (r.andThen f).view = r.view >>= g := by
  obtain ⟨ending, b⟩ := r
  cases ending with
  | ret ok =>
    cases ok with
    | true => exact h b
    | false => rfl
  | crash x => rfl
  | stuck => rfl

/-- Two parts, one after the other. -/
theorem Agrees.andThen (h : Agrees f g) (h' : Agrees f' g') :
    Agrees (fun b => (f b).andThen f') fun x => g x >>= g' := by
  intro b
  dsimp only
  rw [← h b]
  exact h'.view_andThen (f b)

/-- `tunnel_delete` is called where nothing is created. -/
theorem Agrees.orDelete (h : Agrees f g) (garbage : ℕ → ℕ → Fd) :
    Agrees (fun b => (f b).orDelete garbage) g := by
  intro b
  show ((f b).orDelete garbage).view = g (b.tunnel, b.epoll)
  rw [← h b]
  obtain ⟨ending, b'⟩ := f b
  cases ending with
  | ret ok => cases ok <;> rfl
  | crash x => rfl
  | stuck => rfl

theorem bind_congr_created {α β : Type} {x : CreateOutcome α} {f₁ f₂ : α → CreateOutcome β}
    (h : ∀ a, x = created a → f₁ a = f₂ a) : x >>= f₁ = x >>= f₂ := by
  cases x with
  | created a => exact h a rfl
  | _ => rfl

theorem check_and (x y : Bool) :
    check (x && y) = check x >>= fun _ => (check y : CreateOutcome Unit) := by
  cases x <;> rfl

theorem view_newTunnel :
    (newTunnel c params).view = check c.env.malloc >>= fun _ => readStr params.tunnelName >>= fun _ =>
      check (decide (0 ≤ c.numQueues params) && c.env.callocUdpFds) >>= fun _ =>
        pure ({ Build.empty.tunnel with numQueues := (c.numQueues params).toNat }, fun _ => []) := by
  unfold newTunnel
  cases c.env.malloc with
  | false => rfl
  | true =>
    rw [if_neg (by simp)]
    dsimp only
    cases params.tunnelName with
    | none => rfl
    | some name =>
      rw [if_neg (by simp)]
      by_cases harray : 0 ≤ c.numQueues params ∧ c.env.callocUdpFds = true
      · rw [if_pos harray, decide_eq_true harray.1, harray.2]
        rfl
      · have hfalse : (decide (0 ≤ c.numQueues params) && c.env.callocUdpFds) = false := by
          simpa using harray
        rw [if_neg harray, hfalse]
        rfl

/-! ### The loops -/

/-- What a loop over the queues returns. -/
theorem mapM_openEach (create : ℕ → Option Fd) (ready : ℕ → Bool) (res : ℕ → Fd → Resource)
    (keep : Bool) (q n : ℕ) :
    (List.range' q n).mapM (fun i => if ready i then create i else none) =
      if (openEach create ready res keep q n).2.2 then
        some (openEach create ready res keep q n).2.1 else none := by
  induction n generalizing q with
  | zero => rfl
  | succ n ih =>
    rw [List.range'_succ, List.mapM_cons, ih]
    rcases openEach_cases create ready res keep q n with ⟨hnone, he⟩ | ⟨fd, hfd,
      ⟨hready, log, fds, ok, hrest, he⟩ | ⟨hready, -, he⟩ | ⟨hready, -, he⟩⟩ <;> rw [he]
    · simp [hnone]
    · rw [hrest, hready, hfd]
      cases ok <;> rfl
    · simp [hready]
    · simp [hready]

theorem map_mapM {α β γ : Type} (f : α → Option β) (g : β → γ) (xs : List α) :
    (xs.mapM f).map (List.map g) = xs.mapM fun x => (f x).map g := by
  induction xs with
  | nil => rfl
  | cons x xs ih =>
    rw [List.mapM_cons, List.mapM_cons, ← ih]
    cases f x with
    | none => rfl
    | some y => cases xs.mapM f <;> rfl

theorem mapM_ofOption {α β : Type} (f : α → Option β) (xs : List α) :
    xs.mapM (fun x => ofOption (f x)) = ofOption (xs.mapM f) := by
  induction xs with
  | nil => rfl
  | cons x xs ih =>
    rw [List.mapM_cons, List.mapM_cons, ih]
    cases f x with
    | none => rfl
    | some y => cases xs.mapM f <;> rfl

/-- A round of the loop of `net_create_udp_sock_fds`. -/
theorem bindUdpSocket_fd (env : SockEnv) (addr : IpAddr) (port : U16) (i : ℕ) :
    (bindUdpSocket env addr port i).map (·.fd) = if env.ready i then env.socket i else none := by
  unfold bindUdpSocket SockEnv.ready
  cases env.socket i with
  | none => simp
  | some fd => cases env.reusePort i <;> cases env.bind i <;> simp

/-- **What `net_create_udp_sock_fds` returns.** -/
theorem socks_openEach (env : SockEnv) (bindPort : Int) (res : ℕ → Fd → Resource) (keep : Bool)
    (n : ℕ) :
    (netCreateUdpSockFds env bindPort n).map (·.map (·.fd)) =
      if env.ifAddr = none ∨ env.ifMtu = false then none
      else if (openEach env.socket env.ready res keep 0 n).2.2 then
        some (openEach env.socket env.ready res keep 0 n).2.1 else none := by
  unfold netCreateUdpSockFds
  cases env.ifAddr with
  | none => simp
  | some addr =>
    cases env.ifMtu with
    | false => simp
    | true =>
      rw [if_neg (by simp), ← mapM_openEach, List.range_eq_range']
      show Option.map _ (List.mapM _ (List.range' 0 n)) = _
      rw [map_mapM]
      simp only [bindUdpSocket_fd]

/-- **What `setup_epoll_fds` returns.** -/
theorem setupEpollFds_openEach (res : ℕ → Fd → Resource) (keep : Bool) (n : ℕ) :
    setupEpollFds c.env n = check c.env.callocEpollFds >>= fun _ => ofOption
      (if (openEach c.env.epollCreate c.epollReady res keep 0 n).2.2 then
        some (openEach c.env.epollCreate c.epollReady res keep 0 n).2.1 else none) := by
  have hround : ∀ i, (ofOption (c.env.epollCreate i) >>= fun epollFd =>
      check (c.env.nonblocking i) >>= fun _ => check (c.env.epollAdd i) >>= fun _ =>
        pure epollFd : CreateOutcome Fd) =
      ofOption (if c.epollReady i then c.env.epollCreate i else none) := by
    intro i
    unfold CreateCalls.epollReady
    cases c.env.epollCreate i <;> cases c.env.nonblocking i <;> cases c.env.epollAdd i <;> rfl
  unfold setupEpollFds
  simp only [hround]
  rw [mapM_ofOption, ← mapM_openEach, List.range_eq_range']

/-! ### The parts -/

theorem map_range_fds {socks : List UdpSocket} {n : ℕ} (h : socks.length = n) :
    (List.range n).map (fun q => (socks[q]?.map (·.fd)).getD 0) = socks.map (·.fd) := by
  subst h
  refine List.ext_getElem (by simp) fun q hq hq' => ?_
  simp [List.getElem?_eq_getElem (show q < socks.length by simpa using hq)]

theorem agrees_openUdpSocks : Agrees (openUdpSocks c params) fun x =>
    readStr params.bindIface >>= fun _ =>
      ofOption (c.udpSocks params.bindPort x.1.numQueues) >>= fun fds =>
        pure ({ x.1 with udpFds := (List.range x.1.numQueues).map fds }, x.2) := by
  intro b
  have hsocks := socks_openEach c.sock params.bindPort .udp false b.tunnel.numQueues
  unfold openUdpSocks CreateCalls.udpSocks
  cases params.bindIface with
  | none => rfl
  | some iface =>
  rw [if_neg (by simp)]
  cases c.ctlFd with
  | none => rfl
  | some ctl =>
    dsimp only
    by_cases hask : c.sock.ifAddr = none ∨ c.sock.ifMtu = false
    · rw [if_pos hask] at hsocks ⊢
      rw [Option.map_eq_none_iff.1 hsocks]
      rfl
    · rw [if_neg hask] at hsocks ⊢
      rcases hopen : openEach c.sock.socket c.sock.ready .udp false 0 b.tunnel.numQueues with
        ⟨log, fds, ok⟩
      rw [hopen] at hsocks
      cases ok with
      | false =>
        rw [Option.map_eq_none_iff.1 hsocks]
        rfl
      | true =>
        obtain ⟨socks, hmade, hfds⟩ := Option.map_eq_some_iff.1 hsocks
        have hmap := map_range_fds (length_socks hmade)
        rw [hfds] at hmap
        rw [hmade]
        show created _ = created _
        rw [hmap]
        rfl

theorem agrees_setNames : Agrees (setNames params) fun x =>
    pure ({ x.1 with mtu := if params.mtu > 0 then params.mtu.toNat else 1500 }, x.2) := by
  intro b
  unfold setNames
  cases params.tapBaseName <;> cases params.bridgeName <;> rfl

theorem agrees_openEpollFds : Agrees (openEpollFds c) fun x =>
    setupEpollFds c.env x.1.numQueues >>= fun fds =>
      pure ({ x.1 with epollFds := fds }, udpEpoll x.1.udpFds) := by
  intro b
  dsimp only
  rw [setupEpollFds_openEach c .epoll true]
  unfold openEpollFds
  cases c.env.callocEpollFds with
  | false => rfl
  | true =>
    have hqueues : (b.alloc .epollFds).tunnel.numQueues = b.tunnel.numQueues := rfl
    rw [if_neg (by simp)]
    dsimp only
    rw [hqueues]
    rcases openEach c.env.epollCreate c.epollReady .epoll true 0 b.tunnel.numQueues with
      ⟨log, fds, ok⟩
    cases ok <;> rfl

theorem agrees_checkHosts : Agrees (checkHosts params) fun x =>
    check (params.allowedRemoteHosts.isSome || params.defaultRemoteHost.isSome) >>= fun _ =>
      pure x := by
  intro b
  unfold checkHosts
  cases params.allowedRemoteHosts.isSome || params.defaultRemoteHost.isSome <;> rfl

theorem agrees_addAllowed : Agrees (addAllowed c params) fun x =>
    createAllowed c.env params >>= fun list =>
      pure ({ x.1 with allowedAddrList := list.or x.1.allowedAddrList }, x.2) := by
  intro b
  unfold addAllowed createAllowed
  cases params.allowedRemoteHosts with
  | none => rfl
  | some text =>
    dsimp only
    cases c.env.cidrList text <;> rfl

theorem agrees_addMap : Agrees (addMap c) fun x =>
    pure ({ x.1 with map := heapOps.create c.env.mapCreate }, x.2) := by
  intro b
  unfold addMap
  cases c.env.mapCreate.calloc <;> rfl

theorem agrees_addDefaultTap : Agrees (addDefaultTap c params) fun x =>
    createDefaultTap heapOps { c.env with alloc := c.allocEnv params x.1 } params x.1 x.2 := by
  intro b
  unfold addDefaultTap createDefaultTap
  cases params.defaultRemoteHost with
  | none => rfl
  | some host =>
    dsimp only
    cases c.env.lookupHost host with
    | none => rfl
    | some addr =>
      have hfound : (ofOption (some addr) : CreateOutcome IpAddr) = pure addr := rfl
      rw [hfound, pure_bind]
      dsimp only
      cases heapOps.addAssign c.env.mapAdd b.tunnel.map ⟨addr, params.remotePort⟩ 0 with
      | stuck => rfl
      | crash => rfl
      | ret map =>
        cases map with
        | none => rfl
        | some map =>
          have hadded : (ofMapCall (.ret (some map)) : CreateOutcome (Option MapHeap)) =
            pure (some map) := rfl
          have hmap : (ofOption (some map) : CreateOutcome MapHeap) = pure map := rfl
          rw [hadded, pure_bind, hmap, pure_bind]
          -- the map makes no difference to `net_create_tap_mq_fds`
          have henv : c.allocEnv params { b.tunnel with map := map } = c.allocEnv params b.tunnel :=
            rfl
          unfold allocTap
          dsimp only [Build.setTunnel]
          rw [henv]
          cases tunnelAllocNewTap (c.allocEnv params b.tunnel) { b.tunnel with map := map } b.epoll
            ⟨addr, params.remotePort⟩ with
          | crash x => rfl
          | ret id t epoll => cases id <;> rfl

theorem agrees_addWorkers : Agrees (addWorkers c) fun x =>
    check c.env.mallocWorkers >>= fun _ => pure x := by
  intro b
  unfold addWorkers
  cases c.env.mallocWorkers <;> rfl

theorem view_startWorkers (i n : ℕ) (b : Build) : (startWorkers c i n b).view =
    check ((List.range' i n).all c.env.pthreadCreate) >>= fun _ => pure (b.tunnel, b.epoll) := by
  induction n generalizing i b with
  | zero => rfl
  | succ n ih =>
    unfold startWorkers
    rw [List.range'_succ, List.all_cons]
    cases c.env.pthreadCreate i with
    | true =>
      rw [if_pos rfl, ih, Bool.true_and]
      rfl
    | false =>
      rw [if_neg (by simp)]
      rfl

theorem agrees_startWorkers : Agrees (fun b => startWorkers c 0 b.tunnel.numQueues b) fun x =>
    check ((List.range x.1.numQueues).all c.env.pthreadCreate) >>= fun _ => pure x := by
  intro b
  dsimp only
  rw [List.range_eq_range']
  exact view_startWorkers c 0 _ b

/-- What the call gets from `net_create_udp_sock_fds` and `net_create_tap_mq_fds`. -/
def CreateCalls.createEnv : CreateEnv HeapEnv :=
  let n := (c.numQueues params).toNat
  let tap := netCreateTapMqFds c.tap params.tapBaseName n params.tapMtu params.bridgeName
  { c.env with udpSocks := c.udpSocks params.bindPort n,
               alloc := { c.env.alloc with createFds := tap.createFds } }

/-- **The two accounts agree**: part by part, `tunnelCreateLog` ends as `tunnelCreate` does,
and makes the same tunnel. -/
theorem tunnelCreateLog_eq :
    ((tunnelCreateLog c params).view >>= fun x =>
      pure { tunnel := x.1, epoll := x.2, workers := fun _ => {}, crash := none }) =
    tunnelCreate heapOps (c.createEnv params) params := by
  have hbuild := (agrees_openUdpSocks c params).andThen <|
    (agrees_setNames params).andThen <| (agrees_openEpollFds c).andThen <|
    (agrees_checkHosts params).andThen <| (agrees_addAllowed c params).andThen <|
    (agrees_addMap c).andThen <| (agrees_addDefaultTap c params).andThen (agrees_addWorkers c)
  have hall := (hbuild.orDelete c.garbage).andThen (agrees_startWorkers c)
  have hview := hall.view_andThen (newTunnel c params)
  rw [view_newTunnel c params] at hview
  have hlog : (tunnelCreateLog c params).view = _ := hview
  rw [hlog]
  unfold tunnelCreate
  simp only [bind_assoc, pure_bind, check_and, Build.empty, Option.or_none]
  refine bind_congr fun _ => bind_congr fun _ => bind_congr fun _ => bind_congr fun _ => ?_
  refine bind_congr fun _ => bind_congr fun fds => ?_
  refine bind_congr fun epollFds => bind_congr fun _ => bind_congr fun allowed => ?_
  refine bind_congr_created fun x hx => bind_congr fun _ => ?_
  -- the device of the default endpoint leaves the number of queues as it is
  have hqueues : x.1.numQueues = (c.numQueues params).toNat := by
    rcases createDefaultTap_created rfl hx with ⟨-, ht, -⟩ | ⟨e, hdef⟩
    · rw [ht]
    · obtain ⟨map, -, hnew⟩ := hdef.add
      exact hnew.ext.numQueues
  rw [hqueues]
  rfl

end Agrees

end UdpEthTunnel
