/-
# Forwarding

What a worker does with the datagrams it receives and the frames it reads, over a
whole run, for a map that is a finite map.

`receipts` is the account of the UDP side: every datagram received, with whether its
source was found in the map or got a device.  The writes of the worker are those of
the admitted ones, in order (`RecvLedger`); on the side of the tap devices the
frames sent are the frames read (`SendLedger`).  Both hold as long as no call of
`tunnel_alloc_new_tap` fails after it has registered a descriptor
(`Devices.lean`); `forwarding` is the result, and `forwarding_fails` a run in which
such a failure leaves a registration behind that makes a worker read through a
released array.
-/

import UdpEthTunnel.Tunnel.Devices
import UdpEthTunnel.Tunnel.FiniteMap
import UdpEthTunnel.Tunnel.Trace

namespace UdpEthTunnel

open Tunnel Runs

/-- The process, with a finite map. -/
abbrev MapSys := Sys (Endpoint → Option ℕ)

/-- A datagram, and whether its source was found or got a device. -/
abbrev Receipt := Datagram × Bool

/-- The call of `tunnel_alloc_new_tap` returns a tap id. -/
def allocates {M : Type} (s : Sys M) (env : AllocTapEnv) (e : Endpoint) : Bool :=
  match tunnelAllocNewTap env s.tunnel s.epoll e with
  | .ret (some _) _ _ => true
  | _ => false

/-- What a call tells about the datagram in hand. -/
def Action.note (s : MapSys) : Action Unit → Receipt → Receipt
  | .lookup _, x => (x.1, x.2 || (s.tunnel.map x.1.src).isSome)
  | .allocNewTap env, x => (x.1, x.2 || allocates s env x.1.src)
  | _, x => x

/-- One step of the account of worker `w`. -/
def receiptStep (w : ℕ) (log : List Receipt) (e : Event MapSys (ℕ × Action Unit)) : List Receipt :=
  if e.act.1 = w then
    (e.act.2.received.map (·, false)).toList ++ log.modifyHead (e.act.2.note e.pre)
  else log

/-- **The account of the datagrams worker `w` has received**, the latest first: each
with whether a lookup made for it found its source in the map or a device was
allocated for it. -/
def receipts (w : ℕ) (tr : Trace (Endpoint → Option ℕ) Unit) : List Receipt :=
  tr.foldl (receiptStep w) []

/-- The write an admitted datagram asks for: its payload, to the descriptor of the
device of its source for the queue. -/
def deliver (t : Tunnel (Endpoint → Option ℕ)) (q : ℕ) (x : Receipt) : Option (Fd × Bytes) :=
  if x.1.inet6 && x.2 then
    (t.map x.1.src).bind fun i => (t.tapFd i q).map fun fd => (fd, x.1.payload)
  else none

/-- What the account says of the datagram in hand. -/
def Point.receipt : Point → Option Receipt
  | .lookup d | .unlockMiss d | .wrlock d | .relookup d | .alloc d => some (d, false)
  | .unlockHit _ d | .rdlock _ d | .add _ d | .write _ d => some (d, true)
  | .tapRead | .tapSend _ | .recv | .rearm => none

def Pc.receipt (pc : Pc) : Option Receipt := pc.point.bind Point.receipt

/-- The frame a worker has read and not yet sent, with its tap id. -/
def Pc.frame : Pc → Option (Int × Bytes)
  | .handle tev _ (.tapSend frame) => some (tev.tapId.toInt, frame)
  | _ => none

/-- The length of what a call returns. -/
def Action.size {E : Type} : Action E → ℕ
  | .recvfrom (some d) => d.payload.length
  | .read _ _ (some frame) => frame.length
  | _ => 0

/-- A step whose datagram or frame fits the buffer of the worker. -/
def FitsBuffer {M E : Type} (s : Sys M) (wa : ℕ × Action E) : Prop :=
  wa.2.size ≤ 2 * s.tunnel.mtu

/-- **The books of the UDP side** of worker `w`: it is through with the datagrams
`done`, and its writes are those of the admitted ones. -/
structure RecvLedger (w : ℕ) (tr : Trace (Endpoint → Option ℕ) Unit) (s : MapSys)
    (done : List Receipt) : Prop where
  receipts : receipts w tr = (s.workers w).pc.receipt.toList ++ done
  writes : (writes w tr).reverse = done.filterMap (deliver s.tunnel (s.workers w).queueId)
  found : ∀ x ∈ done, x.2 = true → x.1.inet6 = true ∧ ∃ i, s.tunnel.map x.1.src = some i
  inet6 : ∀ x, (s.workers w).pc.receipt = some x → x.1.inet6 = true
  idle : (s.workers w).pc = .start → done = []

/-- **The books of the tap side** of worker `w`: it has sent the frames `done`, each
to the remote endpoint of its device. -/
structure SendLedger (w : ℕ) (tr : Trace (Endpoint → Option ℕ) Unit) (s : MapSys)
    (done : List (Int × Bytes)) : Prop where
  reads : reads w tr = done ++ (s.workers w).pc.frame.toList
  sends : (sends w tr).map (fun x => (x.1, some x.2)) =
    done.map fun x => (x.2, s.tunnel.remote x.1)
  devs : ∀ x ∈ done, ∃ i : ℕ, x.1 = i ∧ i < s.tunnel.numTapDevs

section Ledgers

variable {s s' : MapSys} {w v : ℕ} {a : Action Unit} {tr : Trace (Endpoint → Option ℕ) Unit}
  {done : List Receipt} {sent : List (Int × Bytes)}

theorem receipts_snoc (w : ℕ) (tr : Trace (Endpoint → Option ℕ) Unit)
    (e : Event MapSys (ℕ × Action Unit)) :
    receipts w (tr ++ [e]) = receiptStep w (receipts w tr) e := by
  unfold receipts
  rw [List.foldl_append]
  rfl

theorem receipt_nextEvent (batch : List TunnelEpollEvent) : (nextEvent batch).receipt = none := by
  rcases nextEvent_cases batch with h | ⟨tev, rest, -, ⟨-, h⟩ | ⟨-, h⟩⟩ <;> rw [h] <;> rfl

theorem frame_nextEvent (batch : List TunnelEpollEvent) : (nextEvent batch).frame = none := by
  rcases nextEvent_cases batch with h | ⟨tev, rest, -, ⟨-, h⟩ | ⟨-, h⟩⟩ <;> rw [h] <;> rfl

/-- Bound endpoints keep their devices, so what was to be written stays. -/
theorem deliver_congr (hmap : MapInv s) (hext : Extends s.tunnel s'.tunnel)
    (hmono : ∀ e i, s.tunnel.map e = some i → s'.tunnel.map e = some i) {x : Receipt}
    (hx : x.2 = true → x.1.inet6 = true ∧ ∃ i, s.tunnel.map x.1.src = some i) (q : ℕ) :
    deliver s'.tunnel q x = deliver s.tunnel q x := by
  unfold deliver
  cases h : x.2 with
  | false => simp
  | true =>
    obtain ⟨-, i, hi⟩ := hx h
    rw [hi, hmono _ _ hi, Option.bind_some, Option.bind_some, hext.tapFd i (hmap.back _ _ hi).1]

theorem filterMap_deliver (hmap : MapInv s) (hext : Extends s.tunnel s'.tunnel)
    (hmono : ∀ e i, s.tunnel.map e = some i → s'.tunnel.map e = some i)
    (hdone : ∀ x ∈ done, x.2 = true → x.1.inet6 = true ∧ ∃ i, s.tunnel.map x.1.src = some i)
    (q : ℕ) : done.filterMap (deliver s'.tunnel q) = done.filterMap (deliver s.tunnel q) :=
  List.filterMap_congr fun x hx => deliver_congr hmap hext hmono (hdone x hx) q

/-- Another worker's step leaves the books as they are. -/
theorem RecvLedger.frame (h : RecvLedger w tr s done) (hmap : MapInv s)
    (hext : Extends s.tunnel s'.tunnel)
    (hmono : ∀ e i, s.tunnel.map e = some i → s'.tunnel.map e = some i)
    (hw : s'.workers w = s.workers w) (hv : v ≠ w) :
    RecvLedger w (tr ++ [⟨s, (v, a), s'⟩]) s' done := by
  refine ⟨?_, ?_, fun x hx hok => ?_, ?_, ?_⟩
  · rw [receipts_snoc, hw, ← h.receipts]
    exact if_neg hv
  · unfold UdpEthTunnel.writes
    rw [byWorker_snoc, if_neg hv, List.append_nil, hw, filterMap_deliver hmap hext hmono h.found]
    exact h.writes
  · obtain ⟨h6, i, hi⟩ := h.found x hx hok
    exact ⟨h6, i, hmono _ _ hi⟩
  · rw [hw]
    exact h.inet6
  · rw [hw]
    exact h.idle

/-- The worker's own step: it may be through with one more datagram. -/
theorem RecvLedger.advance (h : RecvLedger w tr s done) (hmap : MapInv s)
    (hstep : Step finiteMapOps s (w, a) s')
    (hq : (s'.workers w).queueId = (s.workers w).queueId ∨ done = []) (new : Option Receipt)
    (hrec : (a.received.map (·, false)).toList ++
        ((s.workers w).pc.receipt.toList ++ done).modifyHead (a.note s) =
      (s'.workers w).pc.receipt.toList ++ (new.toList ++ done))
    (hwr : a.written = new.bind (deliver s'.tunnel (s'.workers w).queueId))
    (hnew : ∀ x, new = some x → x.2 = true → x.1.inet6 = true ∧ ∃ i, s'.tunnel.map x.1.src = some i)
    (hinet : ∀ x, (s'.workers w).pc.receipt = some x → x.1.inet6 = true) :
    RecvLedger w (tr ++ [⟨s, (w, a), s'⟩]) s' (new.toList ++ done) := by
  have hs := hstep.stepOf.2.2
  have hmono := (hmap.step hstep).2
  have hext := hs.extends hmap.agree.size
  refine ⟨?_, ?_, fun x hx hok => ?_, hinet, fun h => absurd h hs.pc_ne_start⟩
  · rw [receipts_snoc, h.receipts, ← hrec]
    exact if_pos rfl
  · have hold : done.filterMap (deliver s'.tunnel (s'.workers w).queueId) =
        done.filterMap (deliver s.tunnel (s.workers w).queueId) := by
      rw [filterMap_deliver hmap hext hmono h.found]
      rcases hq with hq | rfl
      · rw [hq]
      · rfl
    unfold UdpEthTunnel.writes
    rw [byWorker_snoc, if_pos rfl, List.reverse_append, List.filterMap_append, hold, ← h.writes,
      hwr]
    congr 1
    cases new with
    | none => rfl
    | some x => cases hx : deliver s'.tunnel (s'.workers w).queueId x <;> simp [hx]
  · rcases List.mem_append.1 hx with hx | hx
    · exact hnew x (Option.mem_toList.1 hx) hok
    · obtain ⟨h6, i, hi⟩ := h.found x hx hok
      exact ⟨h6, i, hmono _ _ hi⟩

/-- A step that neither receives nor decides nor writes. -/
theorem RecvLedger.quiet (h : RecvLedger w tr s done) (hmap : MapInv s)
    (hstep : Step finiteMapOps s (w, a) s')
    (hq : (s'.workers w).queueId = (s.workers w).queueId ∨ done = [])
    (hreceipt : (s'.workers w).pc.receipt = (s.workers w).pc.receipt)
    (hnote : ∀ x, a.note s x = x) (hrecv : a.received = none) (hwr : a.written = none) :
    ∃ done, RecvLedger w (tr ++ [⟨s, (w, a), s'⟩]) s' done := by
  refine ⟨_, h.advance hmap hstep hq none ?_ hwr nofun ?_⟩
  · have hid : a.note s = id := funext hnote
    rw [hrecv, hid, List.modifyHead_id, hreceipt]
    rfl
  · rw [hreceipt]
    exact h.inet6

/-- A step that decides about the datagram in hand, or goes on with it. -/
theorem RecvLedger.decide (h : RecvLedger w tr s done) (hmap : MapInv s)
    (hstep : Step finiteMapOps s (w, a) s')
    (hq : (s'.workers w).queueId = (s.workers w).queueId) {d : Datagram} {ok : Bool}
    (hold : (s.workers w).pc.receipt = some (d, ok))
    (hrecv : a.received = none) (hwr : a.written = none)
    (hnew : (s'.workers w).pc.receipt = some (a.note s (d, ok)) ∧ (a.note s (d, ok)).1 = d ∨
      (s'.workers w).pc.receipt = none ∧ a.note s (d, ok) = (d, false)) :
    ∃ done, RecvLedger w (tr ++ [⟨s, (w, a), s'⟩]) s' done := by
  have h6 : d.inet6 = true := h.inet6 (d, ok) hold
  rcases hnew with ⟨hr, hd⟩ | ⟨hr, hd⟩
  · refine ⟨_, h.advance hmap hstep (.inl hq) none ?_ hwr nofun ?_⟩
    · rw [hrecv, hold, hr]
      rfl
    · intro x hx
      obtain rfl := Option.some.inj (hr.symm.trans hx)
      rwa [hd]
  · refine ⟨_, h.advance hmap hstep (.inl hq) (some (d, false)) ?_ ?_ ?_ ?_⟩
    · rw [hrecv, hold, hr, ← hd]
      rfl
    · rw [hwr]
      simp [deliver]
    · intro x hx hok
      cases hx
      cases hok
    · rw [hr]
      exact nofun

/-- A datagram that is received is in hand, and one that is not IPv6 is done with. -/
theorem RecvLedger.recvfrom (h : RecvLedger w tr s done) (hmap : MapInv s)
    {tev : TunnelEpollEvent} {rest : List TunnelEpollEvent} {r : Option Datagram}
    (hpc : (s.workers w).pc = .handle tev rest .recv)
    (hstep : Step finiteMapOps s (w, .recvfrom r)
      (s.goto w (.handle tev rest (afterRecv s.tunnel.mtu r))))
    (hfit : FitsBuffer s (w, (.recvfrom r : Action Unit))) :
    ∃ done, RecvLedger w (tr ++ [⟨s, (w, .recvfrom r),
      s.goto w (.handle tev rest (afterRecv s.tunnel.mtu r))⟩])
      (s.goto w (.handle tev rest (afterRecv s.tunnel.mtu r))) done := by
  have hold : (s.workers w).pc.receipt = none := by rw [hpc]; rfl
  rcases afterRecv_cases s.tunnel.mtu r with ⟨rfl, hr⟩ | ⟨d, rfl, ⟨h6, hr⟩ | ⟨h6, hr⟩⟩ <;>
    rw [hr] at hstep ⊢
  · exact h.quiet hmap hstep (.inl (Sys.queueId_goto ..)) (by rw [Sys.pc_goto, hold]; rfl)
      (fun _ => rfl) rfl rfl
  · have hcut : d.cut s.tunnel.mtu = d := by
      unfold Datagram.cut
      rw [List.take_of_length_le hfit]
    refine ⟨_, h.advance hmap hstep (.inl (Sys.queueId_goto ..)) none ?_ rfl (by simp) ?_⟩
    · rw [hold, Sys.pc_goto, hcut]
      show [(d, false)] ++ ([] ++ done).modifyHead id = _
      rw [List.modifyHead_id]
      rfl
    · rw [Sys.pc_goto, hcut]
      intro x hx
      cases hx
      exact h6
  · refine ⟨_, h.advance hmap hstep (.inl (Sys.queueId_goto ..)) (some (d, false)) ?_ ?_ ?_ ?_⟩
    · rw [hold, Sys.pc_goto]
      show [(d, false)] ++ ([] ++ done).modifyHead id = _
      rw [List.modifyHead_id]
      rfl
    · simp [deliver, Action.written]
    · intro x hx hok
      cases hx
      cases hok
    · rw [Sys.pc_goto]
      rintro x ⟨⟩

/-- The payload in hand is written to the device that the map names for its source. -/
theorem RecvLedger.write (h : RecvLedger w tr s done) (hmap : MapInv s) (hdev : DevInv s)
    {tev : TunnelEpollEvent} {rest : List TunnelEpollEvent} {id : Int} {d : Datagram} {fd : Fd}
    {r : Option ℕ} {now : Int} (hpc : (s.workers w).pc = .handle tev rest (.write id d))
    (hfd : Reads (s.tunnel.tapFd id (s.workers w).queueId) fd)
    (hstep : Step finiteMapOps s (w, .write fd d.payload r now)
      (s.account w id (.afterWrite r now) (.handle tev rest .recv))) :
    ∃ done, RecvLedger w (tr ++ [⟨s, (w, .write fd d.payload r now),
      s.account w id (.afterWrite r now) (.handle tev rest .recv)⟩])
      (s.account w id (.afterWrite r now) (.handle tev rest .recv)) done := by
  have hasserts := hmap.agree.asserts w
  rw [hpc] at hasserts
  obtain ⟨h₀, hlook⟩ := hasserts
  obtain ⟨i, rfl⟩ := Int.eq_ofNat_of_zero_le h₀
  have hlook : s.tunnel.map d.src = some i := hlook
  have hlt := (hmap.back _ _ hlook).1
  have hq := hdev.queue w (by rw [hpc]; simp)
  obtain ⟨fd', hfd'⟩ := hdev.fds i hlt _ hq
  obtain rfl : fd' = fd := by
    rcases hfd with hnone | hsome
    · rw [hfd'] at hnone
      cases hnone
    · rw [hfd'] at hsome
      exact Option.some.inj hsome
  have h6 : d.inet6 = true := h.inet6 (d, true) (by rw [hpc]; rfl)
  obtain ⟨t, ht, he⟩ := hdev.account rfl hlt (by rw [hpc]; simp) (.afterWrite r now)
    (.handle tev rest .recv)
  rw [he] at hstep ⊢
  refine ⟨_, h.advance hmap hstep (.inl (Sys.queueId_goto ..)) (some (d, true)) ?_ ?_ ?_ ?_⟩
  · rw [hpc, Sys.pc_goto]
    rfl
  · rw [Sys.queueId_goto]
    show some (fd', d.payload) = _
    simp [deliver, h6, ht.map, hlook, ht.tapFd, hfd']
  · intro x hx _
    cases hx
    exact ⟨h6, i, by show t.map _ = _; rw [ht.map]; exact hlook⟩
  · rw [Sys.pc_goto]
    rintro x ⟨⟩

/-- **The worker's own step keeps its books.** -/
theorem RecvLedger.step (h : RecvLedger w tr s done) (hmap : MapInv s) (hdev : DevInv s)
    (hstep : Step finiteMapOps s (w, a) s') (hfit : FitsBuffer s (w, a)) :
    ∃ done, RecvLedger w (tr ++ [⟨s, (w, a), s'⟩]) s' done := by
  have hs := hstep.stepOf.2.2
  have hreceipt : ∀ {tev rest p x}, (s.workers w).pc = .handle tev rest p → p.receipt = some x →
      (s.workers w).pc.receipt = some x := fun hpc hp => by
    rw [hpc]
    exact hp
  cases hs with
  | start hpc =>
    refine h.quiet hmap hstep (.inr (h.idle hpc)) ?_ (fun _ => rfl) rfl rfl
    simp [Sys.workers_setWorker, hpc, Pc.receipt, Pc.point]
  | epollFail hpc =>
    exact h.quiet hmap hstep (.inl (Sys.queueId_goto ..)) (by rw [Sys.pc_goto, hpc]; rfl)
      (fun _ => rfl) rfl rfl
  | epollWait batch hpc =>
    exact h.quiet hmap hstep (.inl (Sys.queueId_goto ..)) (by rw [Sys.pc_goto, hpc]; rfl)
      (fun _ => rfl) rfl rfl
  | rdlockBatch batch hpc =>
    exact h.quiet hmap hstep (.inl (Sys.queueId_lockGoto ..))
      (by rw [Sys.pc_lockGoto, hpc, receipt_nextEvent]; rfl) (fun _ => rfl) rfl rfl
  | scopeEnd hpc =>
    exact h.quiet hmap hstep (.inl (Sys.queueId_lockGoto ..))
      (by rw [Sys.pc_lockGoto, hpc]; rfl) (fun _ => rfl) rfl rfl
  | read tev rest fd r hpc =>
    exact h.quiet hmap hstep (.inl (Sys.queueId_goto ..))
      (by rw [Sys.pc_goto, hpc]; cases r <;> rfl) (fun _ => rfl) rfl rfl
  | sendto tev rest frame dst r now hpc =>
    obtain ⟨i, hi, hlt, -⟩ := hdev.events w tev (by rw [hpc]; exact List.mem_cons_self ..)
      (hdev.tap w tev rest _ hpc trivial)
    obtain ⟨t, -, he⟩ := hdev.account hi hlt (by rw [hpc]; simp) (.afterSend r now)
      (.handle tev rest .tapRead)
    rw [he] at hstep ⊢
    exact h.quiet hmap hstep (.inl (Sys.queueId_goto ..)) (by rw [Sys.pc_goto, hpc]; rfl)
      (fun _ => rfl) rfl rfl
  | recvfrom tev rest r hpc => exact h.recvfrom hmap hpc hstep hfit
  | lookup tev rest d env tapId hpc hlookup =>
    have hlook : s.tunnel.map d.src = if 0 ≤ tapId then some tapId.toNat else none :=
      answers_finiteMapOps env _ _ _ trivial hlookup
    refine h.decide hmap hstep (Sys.queueId_goto ..) (hreceipt hpc rfl) rfl
      rfl ?_
    rw [Sys.pc_goto]
    have hnote : Action.note s (.lookup env) (d, false) = (d, (s.tunnel.map d.src).isSome) := rfl
    rw [hnote]
    rcases afterLookup_cases (s.tunnel.allows d.src.addr) tapId d with
      ⟨h₀, hr⟩ | ⟨h₀, ⟨-, hr⟩ | ⟨-, hr⟩⟩ <;> rw [hr]
    · rw [if_pos h₀] at hlook
      exact .inl ⟨by rw [hlook]; rfl, rfl⟩
    · rw [if_neg (by omega)] at hlook
      exact .inl ⟨by rw [hlook]; rfl, rfl⟩
    · rw [if_neg (by omega)] at hlook
      exact .inr ⟨rfl, by rw [hlook]; rfl⟩
  | relookup tev rest d env tapId hpc hlookup =>
    have hlook : s.tunnel.map d.src = if 0 ≤ tapId then some tapId.toNat else none :=
      answers_finiteMapOps env _ _ _ trivial hlookup
    refine h.decide hmap hstep (Sys.queueId_goto ..) (hreceipt hpc rfl) rfl
      rfl (.inl ⟨?_, rfl⟩)
    rw [Sys.pc_goto]
    have hnote : Action.note s (.lookup env) (d, false) = (d, (s.tunnel.map d.src).isSome) := rfl
    rw [hnote]
    rcases afterRelookup_cases tapId d with ⟨h₀, hr⟩ | ⟨h₀, hr⟩ <;> rw [hr]
    · rw [if_pos h₀] at hlook
      rw [hlook]
      rfl
    · rw [if_neg (by omega)] at hlook
      rw [hlook]
      rfl
  | unlockMiss tev rest d hpc =>
    exact h.quiet hmap hstep (.inl (Sys.queueId_lockGoto ..))
      (by rw [Sys.pc_lockGoto, hpc]; rfl) (fun _ => rfl) rfl rfl
  | wrlock tev rest d hpc =>
    exact h.quiet hmap hstep (.inl (Sys.queueId_lockGoto ..))
      (by rw [Sys.pc_lockGoto, hpc]; rfl) (fun _ => rfl) rfl rfl
  | unlockHit tev rest id d hpc =>
    exact h.quiet hmap hstep (.inl (Sys.queueId_lockGoto ..))
      (by rw [Sys.pc_lockGoto, hpc]; rfl) (fun _ => rfl) rfl rfl
  | rdlockHit tev rest id d hpc =>
    exact h.quiet hmap hstep (.inl (Sys.queueId_lockGoto ..))
      (by rw [Sys.pc_lockGoto, hpc]; rfl) (fun _ => rfl) rfl rfl
  | allocFail tev rest d env t epoll hpc halloc =>
    refine h.decide hmap hstep (Sys.queueId_goto ..) (hreceipt hpc rfl) rfl
      rfl (.inr ⟨by rw [Sys.pc_goto]; rfl, ?_⟩)
    show (d, false || allocates s env d.src) = _
    simp [allocates, halloc]
  | alloc tev rest d env id t epoll hpc halloc =>
    refine h.decide hmap hstep (Sys.queueId_goto ..) (hreceipt hpc rfl) rfl
      rfl (.inl ⟨?_, rfl⟩)
    show _ = some (d, false || allocates s env d.src)
    rw [Sys.pc_goto]
    simp [allocates, halloc, Pc.receipt, Pc.point, Point.receipt]
  | add tev rest id d env map hpc =>
    exact h.quiet hmap hstep (.inl (Sys.queueId_goto ..)) (by rw [Sys.pc_goto, hpc]; rfl)
      (fun _ => rfl) rfl rfl
  | write tev rest id d fd r now hpc hfd => exact h.write hmap hdev hpc hfd hstep
  | rearm tev rest hpc =>
    exact h.quiet hmap hstep (.inl (Sys.queueId_goto ..))
      (by rw [Sys.pc_goto, hpc, receipt_nextEvent]; rfl) (fun _ => rfl) rfl rfl
  | rearmFail tev rest hpc =>
    exact h.quiet hmap hstep (.inl (Sys.queueId_goto ..)) (by rw [Sys.pc_goto, hpc]; rfl)
      (fun _ => rfl) rfl rfl
  | dieInMap tev rest p a hpc ha =>
    rcases ha with ⟨env, e, -, hret⟩ | ⟨env, e, id, -, hret⟩ <;> cases hret
  | dieInAlloc tev rest d env c hpc halloc =>
    refine h.decide hmap hstep rfl (hreceipt hpc rfl) rfl rfl (.inl ⟨?_, rfl⟩)
    show (s.workers w).pc.receipt = some (d, false || allocates s env d.src)
    rw [hpc]
    simp [allocates, halloc, Pc.receipt, Pc.point, Point.receipt]

/-- A step after which the tap side stands where it stood. -/
theorem SendLedger.quiet (h : SendLedger w tr s sent) (hext : Extends s.tunnel s'.tunnel)
    (hframe : (s'.workers w).pc.frame = (s.workers w).pc.frame)
    (ha : v = w → a.frame = none ∧ a.sent = none) :
    SendLedger w (tr ++ [⟨s, (v, a), s'⟩]) s' sent := by
  have hnone : ∀ {α : Type} (f : Action Unit → Option α), (v = w → f a = none) →
      (if v = w then (f a).toList else []) = [] := by
    intro α f hf
    split_ifs with hv
    · rw [hf hv]
      rfl
    · rfl
  refine ⟨?_, ?_, fun x hx => ?_⟩
  · unfold UdpEthTunnel.reads
    rw [byWorker_snoc, hnone _ fun hv => (ha hv).1, List.append_nil, hframe]
    exact h.reads
  · unfold UdpEthTunnel.sends
    rw [byWorker_snoc, hnone _ fun hv => (ha hv).2, List.append_nil]
    refine h.sends.trans (List.map_congr_left fun x hx => ?_)
    obtain ⟨i, hi, hlt⟩ := h.devs x hx
    rw [hi, hext.remote i hlt]
  · obtain ⟨i, hi, hlt⟩ := h.devs x hx
    exact ⟨i, hi, hlt.trans_le hext.numTapDevs⟩

/-- The frame in hand is sent to the remote endpoint of its device. -/
theorem SendLedger.sendto (h : SendLedger w tr s sent) (hdev : DevInv s) {tev : TunnelEpollEvent}
    {rest : List TunnelEpollEvent} {frame : Bytes} {dst : Endpoint} {r : Option ℕ} {now : Int}
    (hpc : (s.workers w).pc = .handle tev rest (.tapSend frame))
    (hdst : Reads (s.tunnel.remote tev.tapId.toInt) dst)
    (hext : Extends s.tunnel
      (s.account w tev.tapId.toInt (.afterSend r now) (.handle tev rest .tapRead)).tunnel) :
    SendLedger w (tr ++ [⟨s, (w, .sendto frame dst r now),
      s.account w tev.tapId.toInt (.afterSend r now) (.handle tev rest .tapRead)⟩])
      (s.account w tev.tapId.toInt (.afterSend r now) (.handle tev rest .tapRead))
      (sent ++ [(tev.tapId.toInt, frame)]) := by
  obtain ⟨i, hi, hlt, hfd⟩ := hdev.events w tev (by rw [hpc]; exact List.mem_cons_self ..)
    (hdev.tap w tev rest _ hpc trivial)
  obtain ⟨t, ht, he⟩ := hdev.account hi hlt (by rw [hpc]; simp) (.afterSend r now)
    (.handle tev rest .tapRead)
  rw [he] at hext ⊢
  have hremote : s.tunnel.remote tev.tapId.toInt = some dst := by
    rcases hdst with hnone | hsome
    · rw [hi] at hnone
      obtain ⟨d, hd, -⟩ := Option.bind_eq_some_iff.1 hfd
      unfold remote at hnone
      rw [hd] at hnone
      cases hnone
    · exact hsome
  have hreads := h.reads
  rw [hpc] at hreads
  refine ⟨?_, ?_, fun x hx => ?_⟩
  · unfold UdpEthTunnel.reads
    rw [byWorker_snoc, if_pos rfl, Sys.pc_goto]
    exact congrArg (· ++ []) hreads
  · unfold UdpEthTunnel.sends
    rw [byWorker_snoc, if_pos rfl, List.map_append, List.map_append]
    congr 1
    · refine h.sends.trans (List.map_congr_left fun x hx => ?_)
      obtain ⟨j, hj, hlt'⟩ := h.devs x hx
      rw [hj, hext.remote j hlt']
    · show [(frame, some dst)] = [(frame, t.remote _)]
      rw [ht.remote, hremote]
  · rcases List.mem_append.1 hx with hx | hx
    · obtain ⟨j, hj, hlt'⟩ := h.devs x hx
      exact ⟨j, hj, hlt'.trans_le hext.numTapDevs⟩
    · obtain rfl := List.mem_singleton.1 hx
      exact ⟨i, hi, hlt.trans_le hext.numTapDevs⟩

/-- **The worker's own step keeps the books of the tap side.** -/
theorem SendLedger.step (h : SendLedger w tr s sent) (hdev : DevInv s)
    (hstep : Step finiteMapOps s (w, a) s') (hfit : FitsBuffer s (w, a)) :
    ∃ sent, SendLedger w (tr ++ [⟨s, (w, a), s'⟩]) s' sent := by
  have hs := hstep.stepOf.2.2
  have hext := hs.extends hdev.size
  have hquiet : (s'.workers w).pc.frame = (s.workers w).pc.frame → a.frame = none →
      a.sent = none → ∃ sent, SendLedger w (tr ++ [⟨s, (w, a), s'⟩]) s' sent :=
    fun hframe hread hsent => ⟨sent, h.quiet hext hframe fun _ => ⟨hread, hsent⟩⟩
  cases hs with
  | read tev rest fd r hpc =>
    cases r with
    | none => exact hquiet (by rw [Sys.pc_goto, hpc]; rfl) rfl rfl
    | some frame =>
      have hcut : frame.take (2 * s.tunnel.mtu) = frame := List.take_of_length_le hfit
      refine ⟨sent, ?_, ?_, h.devs⟩
      · unfold UdpEthTunnel.reads
        rw [byWorker_snoc, if_pos rfl, Sys.pc_goto]
        have hreads := h.reads
        rw [hpc] at hreads
        rw [show byWorker w Action.frame tr = sent from hreads.trans (List.append_nil _)]
        show sent ++ [(tev.tapId.toInt, frame)] = sent ++ [(tev.tapId.toInt, frame.take _)]
        rw [hcut]
      · unfold UdpEthTunnel.sends
        rw [byWorker_snoc, if_pos rfl]
        exact (congrArg _ (List.append_nil _)).trans h.sends
  | sendto tev rest frame dst r now hpc hdst => exact ⟨_, h.sendto hdev hpc hdst hext⟩
  | write tev rest id d fd r now hpc =>
    refine hquiet ?_ rfl rfl
    rcases s.account_cases w id (.afterWrite r now) (.handle tev rest .recv) with he | ⟨t, -, he⟩ <;>
      rw [he]
    · rfl
    · rw [Sys.pc_goto, hpc]
      rfl
  | start hpc => exact hquiet (by simp [Sys.workers_setWorker, hpc, Pc.frame]) rfl rfl
  | rdlockBatch batch hpc =>
    exact hquiet (by rw [Sys.pc_lockGoto, hpc, frame_nextEvent]; rfl) rfl rfl
  | rearm tev rest hpc => exact hquiet (by rw [Sys.pc_goto, hpc, frame_nextEvent]; rfl) rfl rfl
  | recvfrom tev rest r hpc =>
    refine hquiet ?_ rfl rfl
    rw [Sys.pc_goto, hpc]
    rcases afterRecv_cases s.tunnel.mtu r with ⟨-, hr⟩ | ⟨d, -, ⟨-, hr⟩ | ⟨-, hr⟩⟩ <;> rw [hr] <;> rfl
  | lookup tev rest d env tapId hpc =>
    refine hquiet ?_ rfl rfl
    rw [Sys.pc_goto, hpc]
    rcases afterLookup_cases (s.tunnel.allows d.src.addr) tapId d with
      ⟨-, hr⟩ | ⟨-, ⟨-, hr⟩ | ⟨-, hr⟩⟩ <;> rw [hr] <;> rfl
  | relookup tev rest d env tapId hpc =>
    refine hquiet ?_ rfl rfl
    rw [Sys.pc_goto, hpc]
    rcases afterRelookup_cases tapId d with ⟨-, hr⟩ | ⟨-, hr⟩ <;> rw [hr] <;> rfl
  | epollFail hpc => exact hquiet (by rw [Sys.pc_goto, hpc]; rfl) rfl rfl
  | epollWait batch hpc => exact hquiet (by rw [Sys.pc_goto, hpc]; rfl) rfl rfl
  | scopeEnd hpc => exact hquiet (by rw [Sys.pc_lockGoto, hpc]; rfl) rfl rfl
  | unlockMiss tev rest d hpc => exact hquiet (by rw [Sys.pc_lockGoto, hpc]; rfl) rfl rfl
  | wrlock tev rest d hpc => exact hquiet (by rw [Sys.pc_lockGoto, hpc]; rfl) rfl rfl
  | unlockHit tev rest id d hpc => exact hquiet (by rw [Sys.pc_lockGoto, hpc]; rfl) rfl rfl
  | rdlockHit tev rest id d hpc => exact hquiet (by rw [Sys.pc_lockGoto, hpc]; rfl) rfl rfl
  | allocFail tev rest d env t epoll hpc => exact hquiet (by rw [Sys.pc_goto, hpc]; rfl) rfl rfl
  | alloc tev rest d env id t epoll hpc => exact hquiet (by rw [Sys.pc_goto, hpc]; rfl) rfl rfl
  | add tev rest id d env map hpc => exact hquiet (by rw [Sys.pc_goto, hpc]; rfl) rfl rfl
  | rearmFail tev rest hpc => exact hquiet (by rw [Sys.pc_goto, hpc]; rfl) rfl rfl
  | dieInMap tev rest p a hpc ha =>
    rcases ha with ⟨env, e, -, hret⟩ | ⟨env, e, id, -, hret⟩ <;> cases hret
  | dieInAlloc => exact hquiet rfl rfl rfl

theorem receipt_map_fst (pc : Pc) : pc.receipt.map (·.1) = pc.datagram := by
  cases pc with
  | handle tev rest p => cases p <;> rfl
  | _ => rfl

/-- **The books are kept along a run.** -/
theorem books {s₀ : MapSys} (hmap : MapInv s₀) (hdev : DevInv s₀)
    (hidle : ∀ w, (s₀.workers w).pc = .start) (hrun : Run (Step finiteMapOps) s₀ tr s)
    (hfit : ∀ e ∈ tr, FitsBuffer e.pre e.act) (hclean : ∀ e ∈ tr, CleanAlloc e.pre e.act) :
    MapInv s ∧ DevInv s ∧
      ∀ w, (∃ done, RecvLedger w tr s done) ∧ ∃ sent, SendLedger w tr s sent := by
  induction hrun with
  | nil =>
    refine ⟨hmap, hdev, fun w => ⟨⟨[], ?_, rfl, nofun, ?_, fun _ => rfl⟩, [], ?_, rfl, nofun⟩⟩ <;>
      rw [hidle w]
    · rfl
    · exact nofun
    · rfl
  | @snoc u v tr wa hrun hstep ih =>
    obtain ⟨hmap, hdev, hbooks⟩ := ih (fun e he => hfit e (List.mem_append_left _ he))
      fun e he => hclean e (List.mem_append_left _ he)
    have hlast : (⟨u, wa, v⟩ : Event MapSys (ℕ × Action Unit)) ∈ tr ++ [⟨u, wa, v⟩] :=
      List.mem_append_right _ (List.mem_singleton.2 rfl)
    obtain ⟨x, a⟩ := wa
    have hs := hstep.stepOf.2.2
    have hext := hs.extends hdev.size
    refine ⟨(hmap.step hstep).1, hdev.step hstep (hclean _ hlast), fun w => ?_⟩
    obtain ⟨⟨done, hrecv⟩, sent, hsend⟩ := hbooks w
    rcases eq_or_ne w x with rfl | hne
    · exact ⟨hrecv.step hmap hdev hstep (hfit _ hlast), hsend.step hdev hstep (hfit _ hlast)⟩
    · have hw := hs.workers_ne hne
      exact ⟨⟨done, hrecv.frame hmap hext (hmap.step hstep).2 hw hne.symm⟩, sent,
        hsend.quiet hext (by rw [hw]) fun h => absurd h hne.symm⟩

end Ledgers

/-- What faithful forwarding means for worker `w` after a run.

Of the datagrams it has received, in order, it is through with `done`, and has at
most one in hand; its writes are, in order, those of the admitted ones of `done`,
each with its payload to the device of its source on the queue of the worker, and
every one of these has such a device.  The frames it has sent are, in order, the
frames it has read but for the last that it may have in hand, each to the remote
endpoint of its device.  And a read for an event of a tap device reads that device,
through the descriptor the event is for. -/
def Forwards (w : ℕ) (tr : Trace (Endpoint → Option ℕ) Unit) (s : MapSys) : Prop :=
  (∃ done hand : List Receipt, (receipts w tr).reverse = done ++ hand ∧
    hand.map (·.1) = (s.workers w).pc.datagram.toList ∧
    writes w tr = done.filterMap (deliver s.tunnel (s.workers w).queueId) ∧
    ∀ x ∈ done, x.2 = true →
      x.1.inet6 = true ∧ (deliver s.tunnel (s.workers w).queueId x).isSome) ∧
  (∃ done hand : List (Int × Bytes), reads w tr = done ++ hand ∧
    hand = (s.workers w).pc.frame.toList ∧
    (sends w tr).map (fun x => (x.1, some x.2)) =
      done.map fun x => (x.2, s.tunnel.remote x.1)) ∧
  ∀ e ∈ tr, ∀ id fd r, e.act = (w, .read id fd r) → ∃ tev rest, ∃ i : ℕ,
    (e.pre.workers w).pc = .handle tev rest .tapRead ∧ tev.tapId.toInt = i ∧ id = i ∧
      i < e.pre.tunnel.numTapDevs ∧
      e.pre.tunnel.tapFd i (e.pre.workers w).queueId = some fd ∧ tev.fd = fd

/-- **Forwarding is faithful.**  A worker handles one event at a time: the datagram it has received
is written to the device of its source before it receives another, and the frame it has read
from a device is sent to the remote endpoint of that device before it reads another.  So in
every run in which the datagrams and frames fit the buffer, what a worker writes and sends is
what it received from admitted sources and what it read, in order and unchanged, as long as no
call of `tunnel_alloc_new_tap` fails after it has registered a descriptor: the event of such a
registration names a device that is not there. -/
theorem forwarding (env : CreateEnv Unit) (params : TunnelParams) (s₀ s : MapSys)
    (tr : Trace (Endpoint → Option ℕ) Unit) (w : ℕ)
    (hcreate : tunnelCreate finiteMapOps env params = .created s₀)
    (hrun : Run (Step finiteMapOps) s₀ tr s) (hfit : ∀ e ∈ tr, FitsBuffer e.pre e.act)
    (hclean : ∀ e ∈ tr, CleanAlloc e.pre e.act) :
    Forwards w tr s := by
  have hmap₀ := mapInv_created hcreate
  have hdev₀ := devInv_created hcreate
  have hidle : ∀ w, (s₀.workers w).pc = .start := fun w => by rw [(tunnelCreate_created hcreate).1]
  obtain ⟨hmap, hdev, hbooks⟩ := books hmap₀ hdev₀ hidle hrun hfit hclean
  obtain ⟨⟨done, hrecv⟩, sent, hsend⟩ := hbooks w
  refine ⟨⟨done.reverse, (s.workers w).pc.receipt.toList, ?_, ?_, ?_, ?_⟩,
    ⟨sent, _, hsend.reads, rfl, hsend.sends⟩, ?_⟩
  · rw [hrecv.receipts, List.reverse_append]
    cases (s.workers w).pc.receipt <;> rfl
  · rw [← receipt_map_fst]
    cases (s.workers w).pc.receipt <;> rfl
  · rw [List.filterMap_reverse, ← hrecv.writes, List.reverse_reverse]
  · intro x hx hok
    have hx' := List.mem_reverse.1 hx
    obtain ⟨h6, i, hi⟩ := hrecv.found x hx' hok
    have hq := hdev.queue w fun hs => by
      rw [hrecv.idle hs] at hx'
      cases hx'
    obtain ⟨fd, hfd⟩ := hdev.fds i (hmap.back _ _ hi).1 _ hq
    exact ⟨h6, by simp [deliver, h6, hok, hi, hfd]⟩
  · intro e he id fd r hact
    obtain ⟨hinv, hstep⟩ := hrun.pre_of_mem (I := fun u => DevInv u) (G := CleanAlloc)
      (fun u wa v hu hG hstep => hu.step hstep hG) hclean hdev₀ he
    rw [hact] at hstep
    obtain ⟨tev, rest, hpc, rfl, hfd⟩ := hstep.stepOf.2.2.of_read
    obtain ⟨i, hi, hlt, hev⟩ := hinv.events w tev (by rw [hpc]; exact List.mem_cons_self ..)
      (hinv.tap w tev rest _ hpc trivial)
    rw [hi] at hfd
    have hfd : tev.fd = fd := by
      rcases hfd with hnone | hsome
      · rw [hev] at hnone
        cases hnone
      · rw [hev] at hsome
        exact Option.some.inj hsome
    exact ⟨tev, rest, i, hpc, hi, hi, hlt, hfd ▸ hev, hfd⟩

/-- A run that admits a host and delivers its datagram. -/
theorem forwarding_firstHost : ∃ s₀ s tr,
    tunnelCreate finiteMapOps (openEnv ()) (openParams 2) = .created s₀ ∧
      Run (Step finiteMapOps) s₀ tr s ∧ s.tunnel.map (switchHost 2) = some 0 ∧ Forwards 0 tr s := by
  have hreplay : ∃ s₀ : MapSys, tunnelCreate finiteMapOps (openEnv ()) (openParams 2) = .created s₀ ∧
      s₀.tunnel.numTapDevs ≤ s₀.tunnel.tapDevs.length ∧
      (replay finiteMapOps s₀ 0 (wakeActions Unit ++ admitActions () (switchHost 2) (40 + ·) 40)).any
        (fun s => s.tunnel.map (switchHost 2) == some 0 && s.tunnel.numTapDevs == 1) = true :=
    ⟨_, rfl, Nat.le_refl 0, by decide +kernel⟩
  obtain ⟨s₀, hcreate, hle, hany⟩ := hreplay
  obtain ⟨s, hs, hp⟩ := (Option.any_eq_true _ _).1 hany
  rw [Bool.and_eq_true, beq_iff_eq, beq_iff_eq] at hp
  obtain ⟨tr, hrun, -, htr⟩ := mem_replay hle hs
  refine ⟨s₀, s, tr, hcreate, hrun, hp.1, forwarding _ _ s₀ s tr 0 hcreate hrun ?_ ?_⟩
  · intro e he
    obtain ⟨hmem, -, -⟩ := htr e he
    have hsize : ∀ a ∈ wakeActions Unit ++ admitActions () (switchHost 2) (40 + ·) 40,
        a.size ≤ 0 := by decide
    exact (hsize _ hmem).trans (Nat.zero_le _)
  · intro e he
    obtain ⟨hmem, -, hext⟩ := htr e he
    have hdevs := hext.numTapDevs
    exact cleanAlloc_of_admits hmem (by omega)

/-- `epoll_ctl` fails for the second queue. -/
def halfAlloc (fds : ℕ → Fd) : AllocTapEnv :=
  { quietAlloc fds with epollAdd := fun q => q == 0 }

/-- A datagram from an unknown host; its device cannot be registered with the second
queue, and the first queue reports its descriptor. -/
def halfActions : List (Action Unit) :=
  wakeActions Unit ++
    [.recvfrom (some ⟨true, switchHost 2, [7]⟩), .lookup (), .unlock, .wrlock, .lookup (),
      .allocNewTap (halfAlloc (40 + ·)), .recvfrom none, .rearm true, .unlock,
      .epollWait (some [(tapRegistration 0 40).data]), .rdlock]

/-- **A failed allocation breaks forwarding.**  The call that cannot register its
device with the second queue leaves it registered with the first, and the worker
that gets the event reads through the array that was released: the descriptor it
reads is any. -/
theorem forwarding_fails : ¬ ∀ (env : CreateEnv Unit) (params : TunnelParams) (s₀ s : MapSys)
    (tr : Trace (Endpoint → Option ℕ) Unit) (w : ℕ),
    tunnelCreate finiteMapOps env params = .created s₀ → Run (Step finiteMapOps) s₀ tr s →
    (∀ e ∈ tr, FitsBuffer e.pre e.act) → Forwards w tr s := by
  intro h
  have hreplay : ∃ s₀ : MapSys, tunnelCreate finiteMapOps (openEnv ()) (openParams 2) = .created s₀ ∧
      s₀.tunnel.mtu = 1500 ∧ s₀.tunnel.numTapDevs ≤ s₀.tunnel.tapDevs.length ∧
      (replay finiteMapOps s₀ 0 (halfActions ++ [.read 0 10 (some [1])])).any
        (fun s => s.tunnel.numTapDevs == 0) = true :=
    ⟨_, rfl, rfl, Nat.le_refl 0, by decide +kernel⟩
  obtain ⟨s₀, hcreate, hmtu, hle, hany⟩ := hreplay
  obtain ⟨s, hs, hp⟩ := (Option.any_eq_true _ _).1 hany
  obtain ⟨tr, hrun, hin, htr⟩ := mem_replay hle hs
  have hfit : ∀ e ∈ tr, FitsBuffer e.pre e.act := by
    intro e he
    obtain ⟨hmem, hext, -⟩ := htr e he
    have hsize : ∀ a ∈ halfActions ++ [.read 0 10 (some [1])], a.size ≤ 1 := by decide
    have ha := hsize _ hmem
    have hmtu' := hext.mtu
    show e.act.2.size ≤ 2 * e.pre.tunnel.mtu
    omega
  obtain ⟨e, he, hact⟩ := hin (.read 0 10 (some [1])) (List.mem_append_right _ (List.mem_singleton.2 rfl))
  obtain ⟨-, -, i, -, -, -, hi, -⟩ := (h _ _ s₀ s tr 0 hcreate hrun hfit).2.2 e he 0 10 _ hact
  have hdevs := (htr e he).2.2.numTapDevs
  rw [beq_iff_eq] at hp
  omega

end UdpEthTunnel
