/-
# Deleting a tunnel

`tunnel_delete` of `src/tunnel.c`, as the list of what it does (`tunnelDelete`).  The
loop over the descriptors of a device is bounded by the number of devices, and the
arrays of the device are released inside it.

So a tunnel is deleted as it should be exactly when it has no device, or one device
and one queue; and when none of its descriptors is 0, which stands for one that was
not opened (`deletesSoundly_iff`).
-/

import UdpEthTunnel.Tunnel.Devices
import UdpEthTunnel.Tunnel.FiniteMap

namespace UdpEthTunnel

open Tunnel

/-- The blocks of memory of a tunnel. -/
inductive Block where
  | tapFds (i : ℕ)
  | stats (i : ℕ)
  | map
  | allowedAddrList
  | tapDevs
  | udpFds
  | epollFds
  | workers
  | name
  | tapBaseName
  | bridgeName
  | tunnel
deriving DecidableEq, Repr

/-- What `tunnel_delete` does. -/
inductive DeleteOp where
  /-- `pthread_cancel` -/
  | cancel (w : ℕ)
  /-- `pthread_join` -/
  | join (w : ℕ)
  | closeUdp (q : ℕ) (fd : Fd)
  | closeEpoll (q : ℕ) (fd : Fd)
  /-- reads `tap_devs[i].tap_fds[j]` -/
  | readTapFd (i j : ℕ)
  /-- closes what it has read there -/
  | closeTap (i j : ℕ) (fd : Fd)
  | free (b : Block)
deriving DecidableEq, Repr

section Delete

variable {M E : Type}

/-- Close a descriptor; 0 stands for none. -/
def closeOpen (op : Fd → DeleteOp) (fd : Fd) : List DeleteOp := if fd > 0 then [op fd] else []

/-- Close the descriptors of an array, one for each queue. -/
def closeAll (op : ℕ → Fd → DeleteOp) (fds : List Fd) (numQueues : ℕ) : List DeleteOp :=
  (List.range numQueues).flatMap fun q => closeOpen (op q) (fds.getD q 0)

/-- The inner loop over the device `i`, for the indices `js`; `released` is whether its
arrays have been released.  What is read then, or outside the array, is up to
`garbage`. -/
def deleteTapDev (garbage : ℕ → ℕ → Fd) (t : Tunnel M) (i : ℕ) : Bool → List ℕ → List DeleteOp
  | _, [] => []
  | released, j :: js =>
    let fd := if released then garbage i j else (t.tapFd i j).getD (garbage i j)
    .readTapFd i j :: (closeOpen (.closeTap i j) fd ++
      .free (.tapFds i) :: .free (.stats i) :: deleteTapDev garbage t i true js)

/-- The loop over the devices. -/
def deleteTapDevs (garbage : ℕ → ℕ → Fd) (t : Tunnel M) : List DeleteOp :=
  (List.range t.numTapDevs).flatMap fun i =>
    deleteTapDev garbage t i false (List.range t.numTapDevs)

/-- What a tunnel owns besides the arrays of its devices, in the order of its release. -/
def ownBlocks : List Block :=
  [.map, .allowedAddrList, .tapDevs, .udpFds, .epollFds, .workers, .name, .tapBaseName,
    .bridgeName, .tunnel]

/-- `tunnel_delete`, of a tunnel whose workers have been started.  To release `NULL`
does nothing, so the tests for it are left out. -/
def tunnelDelete (garbage : ℕ → ℕ → Fd) (t : Tunnel M) : List DeleteOp :=
  (List.range t.numQueues).map .cancel ++ (List.range t.numQueues).map .join ++
    closeAll .closeUdp t.udpFds t.numQueues ++ deleteTapDevs garbage t ++
    closeAll .closeEpoll t.epollFds t.numQueues ++ ownBlocks.map .free

/-- The tunnels that `tunnel_create` and successful calls of `tunnel_alloc_new_tap`
build. -/
inductive Built (ops : MapOps M E) : Tunnel M → Prop
  | create {env : CreateEnv E} {params : TunnelParams} {s : Sys M} :
      tunnelCreate ops env params = .created s → Built ops s.tunnel
  | alloc {env : AllocTapEnv} {t t' : Tunnel M} {epoll epoll' : EpollSets} {e : Endpoint} {id : ℕ} :
      Built ops t → tunnelAllocNewTap env t epoll e = .ret (some id) t' epoll' → Built ops t'

/-- **The tunnel is deleted as it should be.**  Every descriptor is closed once, every
array of a device is released once, and the descriptors of a device are read inside
their array and before it is released. -/
structure DeletesSoundly (t : Tunnel M) (ops : List DeleteOp) : Prop where
  tap : ∀ (i : ℕ) q fd, i < t.numTapDevs → q < t.numQueues → t.tapFd i q = some fd →
    ops.count (.closeTap i q fd) = 1
  udp : ∀ q fd, q < t.numQueues → t.udpFds[q]? = some fd → ops.count (.closeUdp q fd) = 1
  epoll : ∀ q fd, q < t.numQueues → t.epollFds[q]? = some fd → ops.count (.closeEpoll q fd) = 1
  arrays : ∀ i < t.numTapDevs, ops.count (.free (.tapFds i)) = 1 ∧ ops.count (.free (.stats i)) = 1
  bounds : ∀ i j, .readTapFd i j ∈ ops → j < t.numQueues
  order : ops.Pairwise fun x y => ∀ i j, x = .free (.tapFds i) → y ≠ .readTapFd i j

/-- Every descriptor that the tunnel keeps is positive. -/
def PositiveFds (t : Tunnel M) : Prop :=
  (∀ (i : ℕ) q fd, i < t.numTapDevs → q < t.numQueues → t.tapFd i q = some fd → 0 < fd) ∧
    (∀ fd ∈ t.udpFds, 0 < fd) ∧ ∀ fd ∈ t.epollFds, 0 < fd

variable {ops : MapOps M E} {t : Tunnel M} {garbage : ℕ → ℕ → Fd} {i j q fd : ℕ} {x : DeleteOp}

/-- A tunnel that was built has all its descriptors. -/
theorem Built.fds (h : Built ops t) : t.numTapDevs ≤ t.tapDevs.length ∧
    t.udpFds.length = t.numQueues ∧ t.epollFds.length = t.numQueues ∧
    ∀ i : ℕ, i < t.numTapDevs → ∀ q < t.numQueues, ∃ fd, t.tapFd i q = some fd := by
  induction h with
  | create h =>
    have hdevs := devInv_created h
    obtain ⟨-, -, t, hbare, ⟨-, -, rfl, -⟩ | ⟨e, hdef⟩⟩ := tunnelCreate_created h
    · exact ⟨hdevs.size, hbare.udpFds, hbare.epollFds, hdevs.fds⟩
    · obtain ⟨map, -, hnew⟩ := hdef.add
      refine ⟨hdevs.size, ?_, ?_, hdevs.fds⟩
      · rw [hnew.ext.udpFds, hnew.ext.numQueues]
        exact hbare.udpFds
      · rw [hnew.ext.epollFds, hnew.ext.numQueues]
        exact hbare.epollFds
  | @alloc env t t' epoll epoll' e id _ halloc ih =>
    obtain ⟨hsize, hudp, hepoll, hfds⟩ := ih
    have hnew := allocNewTap_some hsize halloc
    obtain ⟨fds, htap, -⟩ := hnew.fds
    refine ⟨hnew.ext.size, ?_, ?_, fun i hi q hq => ?_⟩
    · rw [hnew.ext.udpFds, hudp, hnew.ext.numQueues]
    · rw [hnew.ext.epollFds, hepoll, hnew.ext.numQueues]
    · rw [hnew.ext.numQueues] at hq
      rcases Nat.lt_or_ge i t.numTapDevs with hlt | hge
      · rw [hnew.ext.tapFd i hlt]
        exact hfds i hlt q hq
      · obtain rfl : i = id := by
          rw [hnew.numTapDevs] at hi
          rw [hnew.id_eq]
          omega
        exact ⟨fds q, htap q hq⟩

theorem count_map_eq_zero {α : Type} {f : α → DeleteOp} (hf : ∀ a, f a ≠ x) (l : List α) :
    (l.map f).count x = 0 :=
  List.count_eq_zero.2 fun hmem => by
    obtain ⟨a, -, ha⟩ := List.mem_map.1 hmem
    exact hf a ha

theorem mem_of_count {l : List DeleteOp} (h : l.count x = 1) : x ∈ l :=
  List.count_pos_iff.1 (by omega)

theorem mem_closeOpen {op : Fd → DeleteOp} : x ∈ closeOpen op fd ↔ 0 < fd ∧ x = op fd := by
  unfold closeOpen
  split_ifs with hfd
  · simp [hfd]
  · simp [hfd]

theorem mem_closeAll {op : ℕ → Fd → DeleteOp} {fds : List Fd} {n : ℕ} :
    x ∈ closeAll op fds n ↔ ∃ q < n, 0 < fds.getD q 0 ∧ x = op q (fds.getD q 0) := by
  unfold closeAll
  simp only [List.mem_flatMap, List.mem_range, mem_closeOpen]

theorem closeAll_succ (op : ℕ → Fd → DeleteOp) (fds : List Fd) (n : ℕ) :
    closeAll op fds (n + 1) = closeAll op fds n ++ closeOpen (op n) (fds.getD n 0) := by
  simp [closeAll, List.range_succ, List.flatMap_append]

/-- A descriptor of the array is closed once, unless it is 0. -/
theorem count_closeAll {op : ℕ → Fd → DeleteOp} (hop : ∀ q q' fd fd', op q fd = op q' fd' → q = q')
    {fds : List Fd} {n : ℕ} (hq : q < n) (hfd : fds[q]? = some fd) (hpos : 0 < fd) :
    (closeAll op fds n).count (op q fd) = 1 := by
  have hget : fds.getD q 0 = fd := by rw [List.getD_eq_getElem?_getD, hfd, Option.getD_some]
  induction n with
  | zero => omega
  | succ n ih =>
    rw [closeAll_succ, List.count_append]
    rcases Nat.lt_or_ge q n with hlt | hge
    · have hzero : (closeOpen (op n) (fds.getD n 0)).count (op q fd) = 0 := by
        refine List.count_eq_zero.2 fun hmem => ?_
        have heq := hop _ _ _ _ (mem_closeOpen.1 hmem).2
        omega
      rw [ih hlt, hzero]
    · obtain rfl : q = n := by omega
      have hzero : (closeAll op fds q).count (op q fd) = 0 := by
        refine List.count_eq_zero.2 fun hmem => ?_
        obtain ⟨q', hq', -, heq⟩ := mem_closeAll.1 hmem
        have heq := hop _ _ _ _ heq
        omega
      rw [hzero, hget, closeOpen, if_pos hpos, List.count_singleton_self]

/-- What the inner loop does. -/
theorem mem_deleteTapDev {released : Bool} {js : List ℕ}
    (h : x ∈ deleteTapDev garbage t i released js) :
    x = .free (.tapFds i) ∨ x = .free (.stats i) ∨
      ∃ j ∈ js, x = .readTapFd i j ∨ ∃ fd, 0 < fd ∧ x = .closeTap i j fd := by
  induction js generalizing released with
  | nil => cases h
  | cons j js ih =>
    unfold deleteTapDev at h
    rcases List.mem_cons.1 h with rfl | h
    · exact .inr (.inr ⟨j, List.mem_cons_self, .inl rfl⟩)
    rcases List.mem_append.1 h with h | h
    · exact .inr (.inr ⟨j, List.mem_cons_self, .inr ⟨_, mem_closeOpen.1 h⟩⟩)
    rcases List.mem_cons.1 h with rfl | h
    · exact .inl rfl
    rcases List.mem_cons.1 h with rfl | h
    · exact .inr (.inl rfl)
    refine (ih h).imp_right (Or.imp_right ?_)
    rintro ⟨j', hj', hx⟩
    exact ⟨j', List.mem_cons_of_mem _ hj', hx⟩

/-- The inner loop releases the descriptors of the device once in each round. -/
theorem count_free_deleteTapDev {released : Bool} {js : List ℕ} :
    (deleteTapDev garbage t i released js).count (.free (.tapFds i)) = js.length := by
  induction js generalizing released with
  | nil => rfl
  | cons j js ih =>
    unfold deleteTapDev
    have hclose : ∀ fd, (closeOpen (.closeTap i j) fd).count (.free (.tapFds i)) = 0 := fun fd =>
      List.count_eq_zero.2 fun hmem => by cases (mem_closeOpen.1 hmem).2
    simp only [List.count_cons, List.count_append, ih, hclose, List.length_cons]
    simp

theorem mem_deleteTapDevs (h : x ∈ deleteTapDevs garbage t) : ∃ i < t.numTapDevs,
    x = .free (.tapFds i) ∨ x = .free (.stats i) ∨
      ∃ j < t.numTapDevs, x = .readTapFd i j ∨ ∃ fd, 0 < fd ∧ x = .closeTap i j fd := by
  obtain ⟨i, hi, hx⟩ := List.mem_flatMap.1 h
  refine ⟨i, List.mem_range.1 hi, (mem_deleteTapDev hx).imp_right (Or.imp_right ?_)⟩
  rintro ⟨j, hj, hx⟩
  exact ⟨j, List.mem_range.1 hj, hx⟩

/-- Whether an operation is about a device. -/
def DeleteOp.ofTap : DeleteOp → Bool
  | .readTapFd .. | .closeTap .. | .free (.tapFds _) | .free (.stats _) => true
  | _ => false

theorem ofTap_of_mem (h : x ∈ deleteTapDevs garbage t) : x.ofTap = true := by
  obtain ⟨i, -, rfl | rfl | ⟨j, -, rfl | ⟨fd, -, rfl⟩⟩⟩ := mem_deleteTapDevs h
  all_goals rfl

theorem ofTap_closeAll {op : ℕ → Fd → DeleteOp} (hop : ∀ q fd, (op q fd).ofTap = false)
    {fds : List Fd} {n : ℕ} (h : x ∈ closeAll op fds n) : x.ofTap = false := by
  obtain ⟨q, -, -, rfl⟩ := mem_closeAll.1 h
  exact hop q _

/-- What is not about a device is done before the loop over the devices or after it. -/
theorem tunnelDelete_eq (garbage : ℕ → ℕ → Fd) (t : Tunnel M) : ∃ before after, tunnelDelete garbage t =
    before ++ deleteTapDevs garbage t ++ after ∧
    (∀ x ∈ before, x.ofTap = false) ∧ ∀ x ∈ after, x.ofTap = false := by
  refine ⟨(List.range t.numQueues).map .cancel ++ (List.range t.numQueues).map .join ++
    closeAll .closeUdp t.udpFds t.numQueues, closeAll .closeEpoll t.epollFds t.numQueues ++
    ownBlocks.map .free, by simp only [tunnelDelete, List.append_assoc], fun x hx => ?_, fun x hx => ?_⟩
  · rcases List.mem_append.1 hx with hx | hx
    · rcases List.mem_append.1 hx with hx | hx
      all_goals
        obtain ⟨w, -, rfl⟩ := List.mem_map.1 hx
        rfl
    · exact ofTap_closeAll (fun _ _ => rfl) hx
  · rcases List.mem_append.1 hx with hx | hx
    · exact ofTap_closeAll (fun _ _ => rfl) hx
    · obtain ⟨b, hb, rfl⟩ := List.mem_map.1 hx
      exact (by decide : ∀ b ∈ ownBlocks, (DeleteOp.free b).ofTap = false) b hb

/-- What is about a device is done in the loop over the devices. -/
theorem count_ofTap (hx : x.ofTap = true) :
    (tunnelDelete garbage t).count x = (deleteTapDevs garbage t).count x := by
  obtain ⟨before, after, heq, hbefore, hafter⟩ := tunnelDelete_eq garbage t
  have hb : before.count x = 0 := List.count_eq_zero.2 fun hmem => by
    rw [hbefore x hmem] at hx
    cases hx
  have ha : after.count x = 0 := List.count_eq_zero.2 fun hmem => by
    rw [hafter x hmem] at hx
    cases hx
  rw [heq, List.count_append, List.count_append, hb, ha]
  omega

theorem mem_ofTap (hx : x.ofTap = true) :
    x ∈ tunnelDelete garbage t ↔ x ∈ deleteTapDevs garbage t := by
  rw [← List.count_pos_iff, count_ofTap hx, List.count_pos_iff]

/-- What is not about a device is done where the descriptors are closed. -/
theorem count_close (hcancel : ∀ w, .cancel w ≠ x) (hjoin : ∀ w, .join w ≠ x)
    (hfree : ∀ b, .free b ≠ x) (hx : x.ofTap = false) : (tunnelDelete garbage t).count x =
      (closeAll .closeUdp t.udpFds t.numQueues).count x +
        (closeAll .closeEpoll t.epollFds t.numQueues).count x := by
  have hdevs : (deleteTapDevs garbage t).count x = 0 := List.count_eq_zero.2 fun hmem => by
    rw [ofTap_of_mem hmem] at hx
    cases hx
  simp only [tunnelDelete, List.count_append, count_map_eq_zero hcancel, count_map_eq_zero hjoin,
    count_map_eq_zero hfree, hdevs]
  omega

theorem count_closeUdp : (tunnelDelete garbage t).count (.closeUdp q fd) =
    (closeAll .closeUdp t.udpFds t.numQueues).count (.closeUdp q fd) := by
  rw [count_close (by simp) (by simp) (by simp) rfl, Nat.add_eq_left]
  refine List.count_eq_zero.2 fun hmem => ?_
  obtain ⟨_, -, -, heq⟩ := mem_closeAll.1 hmem
  cases heq

theorem count_closeEpoll : (tunnelDelete garbage t).count (.closeEpoll q fd) =
    (closeAll .closeEpoll t.epollFds t.numQueues).count (.closeEpoll q fd) := by
  rw [count_close (by simp) (by simp) (by simp) rfl, Nat.add_eq_right]
  refine List.count_eq_zero.2 fun hmem => ?_
  obtain ⟨_, -, -, heq⟩ := mem_closeAll.1 hmem
  cases heq

/-- The deletion of one device, where there is one. -/
theorem deleteTapDevs_one (hone : t.numTapDevs = 1) : deleteTapDevs garbage t =
    .readTapFd 0 0 :: (closeOpen (.closeTap 0 0) ((t.tapFd (0 : ℕ) 0).getD (garbage 0 0)) ++
      [.free (.tapFds 0), .free (.stats 0)]) := by
  simp [deleteTapDevs, hone, List.range_succ, deleteTapDev]

/-- The arrays of the first device are released as often as there are devices. -/
theorem le_count_free (garbage : ℕ → ℕ → Fd) (hlt : 0 < t.numTapDevs) :
    t.numTapDevs ≤ (tunnelDelete garbage t).count (.free (.tapFds 0)) := by
  have hsub : (deleteTapDev garbage t 0 false (List.range t.numTapDevs)).Sublist
      (deleteTapDevs garbage t) := by
    unfold deleteTapDevs
    rw [List.flatMap_def]
    exact List.sublist_flatten_of_mem (List.mem_map_of_mem (List.mem_range.2 hlt))
  have hle := hsub.count_le (.free (.tapFds 0))
  rw [count_free_deleteTapDev, List.length_range] at hle
  rw [count_ofTap rfl]
  omega

theorem mem_closeTap (h : .closeTap i j fd ∈ tunnelDelete garbage t) :
    j < t.numTapDevs ∧ 0 < fd := by
  obtain ⟨_, -, h | h | ⟨_, hj, h | ⟨_, hpos, h⟩⟩⟩ := mem_deleteTapDevs ((mem_ofTap rfl).1 h)
  all_goals cases h
  exact ⟨hj, hpos⟩

/-- What the descriptors must be for each of them to be closed. -/
theorem DeletesSoundly.positiveFds (hudp : t.udpFds.length = t.numQueues)
    (hepoll : t.epollFds.length = t.numQueues) (h : DeletesSoundly t (tunnelDelete garbage t)) :
    PositiveFds t := by
  refine ⟨fun i q fd hi hq htap => ?_, fun fd hfd => ?_, fun fd hfd => ?_⟩
  · have hone := h.tap i q fd hi hq htap
    exact (mem_closeTap (mem_of_count hone)).2
  · obtain ⟨q, hq, rfl⟩ := List.getElem_of_mem hfd
    have hone := h.udp q _ (hudp ▸ hq) (List.getElem?_eq_getElem hq)
    rw [count_closeUdp] at hone
    obtain ⟨_, -, hpos, heq⟩ := mem_closeAll.1 (mem_of_count hone)
    injection heq with _ heq
    exact heq ▸ hpos
  · obtain ⟨q, hq, rfl⟩ := List.getElem_of_mem hfd
    have hone := h.epoll q _ (hepoll ▸ hq) (List.getElem?_eq_getElem hq)
    rw [count_closeEpoll] at hone
    obtain ⟨_, -, hpos, heq⟩ := mem_closeAll.1 (mem_of_count hone)
    injection heq with _ heq
    exact heq ▸ hpos

/-- Where there is one device and one queue, or no device, the deletion is sound. -/
theorem deletesSoundly_of_le (hpos : PositiveFds t)
    (hshape : t.numTapDevs = 0 ∨ t.numTapDevs = 1 ∧ t.numQueues = 1) :
    DeletesSoundly t (tunnelDelete garbage t) := by
  refine ⟨fun i q fd hi hq htap => ?_, fun q fd hq hget => ?_, fun q fd hq hget => ?_,
    fun i hi => ?_, fun i j hmem => ?_, ?_⟩
  · obtain ⟨hone, hqueue⟩ : t.numTapDevs = 1 ∧ t.numQueues = 1 := by omega
    obtain ⟨rfl, rfl⟩ : i = 0 ∧ q = 0 := by omega
    rw [count_ofTap rfl, deleteTapDevs_one hone, htap, Option.getD_some, closeOpen,
      if_pos (hpos.1 0 0 fd hi hq htap)]
    simp
  · rw [count_closeUdp]
    have hop : ∀ q q' fd fd', DeleteOp.closeUdp q fd = .closeUdp q' fd' → q = q' :=
      fun _ _ _ _ heq => (DeleteOp.closeUdp.inj heq).1
    exact count_closeAll hop hq hget
      (hpos.2.1 fd (List.mem_of_getElem? hget))
  · rw [count_closeEpoll]
    have hop : ∀ q q' fd fd', DeleteOp.closeEpoll q fd = .closeEpoll q' fd' → q = q' :=
      fun _ _ _ _ heq => (DeleteOp.closeEpoll.inj heq).1
    exact count_closeAll hop hq hget
      (hpos.2.2 fd (List.mem_of_getElem? hget))
  · obtain ⟨hone, hqueue⟩ : t.numTapDevs = 1 ∧ t.numQueues = 1 := by omega
    obtain rfl : i = 0 := by omega
    obtain ⟨fd, hclose⟩ : ∃ fd, (t.tapFd (0 : ℕ) 0).getD (garbage 0 0) = fd := ⟨_, rfl⟩
    rw [count_ofTap rfl, count_ofTap rfl, deleteTapDevs_one hone, hclose, closeOpen]
    split_ifs
    · simp
    · simp
  · obtain ⟨_, -, h | h | ⟨_, hj, h | ⟨_, -, h⟩⟩⟩ := mem_deleteTapDevs ((mem_ofTap rfl).1 hmem)
    all_goals cases h
    omega
  · -- only the loop over the devices releases their arrays, or reads them
    obtain ⟨before, after, heq, hbefore, hafter⟩ := tunnelDelete_eq garbage t
    have hnoFree : ∀ x ∈ before, ∀ y : DeleteOp, ∀ i j : ℕ, x = .free (.tapFds i) → y ≠ .readTapFd i j := by
      rintro x hx y i j rfl
      cases hbefore _ hx
    have hnoRead : ∀ y ∈ after, ∀ x : DeleteOp, ∀ i j : ℕ, x = .free (.tapFds i) → y ≠ .readTapFd i j := by
      rintro y hy x i j - rfl
      cases hafter _ hy
    have hdevs : (deleteTapDevs garbage t).Pairwise fun x y =>
        ∀ i j : ℕ, x = .free (.tapFds i) → y ≠ .readTapFd i j := by
      rcases hshape with hzero | ⟨hone, -⟩
      · rw [deleteTapDevs, hzero]
        exact List.Pairwise.nil
      · rw [deleteTapDevs_one hone, closeOpen]
        split_ifs
        · simp
        · simp
    rw [heq]
    refine List.pairwise_append.2 ⟨List.pairwise_append.2 ⟨?_, hdevs, ?_⟩, ?_, ?_⟩
    · exact List.pairwise_of_forall_mem_list fun x hx y _ => hnoFree x hx y
    · exact fun x hx y _ => hnoFree x hx y
    · exact List.pairwise_of_forall_mem_list fun x _ y hy => hnoRead y hy x
    · exact fun x _ y hy => hnoRead y hy x

/-- A deletion that is sound is of a tunnel with no device, or one device and one queue:
the first device's arrays are released once for each device, and its second descriptor
is never looked at. -/
theorem DeletesSoundly.shape
    (hfds : ∀ i : ℕ, i < t.numTapDevs → ∀ q < t.numQueues, ∃ fd, t.tapFd i q = some fd)
    (h : DeletesSoundly t (tunnelDelete garbage t)) :
    t.numTapDevs = 0 ∨ t.numTapDevs = 1 ∧ t.numQueues = 1 := by
  rcases Nat.eq_zero_or_pos t.numTapDevs with hzero | hpos
  · exact .inl hzero
  have hone : t.numTapDevs = 1 := by
    have hle := le_count_free garbage hpos
    rw [(h.arrays 0 hpos).1] at hle
    omega
  have hread : .readTapFd 0 0 ∈ tunnelDelete garbage t := by
    refine (mem_ofTap rfl).2 ?_
    rw [deleteTapDevs_one hone]
    exact List.mem_cons_self
  have hqueue := h.bounds 0 0 hread
  rcases Nat.lt_or_ge 1 t.numQueues with hlt | hle
  · obtain ⟨fd, hfd⟩ := hfds 0 hpos 1 hlt
    have hclose := (mem_closeTap (mem_of_count (h.tap 0 1 fd hpos hlt hfd))).1
    omega
  · exact .inr ⟨hone, by omega⟩

/-- **When a tunnel is deleted as it should be.**  The inner loop of `tunnel_delete` runs to
the number of devices, not of queues, and releases the arrays of the device in each turn.
So one device with one queue is deleted as it should be, and so is a tunnel without devices,
if none of their descriptors is 0; every other one loses descriptors, reads its arrays out of
bounds or releases them twice, whatever stands in the memory that is read. -/
theorem deletesSoundly_iff (hbuilt : Built ops t) (garbage : ℕ → ℕ → Fd) :
    DeletesSoundly t (tunnelDelete garbage t) ↔
      PositiveFds t ∧ (t.numTapDevs = 0 ∨ t.numTapDevs = 1 ∧ t.numQueues = 1) := by
  obtain ⟨-, hudp, hepoll, hfds⟩ := hbuilt.fds
  constructor
  · exact fun h => ⟨h.positiveFds hudp hepoll, h.shape hfds⟩
  · exact fun ⟨hpos, hshape⟩ => deletesSoundly_of_le hpos hshape

end Delete

/-- A tunnel with one device, which a host that is not the default endpoint has got. -/
theorem exists_built (numQueues : ℕ) (hq : numQueues = 1 ∨ numQueues = 2) :
    ∃ t, Built finiteMapOps t ∧ t.numTapDevs = 1 ∧ t.numQueues = numQueues ∧
      (∀ q < numQueues, t.tapFd (0 : ℕ) q = some (40 + q)) ∧
      t.udpFds = (List.range numQueues).map (10 + ·) ∧
      t.epollFds = (List.range numQueues).map (20 + ·) := by
  have hcreate : ∃ s, tunnelCreate finiteMapOps (openEnv ()) (openParams numQueues) = .created s ∧
      ∃ t' epoll', tunnelAllocNewTap (quietAlloc (40 + ·)) s.tunnel s.epoll (switchHost 2) =
        .ret (some 0) t' epoll' ∧ t'.numTapDevs = 1 ∧ t'.numQueues = numQueues ∧
        (∀ q < numQueues, t'.tapFd (0 : ℕ) q = some (40 + q)) ∧
        t'.udpFds = (List.range numQueues).map (10 + ·) ∧
        t'.epollFds = (List.range numQueues).map (20 + ·) := by
    rcases hq with rfl | rfl
    · exact ⟨_, rfl, _, _, rfl, rfl, rfl, by decide, rfl, rfl⟩
    · exact ⟨_, rfl, _, _, rfl, rfl, rfl, by decide, rfl, rfl⟩
  obtain ⟨s, hs, t', epoll', halloc, ht⟩ := hcreate
  exact ⟨t', .alloc (.create hs) halloc, ht⟩

/-- A tunnel with one device and one queue is deleted as it should be. -/
theorem deletesSoundly_single : ∃ t, Built finiteMapOps t ∧ t.numTapDevs = 1 ∧
    DeletesSoundly t (tunnelDelete (fun _ _ => 0) t) := by
  obtain ⟨t, hbuilt, hone, hqueue, htap, hudp, hepoll⟩ := exists_built 1 (.inl rfl)
  refine ⟨t, hbuilt, hone, (deletesSoundly_iff hbuilt _).2 ⟨⟨fun i q fd hi hq hfd => ?_, ?_, ?_⟩,
    .inr ⟨hone, hqueue⟩⟩⟩
  · obtain rfl : i = 0 := by omega
    rw [htap q (hqueue ▸ hq)] at hfd
    obtain rfl := Option.some.inj hfd
    exact Nat.lt_of_lt_of_le (by decide) (Nat.le_add_right 40 q)
  · rw [hudp]
    decide
  · rw [hepoll]
    decide

/-- **A descriptor that is never closed.**  Of a tunnel with one device and two queues,
the second descriptor of the device is not closed. -/
theorem deletesSoundly_fails : ∃ t, Built finiteMapOps t ∧ 1 ≤ t.numQueues ∧
    ∀ garbage, ¬ DeletesSoundly t (tunnelDelete garbage t) := by
  obtain ⟨t, hbuilt, hone, hqueue, htap, -⟩ := exists_built 2 (.inr rfl)
  refine ⟨t, hbuilt, by omega, fun garbage h => ?_⟩
  have hcount := h.tap 0 1 41 (by omega) (by omega) (htap 1 (by omega))
  have hlt := (mem_closeTap (mem_of_count hcount)).1
  omega

end UdpEthTunnel
