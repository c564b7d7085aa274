/-
# What `tunnel_alloc_new_tap` does to the tunnel

The calls that return leave the devices there were as they were and add at most
one (`Tunnel.Extends`).  A call that returns a tap id has registered a descriptor
with every queue; a call that fails has registered those of the queues before the
one that failed, and released the array that holds them
(`registerTapFds_spec`, `allocNewTap_cases`).
-/

import Mathlib.Data.List.Basic
import Mathlib.Order.Nat
import UdpEthTunnel.Tunnel.Basic

namespace UdpEthTunnel

variable {M : Type} {t t₁ t' : Tunnel M} {env : AllocTapEnv} {epoll epoll' : EpollSets}
  {e : Endpoint} {id : ℕ}

namespace Tunnel

@[simp] theorem dev_natCast (t : Tunnel M) (id : ℕ) : t.dev id = t.tapDevs[id]? := rfl

/-- How many queues the statistics of a device have room for. -/
def statsSize (t : Tunnel M) (id : Int) : Option ℕ :=
  (t.dev id).bind fun d => d.stats.map (·.length)

/-- `t'` has the configuration of `t` and its sockets. -/
structure SameConfig (t t' : Tunnel M) : Prop where
  numQueues : t'.numQueues = t.numQueues
  allowed : t'.allowedAddrList = t.allowedAddrList
  mtu : t'.mtu = t.mtu
  udpFds : t'.udpFds = t.udpFds
  epollFds : t'.epollFds = t.epollFds

theorem SameConfig.rfl : SameConfig t t := ⟨by rfl, by rfl, by rfl, by rfl, by rfl⟩

theorem SameConfig.trans {t'' : Tunnel M} (h : SameConfig t t') (h' : SameConfig t' t'') :
    SameConfig t t'' where
  numQueues := h'.numQueues.trans h.numQueues
  allowed := h'.allowed.trans h.allowed
  mtu := h'.mtu.trans h.mtu
  udpFds := h'.udpFds.trans h.udpFds
  epollFds := h'.epollFds.trans h.epollFds

/-- `t'` is `t` up to statistics and `queue_ids`. -/
structure SameDevs (t t' : Tunnel M) : Prop extends SameConfig t t' where
  map : t'.map = t.map
  numTapDevs : t'.numTapDevs = t.numTapDevs
  size : t'.tapDevs.length = t.tapDevs.length
  remote : t'.remote = t.remote
  tapFd : t'.tapFd = t.tapFd
  statsSize : t'.statsSize = t.statsSize

theorem SameDevs.rfl : SameDevs t t :=
  ⟨SameConfig.rfl, by rfl, by rfl, by rfl, by rfl, by rfl, by rfl⟩

/-- `t'` has the configuration of `t` and its devices, and perhaps more devices. -/
structure Extends (t t' : Tunnel M) : Prop extends SameConfig t t' where
  numTapDevs : t.numTapDevs ≤ t'.numTapDevs
  size : t'.numTapDevs ≤ t'.tapDevs.length
  remote : ∀ id : ℕ, id < t.numTapDevs → t'.remote id = t.remote id
  tapFd : ∀ id : ℕ, id < t.numTapDevs → t'.tapFd id = t.tapFd id
  statsSize : ∀ id : ℕ, id < t.numTapDevs → t'.statsSize id = t.statsSize id

/-- The devices of `t` are in `t'` as they were. -/
theorem extends_of_dev (hc : SameConfig t t') (hn : t.numTapDevs ≤ t'.numTapDevs)
    (hs : t'.numTapDevs ≤ t'.tapDevs.length)
    (hdev : ∀ id : ℕ, id < t.numTapDevs → t'.dev id = t.dev id) : Extends t t' where
  toSameConfig := hc
  numTapDevs := hn
  size := hs
  remote id hid := by unfold Tunnel.remote; rw [hdev id hid]
  tapFd id hid := by funext q; unfold Tunnel.tapFd; rw [hdev id hid]
  statsSize id hid := by unfold Tunnel.statsSize; rw [hdev id hid]

theorem Extends.rfl (h : t.numTapDevs ≤ t.tapDevs.length) : Extends t t :=
  extends_of_dev SameConfig.rfl le_rfl h fun _ _ => by rfl

theorem Extends.trans {t'' : Tunnel M} (h : Extends t t') (h' : Extends t' t'') :
    Extends t t'' where
  toSameConfig := h.toSameConfig.trans h'.toSameConfig
  numTapDevs := h.numTapDevs.trans h'.numTapDevs
  size := h'.size
  remote id hid := (h'.remote id (hid.trans_le h.numTapDevs)).trans (h.remote id hid)
  tapFd id hid := (h'.tapFd id (hid.trans_le h.numTapDevs)).trans (h.tapFd id hid)
  statsSize id hid := (h'.statsSize id (hid.trans_le h.numTapDevs)).trans (h.statsSize id hid)

theorem SameDevs.extends (h : SameDevs t t') (hle : t.numTapDevs ≤ t.tapDevs.length) :
    Extends t t' where
  toSameConfig := h.toSameConfig
  numTapDevs := h.numTapDevs.ge
  size := by rw [h.numTapDevs, h.size]; exact hle
  remote _ _ := by rw [h.remote]
  tapFd _ _ := by rw [h.tapFd]
  statsSize _ _ := by rw [h.statsSize]

theorem dev_setDev (t : Tunnel M) (id : ℕ) (d : TapDev) (i : Int) :
    (t.setDev id d).dev i = if i = id then (t.dev i).map fun _ => d else t.dev i := by
  cases i with
  | negSucc i => rfl
  | ofNat i =>
    change (t.tapDevs.set id d)[i]? = if (i : Int) = id then t.tapDevs[i]?.map _ else t.tapDevs[i]?
    rw [List.getElem?_set']
    by_cases hi : i = id
    · subst hi
      simp only [if_true]
      rfl
    · rw [if_neg (Ne.symm hi), if_neg (by omega)]

/-- Statistics are updated in place. -/
theorem sameDevs_updateStats {i : Int} {q : ℕ} {f : TunnelStats → TunnelStats}
    (h : t.updateStats i q f = some t') : SameDevs t t' := by
  unfold updateStats at h
  simp only [Option.bind_eq_some_iff, Option.map_eq_some_iff] at h
  obtain ⟨d, hd, stats, hstats, x, -, rfl⟩ := h
  obtain ⟨id, rfl⟩ : ∃ id : ℕ, i = id := by
    cases i with
    | ofNat id => exact ⟨id, rfl⟩
    | negSucc id => cases hd
  have hdev : ∀ d' : TapDev, d'.remote = d.remote → d'.tapFds = d.tapFds →
      d'.stats.map (·.length) = d.stats.map (·.length) →
      (t.setDev id d').remote = t.remote ∧ (t.setDev id d').tapFd = t.tapFd ∧
        (t.setDev id d').statsSize = t.statsSize := by
    intro d' hremote hfds hstats
    refine ⟨?_, ?_, ?_⟩
    · funext j
      unfold remote
      rw [dev_setDev]
      split_ifs with hj
      · rw [hj, hd]
        exact congrArg some hremote
      · rfl
    · funext j q'
      unfold tapFd
      rw [dev_setDev]
      split_ifs with hj
      · rw [hj, hd]
        simp [hfds]
      · rfl
    · funext j
      unfold statsSize
      rw [dev_setDev]
      split_ifs with hj
      · rw [hj, hd]
        simp [hstats]
      · rfl
  obtain ⟨hremote, hfds, hsize⟩ := hdev { d with stats := some (stats.set q (f x)) } rfl rfl
    (by simp [hstats])
  exact ⟨⟨rfl, rfl, rfl, rfl, rfl⟩, rfl, rfl, List.length_set, hremote, hfds, hsize⟩

end Tunnel

open Tunnel

/-- The registration of a descriptor of a tap device. -/
def tapRegistration (tapId : ℕ) (fd : Fd) : Registration :=
  { data := { isTap := true, tapId := .ofNat 31 tapId, fd := fd }, armed := true }

/-- **What the registration loop does**: it registers the first `k` descriptors with
their queues, and these are all of them exactly when it succeeds. -/
theorem registerTapFds_spec {fds : List Fd} {i : ℕ} {ok : Bool}
    (h : registerTapFds env id i epoll fds = (epoll', ok)) :
    ∃ k ≤ fds.length, (ok = true ↔ k = fds.length) ∧
      (∀ j < k, env.nonblocking (i + j) = true ∧ env.epollAdd (i + j) = true) ∧
      (k < fds.length → ¬ (env.nonblocking (i + k) = true ∧ env.epollAdd (i + k) = true)) ∧
      ∀ q, epoll' q = epoll q ++
        if i ≤ q then ((fds.take k)[q - i]?.map (tapRegistration id)).toList else [] := by
  induction fds generalizing i epoll with
  | nil =>
    obtain ⟨rfl, rfl⟩ := Prod.mk.inj h
    exact ⟨0, le_rfl, by simp, by simp, by simp, by simp⟩
  | cons fd fds ih =>
    unfold registerTapFds at h
    split_ifs at h with hn ha
    · obtain ⟨rfl, rfl⟩ := Prod.mk.inj h
      exact ⟨0, by simp, by simp, by simp, by simp [hn], by simp⟩
    · obtain ⟨rfl, rfl⟩ := Prod.mk.inj h
      exact ⟨0, by simp, by simp, by simp, by simp [ha], by simp⟩
    · obtain ⟨k, hk, hok, hdone, hstop, hepoll⟩ := ih h
      refine ⟨k + 1, by simpa using hk, by simpa using hok, ?_, ?_, ?_⟩
      · intro j hj
        cases j with
        | zero => exact ⟨by simpa using hn, by simpa using ha⟩
        | succ j =>
          have := hdone j (by omega)
          rwa [show i + 1 + j = i + (j + 1) by omega] at this
      · intro hlt
        have := hstop (by simpa using hlt)
        rwa [show i + 1 + k = i + (k + 1) by omega] at this
      · intro q
        rw [hepoll q]
        rcases lt_trichotomy q i with hq | rfl | hq
        · have hne : q ≠ i := by omega
          simp [hne, show ¬ i + 1 ≤ q by omega, show ¬ i ≤ q by omega]
        · simp [tapRegistration, show ¬ q + 1 ≤ q by omega]
        · have hne : q ≠ i := by omega
          obtain ⟨j, rfl⟩ : ∃ j, q = i + 1 + j := ⟨q - (i + 1), by omega⟩
          have hsub : i + 1 + j - i = j + 1 := by omega
          simp [hne, hsub, show i ≤ i + 1 + j by omega]

theorem lt_newTapDevsSize (n : ℕ) : n < newTapDevsSize n := by
  unfold newTapDevsSize
  split_ifs <;> omega

/-- Room for one more device. -/
theorem growTapDevs_spec (hle : t.numTapDevs ≤ t.tapDevs.length) (h : growTapDevs env t = some t₁) :
    Extends t t₁ ∧ t₁.map = t.map ∧ t₁.numTapDevs = t.numTapDevs ∧
      t₁.numTapDevs < t₁.tapDevs.length := by
  unfold growTapDevs tapDevsAllocated at h
  split_ifs at h with hfull
  · obtain ⟨tail, -, rfl⟩ := Option.map_eq_some_iff.1 h
    have hdev : ∀ id : ℕ, id < t.numTapDevs → ∀ l, (t.tapDevs ++ l)[id]? = t.tapDevs[id]? :=
      fun id hid l => List.getElem?_append_left (by omega)
    refine ⟨extends_of_dev ⟨rfl, rfl, rfl, rfl, rfl⟩ le_rfl ?_ fun id hid => hdev id hid _, rfl, rfl, ?_⟩
    · simp only [List.length_append]
      omega
    · have hsize := lt_newTapDevsSize t.tapDevs.length
      simp only [List.length_append, List.length_map, List.length_range]
      omega
  · obtain rfl := Option.some.inj h
    exact ⟨.rfl hle, rfl, rfl, by omega⟩

/-- **The ways `tunnel_alloc_new_tap` can go** once there is room in the table. -/
theorem allocNewTap_cases (t : Tunnel M) (env : AllocTapEnv) (epoll : EpollSets) (e : Endpoint) :
    (growTapDevs env t = none ∧ tunnelAllocNewTap env t epoll e = .ret none t epoll) ∨
    ∃ t₁, growTapDevs env t = some t₁ ∧
      ((e.port = 0 ∧ tunnelAllocNewTap env t epoll e = .crash .assertRemotePort) ∨
       e.port ≠ 0 ∧
        (tunnelAllocNewTap env t epoll e = .crash .wildAccess ∨
         ∃ fds epoll' ok, (env.createFds = none ∧ epoll' = epoll ∧ ok = false ∨
            env.createFds = some fds ∧ registerTapFds env t₁.numTapDevs 0 epoll
              ((List.range t₁.numQueues).map fds) = (epoll', ok)) ∧
          (ok = false ∧ tunnelAllocNewTap env t epoll e =
            .ret none (t₁.setDev t₁.numTapDevs ⟨e, none, none⟩) epoll' ∨
           ok = true ∧ tunnelAllocNewTap env t epoll e =
            .ret (some t₁.numTapDevs) { t₁.setDev t₁.numTapDevs
              ⟨e, some ((List.range t₁.numQueues).map fds),
                some (List.replicate t₁.numQueues {})⟩ with
              numTapDevs := t₁.numTapDevs + 1 } epoll'))) := by
  unfold tunnelAllocNewTap
  cases hg : growTapDevs env t with
  | none => exact .inl ⟨rfl, rfl⟩
  | some t₁ =>
    refine .inr ⟨t₁, rfl, ?_⟩
    dsimp only
    by_cases hp : e.port = 0
    · exact .inl ⟨hp, if_pos hp⟩
    · refine .inr ⟨hp, ?_⟩
      rw [if_neg hp]
      by_cases hm : env.mallocFds = false
      · exact .inl (if_pos hm)
      · rw [if_neg hm]
        cases hc : env.createFds with
        | none => exact .inr ⟨fun _ => 0, epoll, false, .inl ⟨rfl, rfl, rfl⟩, .inl ⟨rfl, rfl⟩⟩
        | some fds =>
          dsimp only
          rcases hr : registerTapFds env t₁.numTapDevs 0 epoll
            ((List.range t₁.numQueues).map fds) with ⟨epoll', ok⟩
          cases ok with
          | false => exact .inr ⟨fds, epoll', false, .inr ⟨rfl, hr⟩, .inl ⟨rfl, rfl⟩⟩
          | true =>
            dsimp only
            by_cases hs : env.mallocStats = false
            · exact .inl (if_pos hs)
            · rw [if_neg hs]
              exact .inr ⟨fds, epoll', true, .inr ⟨rfl, hr⟩, .inr ⟨rfl, rfl⟩⟩

/-- Writing the slot after the last device leaves the devices alone. -/
theorem extends_setDev (d : TapDev) (hle : t.numTapDevs ≤ t.tapDevs.length) :
    Extends t (t.setDev t.numTapDevs d) := by
  have hdev : ∀ id : ℕ, id < t.numTapDevs → (t.setDev t.numTapDevs d).dev id = t.dev id := by
    intro id hid
    rw [dev_setDev, if_neg (by omega)]
  refine extends_of_dev ⟨rfl, rfl, rfl, rfl, rfl⟩ le_rfl ?_ hdev
  show t.numTapDevs ≤ (t.tapDevs.set _ d).length
  rwa [List.length_set]

/-- **A call that fails** keeps the devices and the map; it has registered the
descriptors of the queues before the one that failed. -/
theorem allocNewTap_none (hle : t.numTapDevs ≤ t.tapDevs.length)
    (h : tunnelAllocNewTap env t epoll e = .ret none t' epoll') :
    Extends t t' ∧ t'.map = t.map ∧ t'.numTapDevs = t.numTapDevs ∧
      (epoll' = epoll ∨ ∃ fds, growTapDevs env t ≠ none ∧ env.createFds = some fds ∧
        registerTapFds env t.numTapDevs 0 epoll ((List.range t.numQueues).map fds) =
          (epoll', false)) := by
  rcases allocNewTap_cases t env epoll e with ⟨-, hret⟩ | ⟨t₁, hg, hcase⟩
  · rw [hret] at h
    injection h with _ ht he
    exact ⟨ht ▸ .rfl hle, ht ▸ rfl, ht ▸ rfl, .inl he.symm⟩
  · obtain ⟨hext, hmap, hnum, hlt⟩ := growTapDevs_spec hle hg
    rcases hcase with ⟨-, hret⟩ | ⟨-, hret | ⟨fds, epoll₁, ok, hreg, ⟨rfl, hret⟩ | ⟨-, hret⟩⟩⟩ <;>
      rw [hret] at h
    · cases h
    · cases h
    · injection h with _ ht he
      subst ht he
      refine ⟨hext.trans (extends_setDev _ hlt.le), hmap, hnum, ?_⟩
      rcases hreg with ⟨-, rfl, -⟩ | ⟨hfds, hreg⟩
      · exact .inl rfl
      · rw [hnum, hext.numQueues] at hreg
        exact .inr ⟨fds, by simp [hg], hfds, hreg⟩
    · injection h with hid
      cases hid

/-- What a call that returns the tap id `id` has done. -/
structure NewTap (t : Tunnel M) (epoll : EpollSets) (e : Endpoint) (id : ℕ) (t' : Tunnel M)
    (epoll' : EpollSets) : Prop where
  id_eq : id = t.numTapDevs
  numTapDevs : t'.numTapDevs = t.numTapDevs + 1
  map : t'.map = t.map
  ext : Extends t t'
  remote : t'.remote id = some e
  port : e.port ≠ 0
  statsSize : t'.statsSize id = some t.numQueues
  fds : ∃ fds : ℕ → Fd, (∀ q < t.numQueues, t'.tapFd id q = some (fds q)) ∧
    ∀ q, epoll' q = epoll q ++ if q < t.numQueues then [tapRegistration id (fds q)] else []

/-- **A call that returns a tap id** has added the device and registered its
descriptors. -/
theorem allocNewTap_some (hle : t.numTapDevs ≤ t.tapDevs.length)
    (h : tunnelAllocNewTap env t epoll e = .ret (some id) t' epoll') :
    NewTap t epoll e id t' epoll' := by
  rcases allocNewTap_cases t env epoll e with ⟨-, hret⟩ | ⟨t₁, hg, hcase⟩
  · rw [hret] at h
    injection h with hid
    cases hid
  · obtain ⟨hext, hmap, hnum, hlt⟩ := growTapDevs_spec hle hg
    rcases hcase with ⟨-, hret⟩ | ⟨hport, hret | ⟨fds, epoll₁, ok, hreg, ⟨rfl, hret⟩ | ⟨rfl, hret⟩⟩⟩ <;>
      rw [hret] at h
    · cases h
    · cases h
    · injection h with hid
      cases hid
    · injection h with hid ht he
      obtain rfl := Option.some.inj hid
      subst ht he
      rcases hreg with ⟨-, -, hok⟩ | ⟨-, hreg⟩
      · cases hok
      have hslot := extends_setDev ⟨e, some ((List.range t₁.numQueues).map fds),
        some (List.replicate t₁.numQueues {})⟩ hlt.le
      have hdev : ∀ d, (t₁.setDev t₁.numTapDevs d).dev t₁.numTapDevs = some d := by
        intro d
        rw [dev_setDev, if_pos rfl, dev_natCast, List.getElem?_eq_getElem hlt]
        rfl
      refine ⟨hnum, by rw [← hnum], hmap, hext.trans ⟨⟨rfl, rfl, rfl, rfl, rfl⟩, Nat.le_succ _, ?_,
        hslot.remote, hslot.tapFd, hslot.statsSize⟩, ?_, hport, ?_, fds, ?_, ?_⟩
      · show t₁.numTapDevs + 1 ≤ (t₁.tapDevs.set _ _).length
        rw [List.length_set]
        exact hlt
      · exact congrArg (Option.map _) (hdev _)
      · show ((t₁.setDev t₁.numTapDevs _).dev t₁.numTapDevs).bind _ = _
        rw [hdev, hext.numQueues.symm]
        simp
      · intro q hq
        rw [← hext.numQueues] at hq
        show ((t₁.setDev t₁.numTapDevs _).dev t₁.numTapDevs).bind _ = _
        rw [hdev]
        simp [hq]
      · intro q
        obtain ⟨k, -, hok, -, -, hepoll⟩ := registerTapFds_spec hreg
        obtain rfl := hok.1 rfl
        rw [hepoll q, hext.numQueues, if_pos (Nat.zero_le q), List.take_length]
        by_cases hq : q < t.numQueues
        · simp [hq]
        · simp [hq]

/-- **A call that aborts the process** on its assertion was made with port 0. -/
theorem port_of_allocNewTap_crash (h : tunnelAllocNewTap env t epoll e = .crash .assertRemotePort) :
    e.port = 0 := by
  rcases allocNewTap_cases t env epoll e with ⟨-, hret⟩ | ⟨t₁, -, ⟨hport, -⟩ |
    ⟨-, hret | ⟨_, _, _, -, ⟨-, hret⟩ | ⟨-, hret⟩⟩⟩⟩
  · rw [hret] at h
    cases h
  · exact hport
  all_goals
    rw [hret] at h
    cases h

end UdpEthTunnel
