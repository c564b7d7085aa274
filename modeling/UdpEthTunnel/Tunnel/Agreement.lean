/-
# The map and the table of devices agree

What a worker may assume about the shared tables where it stands (`Asserts`), as
long as the map answers with what it was told: an endpoint it is about to allocate
for is unknown, and one it is about to write for has the tap id it holds.  Other
workers cannot falsify this, because they change the tables only under the write
lock.  From it every device is found in the map under its own id
(`AgreeInv.found`), a worker that stands between the two tables excepted.
-/

import UdpEthTunnel.Lib.Runs
import UdpEthTunnel.Tunnel.Create

namespace UdpEthTunnel

open Tunnel Runs

section Invariant

variable {M E : Type}

/-- The map stands for the finite map `look` and answers with it. -/
def Answers (ops : MapOps M E) (Good : M → Prop) (look : M → Endpoint → Option ℕ) : Prop :=
  ∀ env m e i, Good m → ops.lookup env m e = .ret i →
    look m e = if 0 ≤ i then some i.toNat else none

/-- `m'` has the entries of `m` and the new one. -/
structure Adds (Good : M → Prop) (look : M → Endpoint → Option ℕ) (m m' : M) (e : Endpoint)
    (id : ℕ) : Prop where
  good : Good m'
  self : look m' e = some id
  others : ∀ k i, k ≠ e → look m k = some i → look m' k = some i

/-- What a worker may assume where it stands. -/
def Asserts (look : M → Endpoint → Option ℕ) (t : Tunnel M) : Pc → Prop
  | .handle _ _ p =>
    match p with
    | .alloc d => look t.map d.src = none
    | .add id d => id + 1 = t.numTapDevs ∧ t.remote id = some d.src ∧ look t.map d.src = none
    | .unlockHit id d | .rdlock id d | .write id d => 0 ≤ id ∧ look t.map d.src = some id.toNat
    | _ => True
  | _ => True

/-- The invariant of the two tables. -/
structure AgreeInv (Good : M → Prop) (look : M → Endpoint → Option ℕ) (s : Sys M) : Prop where
  locks : LockInv s
  size : s.tunnel.numTapDevs ≤ s.tunnel.tapDevs.length
  good : Good s.tunnel.map
  asserts : ∀ w, Asserts look s.tunnel (s.workers w).pc
  found : ∀ (i : ℕ) (e : Endpoint), i < s.tunnel.numTapDevs → s.tunnel.remote i = some e →
    look s.tunnel.map e = some i ∨
      ∃ w tev rest d, (s.workers w).pc = .handle tev rest (.add i d)

variable {ops : MapOps M E} {Good : M → Prop} {look : M → Endpoint → Option ℕ} {s s' : Sys M}
  {w : ℕ} {a : Action E} {t t' : Tunnel M} {pc : Pc}

theorem Asserts.congr (h : Asserts look t pc) (hd : SameDevs t t') : Asserts look t' pc := by
  unfold Asserts at h ⊢
  rwa [hd.map, hd.numTapDevs, hd.remote]

/-- A worker without the lock assumes nothing that a new entry falsifies. -/
theorem Asserts.stable (h : Asserts look t pc) (hfree : pc.Holds .free)
    (hmono : ∀ k i, look t.map k = some i → look t'.map k = some i) : Asserts look t' pc := by
  cases pc with
  | handle tev rest p =>
    cases p with
    | rdlock id d => exact ⟨h.1, hmono _ _ h.2⟩
    | alloc d => cases hfree
    | add id d => cases hfree
    | unlockHit id d => cases hfree
    | write id d => exact absurd rfl hfree
    | _ => trivial
  | _ => trivial

/-- What a worker assumes after its own step. -/
theorem AgreeInv.asserts_self (ha : Answers ops Good look) (h : AgreeInv Good look s)
    (hs : StepOf ops s w a s')
    (hadd : ∀ env id d m', a = .mapAdd env → (s.workers w).pc.point = some (.add id d) →
      look s.tunnel.map d.src = none → ops.add env s.tunnel.map d.src id = .ret m' →
      Adds Good look s.tunnel.map m' d.src id) :
    Asserts look s'.tunnel (s'.workers w).pc := by
  have hself := h.asserts w
  have haccount : ∀ {id f tev rest p}, (p = .tapRead ∨ p = .recv) →
      Asserts look (s.account w id f (.handle tev rest p)).tunnel
        ((s.account w id f (.handle tev rest p)).workers w).pc := by
    intro id f tev rest p hp
    rcases s.account_cases w id f (.handle tev rest p) with he | ⟨t, -, he⟩ <;> rw [he]
    · exact hself
    · rw [Sys.pc_goto]
      rcases hp with rfl | rfl <;> trivial
  cases hs with
  | sendto => exact haccount (.inl rfl)
  | write => exact haccount (.inr rfl)
  | dieInMap | dieInAlloc => exact hself
  | start => simp [Sys.workers_setWorker, Asserts]
  | epollFail | epollWait | rearmFail | allocFail => rw [Sys.pc_goto]; trivial
  | scopeEnd | unlockMiss | wrlock => rw [Sys.pc_lockGoto]; trivial
  | rdlockBatch batch =>
    rw [Sys.pc_lockGoto]
    rcases nextEvent_cases batch with hn | ⟨tev, rest, -, ⟨-, hn⟩ | ⟨-, hn⟩⟩ <;> rw [hn] <;> trivial
  | rearm tev rest =>
    rw [Sys.pc_goto]
    rcases nextEvent_cases rest with hn | ⟨tev, rest, -, ⟨-, hn⟩ | ⟨-, hn⟩⟩ <;> rw [hn] <;> trivial
  | read tev rest fd r =>
    rw [Sys.pc_goto]
    cases r <;> trivial
  | recvfrom tev rest r =>
    rw [Sys.pc_goto]
    rcases afterRecv_cases s.tunnel.mtu r with ⟨-, hr⟩ | ⟨d, -, ⟨-, hr⟩ | ⟨-, hr⟩⟩ <;> rw [hr] <;>
      trivial
  | lookup tev rest d env tapId hpc hlookup =>
    rw [Sys.pc_goto]
    rcases afterLookup_cases (s.tunnel.allows d.src.addr) tapId d with
      ⟨h₀, hr⟩ | ⟨-, ⟨-, hr⟩ | ⟨-, hr⟩⟩ <;> rw [hr]
    · exact ⟨h₀, (ha _ _ _ _ h.good hlookup).trans (if_pos h₀)⟩
    · trivial
    · trivial
  | relookup tev rest d env tapId hpc hlookup =>
    rw [Sys.pc_goto]
    rcases afterRelookup_cases tapId d with ⟨h₀, hr⟩ | ⟨h₀, hr⟩ <;> rw [hr]
    · exact ⟨h₀, (ha _ _ _ _ h.good hlookup).trans (if_pos h₀)⟩
    · exact (ha _ _ _ _ h.good hlookup).trans (if_neg (by omega))
  | unlockHit tev rest id d hpc =>
    rw [Sys.pc_lockGoto]
    rw [hpc] at hself
    exact hself
  | rdlockHit tev rest id d hpc =>
    rw [Sys.pc_lockGoto]
    rw [hpc] at hself
    exact hself
  | alloc tev rest d env id t epoll hpc halloc =>
    rw [Sys.pc_goto]
    rw [hpc] at hself
    have hnew := allocNewTap_some h.size halloc
    refine ⟨?_, hnew.remote, ?_⟩
    · show id + 1 = t.numTapDevs
      rw [hnew.id_eq, hnew.numTapDevs]
    · show look t.map d.src = none
      rw [hnew.map]
      exact hself
  | add tev rest id d env map hpc hret =>
    rw [Sys.pc_goto]
    rw [hpc] at hself
    have hnew := hadd env id d map rfl (by rw [hpc]; rfl) hself.2.2 hret
    exact ⟨by omega, hnew.self⟩

/-- **Every step keeps the invariant**, if the entries it adds are added. -/
theorem AgreeInv.step (ha : Answers ops Good look) (h : AgreeInv Good look s)
    (hstep : Step ops s (w, a) s')
    (hadd : ∀ env id d m', a = .mapAdd env → (s.workers w).pc.point = some (.add id d) →
      look s.tunnel.map d.src = none → ops.add env s.tunnel.map d.src id = .ret m' →
      Adds Good look s.tunnel.map m' d.src id) :
    AgreeInv Good look s' := by
  obtain ⟨-, hw, hs⟩ := hstep.stepOf
  have hlocks := h.locks.step h.size hstep
  have hself := h.asserts_self ha hs hadd
  -- the other workers do not hold the lock while this one holds it for writing
  have hfree : (s.workers w).lock = .write → ∀ v, v ≠ w → (s.workers v).pc.Holds .free :=
    fun hl v hv => h.locks.excl w v hv.symm hl ▸ h.locks.holds v
  have hasserts : (∀ v, v ≠ w → Asserts look s'.tunnel (s.workers v).pc) →
      ∀ v, Asserts look s'.tunnel (s'.workers v).pc := by
    intro hv v
    rcases eq_or_ne v w with rfl | hvw
    · exact hself
    · rw [hs.workers_ne hvw]
      exact hv v hvw
  rcases hs.tunnel_cases with hsame | ⟨tev, rest, d, env, rfl, hpc, halloc⟩ |
    ⟨tev, rest, id, d, env, map, rfl, hpc, hret, ht, hpc'⟩
  · refine ⟨hlocks, by rw [hsame.numTapDevs, hsame.size]; exact h.size, hsame.map ▸ h.good,
      hasserts fun v _ => (h.asserts v).congr hsame, fun i e hi hr => ?_⟩
    rw [hsame.numTapDevs] at hi
    rw [hsame.remote] at hr
    rw [hsame.map]
    refine (h.found i e hi hr).imp_right ?_
    rintro ⟨v, tev, rest, d, hv⟩
    rcases eq_or_ne v w with rfl | hvw
    · rcases hs.of_add hv with ⟨env, map, rfl, hret, rfl⟩ | ⟨c, rfl⟩
      · have hv' := h.asserts v
        rw [hv] at hv'
        have hnew := (hadd env i d map rfl (by rw [hv]; rfl) hv'.2.2 hret).self
        have hmap : map = s.tunnel.map := hsame.map
        rw [hmap, hv'.2.2] at hnew
        cases hnew
      · exact ⟨v, tev, rest, d, hv⟩
    · exact ⟨v, tev, rest, d, by rwa [hs.workers_ne hvw]⟩
  · have hl : (s.workers w).lock = .write := h.locks.write_of_point hpc trivial
    have hne : ∀ v tev rest id d, (s.workers v).pc = .handle tev rest (.add id d) → v ≠ w := by
      rintro v tev rest id d hv rfl
      rw [hpc] at hv
      cases hv
    rcases halloc with ⟨halloc, -⟩ | ⟨id, halloc, hpc'⟩
    · obtain ⟨hext, hmap, hnum, -⟩ := allocNewTap_none h.size halloc
      refine ⟨hlocks, hext.size, hmap ▸ h.good, hasserts fun v hv =>
        (h.asserts v).stable (hfree hl v hv) fun k i hk => hmap ▸ hk, fun i e hi hr => ?_⟩
      rw [hnum] at hi
      rw [hext.remote i hi] at hr
      rw [hmap]
      refine (h.found i e hi hr).imp_right ?_
      rintro ⟨v, tev, rest, d, hv⟩
      exact ⟨v, tev, rest, d, by rwa [hs.workers_ne (hne v _ _ _ _ hv)]⟩
    · have hnew := allocNewTap_some h.size halloc
      refine ⟨hlocks, hnew.ext.size, hnew.map ▸ h.good, hasserts fun v hv =>
        (h.asserts v).stable (hfree hl v hv) fun k i hk => hnew.map ▸ hk, fun i e hi hr => ?_⟩
      rcases Nat.lt_or_ge i s.tunnel.numTapDevs with hlt | hge
      · rw [hnew.ext.remote i hlt] at hr
        rw [hnew.map]
        refine (h.found i e hlt hr).imp_right ?_
        rintro ⟨v, tev, rest, d, hv⟩
        exact ⟨v, tev, rest, d, by rwa [hs.workers_ne (hne v _ _ _ _ hv)]⟩
      · have hid : i = id := by
          rw [hnew.numTapDevs] at hi
          rw [hnew.id_eq]
          omega
        exact .inr ⟨w, tev, rest, d, hid ▸ hpc'⟩
  · have hl : (s.workers w).lock = .write := h.locks.write_of_point hpc trivial
    have hw' := h.asserts w
    rw [hpc] at hw'
    obtain ⟨hid, hremote, hnone⟩ := hw'
    have hnew := hadd env id d map rfl (by rw [hpc]; rfl) hnone hret
    have hmono : ∀ k i, look s.tunnel.map k = some i → look s'.tunnel.map k = some i := by
      intro k i hk
      rw [ht]
      refine hnew.others k i ?_ hk
      rintro rfl
      rw [hnone] at hk
      cases hk
    refine ⟨hlocks, by rw [ht]; exact h.size, by rw [ht]; exact hnew.good, hasserts fun v hv =>
      (h.asserts v).stable (hfree hl v hv) hmono, fun i e hi hr => .inl ?_⟩
    have hi' : i < s.tunnel.numTapDevs := by rw [ht] at hi; exact hi
    have hr' : s.tunnel.remote i = some e := by rw [ht] at hr; exact hr
    rcases h.found i e hi' hr' with hk | ⟨v, tev', rest', d', hv⟩
    · exact hmono e i hk
    · obtain rfl : v = w := h.locks.eq_of_write (h.locks.write_of_point hv trivial) hl
      rw [hpc] at hv
      cases hv
      rw [hremote] at hr'
      cases hr'
      rw [ht]
      exact hnew.self

/-- A tunnel starts with the tables in agreement. -/
theorem agreeInv_created {env : CreateEnv E} {params : TunnelParams}
    (hgood : Good (ops.create env.mapCreate))
    (hadd : ∀ m e, ops.addAssign env.mapAdd (ops.create env.mapCreate) e 0 = .ret (some m) →
      Good m ∧ look m e = some 0)
    (h : tunnelCreate ops env params = .created s) : AgreeInv Good look s := by
  obtain ⟨hworkers, -, t, hbare, hcase⟩ := tunnelCreate_created h
  have hlocks : LockInv s := by
    refine ⟨fun v w _ hv => ?_, fun w => ?_, fun w _ => hworkers w⟩
    · rw [hworkers] at hv
      cases hv
    · rw [hworkers]
      rfl
  have hasserts : ∀ w, Asserts look s.tunnel (s.workers w).pc := fun w => by
    rw [hworkers]
    trivial
  rcases hcase with ⟨-, -, rfl, -⟩ | ⟨e, hdef⟩
  · refine ⟨hlocks, by rw [hbare.numTapDevs]; exact Nat.zero_le _, by rw [hbare.map]; exact hgood,
      hasserts, fun i e hi => ?_⟩
    rw [hbare.numTapDevs] at hi
    omega
  · obtain ⟨map, hret, hnew⟩ := hdef.add
    rw [hbare.map] at hret
    obtain ⟨hmap, hlook⟩ := hadd map e hret
    refine ⟨hlocks, hnew.ext.size, by rw [hnew.map]; exact hmap, hasserts, fun i e' hi hr => ?_⟩
    have hnum : s.tunnel.numTapDevs = 0 + 1 := hnew.numTapDevs.trans (by rw [hbare.numTapDevs])
    obtain rfl : i = 0 := by omega
    rw [hnew.remote] at hr
    cases hr
    rw [hnew.map]
    exact .inl hlook

/-- **No two devices have one remote endpoint.** -/
theorem AgreeInv.remote_injective (h : AgreeInv Good look s) {i j : ℕ} {e : Endpoint}
    (hi : i < s.tunnel.numTapDevs) (hj : j < s.tunnel.numTapDevs)
    (hri : s.tunnel.remote i = some e) (hrj : s.tunnel.remote j = some e) : i = j := by
  have hpending : ∀ {i j : ℕ}, (∃ w tev rest d, (s.workers w).pc = .handle tev rest (.add i d)) →
      s.tunnel.remote i = some e → look s.tunnel.map e ≠ some j := by
    rintro i j ⟨w, tev, rest, d, hpc⟩ hr hlook
    have hw := h.asserts w
    rw [hpc] at hw
    obtain ⟨-, hremote, hnone⟩ := hw
    rw [hremote] at hr
    cases hr
    rw [hnone] at hlook
    cases hlook
  rcases h.found i e hi hri with hi' | hi' <;> rcases h.found j e hj hrj with hj' | hj'
  · rw [hi'] at hj'
    exact Option.some.inj hj'
  · exact absurd hi' (hpending hj' hrj)
  · exact absurd hj' (hpending hi' hri)
  · obtain ⟨v, _, _, _, hv⟩ := hi'
    obtain ⟨w, _, _, _, hw⟩ := hj'
    obtain rfl : v = w := h.locks.eq_of_write (h.locks.write_of_point hv trivial)
      (h.locks.write_of_point hw trivial)
    rw [hv] at hw
    injection hw with _ _ hp
    injection hp

/-- Without a writer, every device is found. -/
theorem AgreeInv.found_of_noWriter (h : AgreeInv Good look s)
    (hw : ∀ w, (s.workers w).lock ≠ .write) {i : ℕ} {e : Endpoint}
    (hi : i < s.tunnel.numTapDevs) (hr : s.tunnel.remote i = some e) :
    look s.tunnel.map e = some i := by
  rcases h.found i e hi hr with hk | ⟨w, _, _, _, hpc⟩
  · exact hk
  · exact absurd (h.locks.write_of_point hpc trivial) (hw w)

end Invariant

end UdpEthTunnel
