/-
# A tunnel whose endpoint map is a finite map

With an endpoint map that acts as a finite map and always succeeds, the map and
the table of devices are inverse to each other whenever no worker is changing them
(`agreement`), and what has been bound stays bound.
-/

import UdpEthTunnel.EndpointMap.Add
import UdpEthTunnel.Tunnel.Agreement
import UdpEthTunnel.Tunnel.Trace

namespace UdpEthTunnel

open Tunnel Runs

/-- An endpoint map that is a finite map and always succeeds. -/
def finiteMapOps : MapOps (Endpoint → Option ℕ) Unit where
  create _ := fun _ => none
  lookup _ m e := .ret ((m e).elim (-1) fun i => i)
  addAssign _ m e id := .ret (some (Function.update m e (some id)))
  add _ m e id := .ret (Function.update m e (some id))

section FiniteMap

variable {s s' : Sys (Endpoint → Option ℕ)} {w : ℕ} {a : Action Unit}

/-- Both directions of the agreement. -/
structure MapInv (s : Sys (Endpoint → Option ℕ)) : Prop where
  agree : AgreeInv (fun _ => True) (fun m => m) s
  back : ∀ (e : Endpoint) (i : ℕ), s.tunnel.map e = some i →
    i < s.tunnel.numTapDevs ∧ s.tunnel.remote i = some e

theorem answers_finiteMapOps : Answers finiteMapOps (fun _ => True) fun m => m := by
  intro env m e i _ h
  injection h with h
  subst h
  cases hm : m e <;> simp [hm]

theorem lookup_finiteMapOps {m : Endpoint → Option ℕ} {e : Endpoint} {i : ℕ} :
    finiteMapOps.lookup () m e = .ret i ↔ m e = some i := by
  show MapCall.ret _ = _ ↔ _
  rw [MapCall.ret.injEq]
  cases m e with
  | none => simp
  | some j => exact Int.ofNat_inj.trans (Option.some_inj (a := j)).symm

/-- What an updated finite map holds. -/
theorem update_eq_some {m : Endpoint → Option ℕ} {e k : Endpoint} {id i : ℕ}
    (h : Function.update m e (some id) k = some i) : (k = e ∧ i = id) ∨ m k = some i := by
  rcases eq_or_ne k e with rfl | hne
  · rw [Function.update_self] at h
    exact .inl ⟨rfl, (Option.some.inj h).symm⟩
  · rw [Function.update_of_ne hne] at h
    exact .inr h

theorem adds_finiteMapOps {m m' : Endpoint → Option ℕ} {e : Endpoint} {id : ℕ} {env : Unit}
    (h : finiteMapOps.add env m e id = .ret m') :
    m' = Function.update m e (some id) ∧ Adds (fun _ => True) (fun m => m) m m' e id := by
  injection h with h
  subst h
  exact ⟨rfl, trivial, Function.update_self .., fun k i hk h => by
    rwa [Function.update_of_ne hk]⟩

/-- The lookups of a step find the same or more after it. -/
theorem MapInv.step (h : MapInv s) (hstep : Step finiteMapOps s (w, a) s') :
    MapInv s' ∧ ∀ e i, s.tunnel.map e = some i → s'.tunnel.map e = some i := by
  have hagree := h.agree.step answers_finiteMapOps hstep
    fun env id d m' _ _ _ hret => (adds_finiteMapOps hret).2
  obtain ⟨-, -, hs⟩ := hstep.stepOf
  rcases hs.tunnel_cases with hsame | ⟨_, _, d, env, rfl, hpc, halloc⟩ |
    ⟨_, _, id, d, env, map, rfl, hpc, hret, ht, -⟩
  · refine ⟨⟨hagree, fun e i he => ?_⟩, fun e i he => by rwa [hsame.map]⟩
    rw [hsame.map] at he
    rw [hsame.numTapDevs, hsame.remote]
    exact h.back e i he
  · obtain ⟨hext, hmap⟩ : Extends s.tunnel s'.tunnel ∧ s'.tunnel.map = s.tunnel.map := by
      rcases halloc with ⟨halloc, -⟩ | ⟨id, halloc, -⟩
      · exact ⟨(allocNewTap_none h.agree.size halloc).1, (allocNewTap_none h.agree.size halloc).2.1⟩
      · exact ⟨(allocNewTap_some h.agree.size halloc).ext,
          (allocNewTap_some h.agree.size halloc).map⟩
    refine ⟨⟨hagree, fun e i he => ?_⟩, fun e i he => by rwa [hmap]⟩
    rw [hmap] at he
    obtain ⟨hi, hr⟩ := h.back e i he
    exact ⟨hi.trans_le hext.numTapDevs, (hext.remote i hi).trans hr⟩
  · have hasserts := h.agree.asserts w
    rw [hpc] at hasserts
    obtain ⟨hid, hremote, hnone⟩ := hasserts
    obtain ⟨rfl, hadds⟩ := adds_finiteMapOps hret
    rw [ht]
    refine ⟨⟨hagree, fun e i he => ?_⟩, fun e i he => hadds.others e i ?_ he⟩
    · rw [ht] at he ⊢
      rcases update_eq_some he with ⟨rfl, rfl⟩ | he
      · exact ⟨by show i < s.tunnel.numTapDevs; omega, hremote⟩
      · exact h.back e i he
    · rintro rfl
      exact Option.some_ne_none i (he.symm.trans hnone)

theorem MapInv.run (h : MapInv s) {tr : List (Event (Sys (Endpoint → Option ℕ)) (ℕ × Action Unit))}
    (hrun : Run (Step finiteMapOps) s tr s') :
    MapInv s' ∧ ∀ e i, s.tunnel.map e = some i → s'.tunnel.map e = some i :=
  hrun.invariant (I := fun u => MapInv u ∧ ∀ e i, s.tunnel.map e = some i → u.tunnel.map e = some i)
    (fun _ _ _ hu hstep => ⟨(hu.1.step hstep).1, fun e i he => (hu.1.step hstep).2 e i (hu.2 e i he)⟩)
    ⟨h, fun _ _ he => he⟩

theorem mapInv_created {env : CreateEnv Unit} {params : TunnelParams}
    (h : tunnelCreate finiteMapOps env params = .created s) : MapInv s := by
  refine ⟨agreeInv_created trivial (fun m e hm => ?_) h, fun e i he => ?_⟩
  · injection hm with hm
    obtain rfl := Option.some.inj hm
    exact ⟨trivial, Function.update_self ..⟩
  · obtain ⟨-, -, t, hbare, ⟨-, -, rfl, -⟩ | ⟨e', hdef⟩⟩ := tunnelCreate_created h
    · rw [hbare.map] at he
      cases he
    · obtain ⟨map, hret, hnew⟩ := hdef.add
      injection hret with hret
      obtain rfl := Option.some.inj hret
      rw [hnew.map] at he
      rcases update_eq_some he with ⟨rfl, rfl⟩ | hnone
      · exact ⟨hnew.numTapDevs ▸ Nat.succ_pos _, hnew.remote⟩
      · rw [hbare.map] at hnone
        cases hnone

/-- **The map and the table of devices agree.**  In every state that the workers of
a tunnel can reach, in any order of their steps and with any results of their
calls: where no thread holds the write lock, the lookup of an endpoint gives a tap
id exactly when the device of that id is its device; no two devices have one remote
endpoint and no two endpoints one tap id; an endpoint that is bound keeps its tap
id, and the device its remote endpoint and its descriptors, in every state reached
from there; and a configured default endpoint has the tap id 0. -/
theorem agreement (env : CreateEnv Unit) (params : TunnelParams)
    (s₀ s : Sys (Endpoint → Option ℕ)) (tr : List (Event (Sys (Endpoint → Option ℕ)) (ℕ × Action Unit)))
    (hcreate : tunnelCreate finiteMapOps env params = .created s₀)
    (hrun : Run (Step finiteMapOps) s₀ tr s) :
    ((∀ w, (s.workers w).lock ≠ .write) → ∀ (e : Endpoint) (i : ℕ),
      finiteMapOps.lookup () s.tunnel.map e = .ret i ↔
        i < s.tunnel.numTapDevs ∧ s.tunnel.remote i = some e) ∧
    (∀ (i j : ℕ) (e : Endpoint), i < s.tunnel.numTapDevs → j < s.tunnel.numTapDevs →
      s.tunnel.remote i = some e → s.tunnel.remote j = some e → i = j) ∧
    (∀ (e e' : Endpoint) (i : ℕ), s.tunnel.map e = some i → s.tunnel.map e' = some i → e = e') ∧
    (∀ tr' s', Run (Step finiteMapOps) s tr' s' → ∀ (e : Endpoint) (i : ℕ),
      s.tunnel.map e = some i → s'.tunnel.map e = some i ∧ s'.tunnel.remote i = some e ∧
        s'.tunnel.tapFd i = s.tunnel.tapFd i) ∧
    ∀ host, params.defaultRemoteHost = some host → ∃ addr, env.lookupHost host = some addr ∧
      s.tunnel.map ⟨addr, params.remotePort⟩ = some 0 := by
  have h := ((mapInv_created hcreate).run hrun).1
  refine ⟨fun hw e i => lookup_finiteMapOps.trans ⟨h.back e i, fun hi => ?_⟩,
    fun i j e => h.agree.remote_injective, fun e e' i he he' => ?_,
    fun tr' s' hrun' e i he => ?_, fun host hhost => ?_⟩
  · exact h.agree.found_of_noWriter hw hi.1 hi.2
  · have hr := (h.back e i he).2
    rw [(h.back e' i he').2] at hr
    exact (Option.some.inj hr).symm
  · obtain ⟨hi, hr⟩ := h.back e i he
    have hext := extends_of_run hrun' h.agree.size
    exact ⟨(h.run hrun').2 e i he, (hext.remote i hi).trans hr, hext.tapFd i hi⟩
  · obtain ⟨-, -, t, -, ⟨hnone, -⟩ | ⟨e, hdef⟩⟩ := tunnelCreate_created hcreate
    · rw [hhost] at hnone
      cases hnone
    · obtain ⟨host', hhost', haddr⟩ := hdef.host
      obtain rfl : host = host' := Option.some.inj (hhost.symm.trans hhost')
      obtain ⟨map, hret, hnew⟩ := hdef.add
      injection hret with hret
      obtain rfl := Option.some.inj hret
      refine ⟨e.addr, haddr, ((mapInv_created hcreate).run hrun).2 _ 0 ?_⟩
      rw [hnew.map, ← hdef.port]
      exact Function.update_self ..

end FiniteMap

/-- The first datagram of a host is delivered through a new device. -/
theorem agreement_firstHost : ∃ s₀ s tr,
    tunnelCreate finiteMapOps (openEnv ()) (openParams 2) = .created s₀ ∧
      Run (Step finiteMapOps) s₀ tr s ∧
      finiteMapOps.lookup () s.tunnel.map (switchHost 2) = .ret (0 : ℕ) ∧
      0 < s.tunnel.numTapDevs ∧ s.tunnel.remote (0 : ℕ) = some (switchHost 2) := by
  have hreplay : ∃ s₀, tunnelCreate finiteMapOps (openEnv ()) (openParams 2) = .created s₀ ∧
      ∃ s, replay finiteMapOps s₀ 0 (wakeActions Unit ++ admitActions () (switchHost 2) (40 + ·) 40 ++
          [.recvfrom none, .rearm true, .unlock]) = some s ∧
        s.tunnel.map (switchHost 2) = some 0 ∧ s.Unlocked :=
    ⟨_, rfl, _, rfl, rfl, by decide⟩
  obtain ⟨s₀, hcreate, s, hexec, hmap, hfree⟩ := hreplay
  obtain ⟨tr, hrun, -⟩ := run_of_exec hexec
  have hlocks := ((mapInv_created hcreate).run hrun).1.agree.locks
  have hnoWriter : ∀ w, (s.workers w).lock ≠ .write := fun w => by
    rw [hlocks.free_of_unlocked hfree]
    decide
  have hagree := (agreement (openEnv ()) (openParams 2) s₀ s tr hcreate hrun).1 hnoWriter
    (switchHost 2) 0
  have hlookup := lookup_finiteMapOps.2 hmap
  exact ⟨s₀, s, tr, hcreate, hrun, hlookup, hagree.1 hlookup⟩

end UdpEthTunnel
