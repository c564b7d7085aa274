/-
# The program

From the text of the configuration to what every tunnel sends and writes.  `main` has a tunnel
created for each section of the configuration (`Outside.started`).  The workers of a tunnel run
from then on, while `main` reads the next sections, and no tunnel shares anything with another
(`Outside.Runs`).

A section says who its tunnel may talk to (`Section.Permits`): the default endpoint, and who the
items of its allow list match.  A tunnel sends to nobody else, whatever its map does
(`sends_as_configured`); and what it writes to a device comes from nobody else, as long as its
table grows in place by memory that shows no stranger (`writes_as_configured`).
-/

import UdpEthTunnel.Config.AllowedUnion
import UdpEthTunnel.Config.Reading
import UdpEthTunnel.Config.Startup
import UdpEthTunnel.Lib.Family
import UdpEthTunnel.Tunnel.Peers

namespace UdpEthTunnel

open Tunnel Runs

/-- **Who a section is configured to talk to.** -/
def Section.Permits (lookup : CStr → Option IpAddr) (pton : Pton) (sec : Section) (e : Endpoint) : Prop :=
  (∃ v addr, lastValue "default_endpoint".toList sec.pairs = some v ∧ lookup (endpointHost v) = some addr ∧
    e = ⟨addr, htons (.ofInt 16 (endpointPort v))⟩) ∨
  ∃ v, lastValue "allowed_remote_hosts".toList sec.pairs = some v ∧ e.addr ∈ unionOf pton v

/-- **The allow list of a section is read without undefined behaviour**: there is memory for
the copy of its text, each item fits its own copy, and none has the prefix length 0. -/
def Section.ListDefined (env : CidrListEnv) (sec : Section) : Prop :=
  ∀ v ∈ lastValue "allowed_remote_hosts".toList sec.pairs, env.strdup = true ∧
    ∀ t ∈ items v, ¬ TooLong t ∧ prefixLenOf t ≠ some 0

/-- What the world outside does while `main` starts up. -/
structure Outside (E : Type) where
  /-- `sysconf(_SC_NPROCESSORS_ONLN)` -/
  nprocs : Int
  /-- `realloc`, for each call of `tunnel_list_add` -/
  realloc : ℕ → Bool
  /-- how each call of `tunnel_delete` ends -/
  deletes : ℕ → DeleteEnd
  /-- during each call of `tunnel_create`, but for `cidrList` -/
  envs : ℕ → CreateEnv E
  /-- during each call of `ip_addr_cidr_list_create_from_str` -/
  lists : ℕ → CidrListEnv
  /-- what such a call has returned after undefined behaviour, other than a bad shift -/
  undefinedList : ℕ → CStr → Option IpAddrCidrList
  pton : Pton

namespace Outside

variable {M E : Type} (o : Outside E) (ops : MapOps M E) (text : CStr)

/-- The world outside during the `k`-th call of `tunnel_create`, with its own parser of allow
lists. -/
def createEnv (k : ℕ) : CreateEnv E :=
  { o.envs k with
    cidrList := fun hosts =>
      (ipAddrCidrListCreateFromStr (o.lists k) o.pton hosts).ret (o.undefinedList k hosts) }

/-- The calls of `tunnel_create`. -/
def create (k : ℕ) (params : TunnelParams) : CreateOutcome (Sys M) :=
  tunnelCreate ops (o.createEnv k) params

/-- The tunnels that `main` starts, in order. -/
def started : List (Sys M) :=
  createdTunnels (o.create ops)
    (mainStart (o.create ops) o.realloc o.deletes o.nprocs text).state.calls

/-- **A run of the program**: tunnels are created and workers of those that are there take
steps, in any order. -/
def Runs (tr : List (Event (List (Sys M)) (Family.Act (ℕ × Action E)))) (ss : List (Sys M)) : Prop :=
  Run (Family.Step (Step ops) (o.started ops text)) [] tr ss

end Outside

section Sections

variable {M E : Type} {ops : MapOps M E} {o : Outside E} {text : CStr} {sec : Section} {n : Int} {k : ℕ}
  {s₀ : Sys M} {e : Endpoint}

/-- The default endpoint is that of the section. -/
theorem defaultEndpoint_eq_some_iff :
    defaultEndpoint (o.createEnv k) (sec.params n) = some e ↔
      ∃ v addr, lastValue "default_endpoint".toList sec.pairs = some v ∧
        (o.envs k).lookupHost (endpointHost v) = some addr ∧
          e = ⟨addr, htons (.ofInt 16 (endpointPort v))⟩ := by
  have hhost : (sec.params n).defaultRemoteHost =
      (lastValue "default_endpoint".toList sec.pairs).map endpointHost := rfl
  have hport : (sec.params n).remotePort =
      htons (.ofInt 16 (((lastValue "default_endpoint".toList sec.pairs).map endpointPort).getD 0)) := rfl
  have hlookup : (o.createEnv k).lookupHost = (o.envs k).lookupHost := rfl
  unfold defaultEndpoint
  rw [hhost, hport, hlookup]
  generalize lastValue "default_endpoint".toList sec.pairs = value
  constructor
  · intro h
    obtain ⟨host, hsome, hrest⟩ := Option.bind_eq_some_iff.1 h
    obtain ⟨v, rfl, rfl⟩ := Option.map_eq_some_iff.1 hsome
    obtain ⟨addr, haddr, rfl⟩ := Option.map_eq_some_iff.1 hrest
    exact ⟨v, addr, rfl, haddr, rfl⟩
  · rintro ⟨v, addr, rfl, haddr, rfl⟩
    rw [Option.map_some, Option.bind_some, haddr, Option.map_some]
    rfl

/-- The allow list is that of the section, if it is read without undefined behaviour. -/
theorem allows_iff (h : tunnelCreate ops (o.createEnv k) (sec.params n) = .created s₀)
    (hlist : sec.ListDefined (o.lists k)) (a : IpAddr) :
    s₀.tunnel.allows a = true ↔
      ∃ v, lastValue "allowed_remote_hosts".toList sec.pairs = some v ∧ a ∈ unionOf o.pton v := by
  obtain ⟨-, -, t, hbare, hcase⟩ := tunnelCreate_created h
  have hsame : s₀.tunnel.allowedAddrList = t.allowedAddrList := by
    rcases hcase with ⟨-, -, rfl, -⟩ | ⟨e, hdef⟩
    · rfl
    · obtain ⟨map, -, hnew⟩ := hdef.add
      exact hnew.ext.allowed
  have hhosts : (sec.params n).allowedRemoteHosts =
      lastValue "allowed_remote_hosts".toList sec.pairs := rfl
  have hallowed := hbare.allowed
  rw [hhosts] at hallowed
  unfold allows
  rw [hsame]
  unfold Section.ListDefined at hlist
  generalize lastValue "allowed_remote_hosts".toList sec.pairs = value at hallowed hlist ⊢
  cases value with
  | none =>
    rw [show t.allowedAddrList = none from hallowed]
    exact iff_of_false nofun fun ⟨_, hv, _⟩ => nomatch hv
  | some v =>
    obtain ⟨hret, hne⟩ := hallowed
    obtain ⟨hstrdup, hitems⟩ := hlist v rfl
    rcases createFromStr_of_defined o.pton hstrdup hitems with hnull | ⟨l, hcall⟩
    · refine absurd (hret.trans ?_) hne
      show CidrListOutcome.ret _ _ = _
      rw [hnull]
      rfl
    · have hl : t.allowedAddrList = some l := by
        rw [hret]
        show CidrListOutcome.ret _ _ = _
        rw [hcall]
        rfl
      rw [hl]
      refine (listMatch_eq_true_iff_mem hcall a).trans ⟨fun ha => ⟨v, rfl, ha⟩, ?_⟩
      rintro ⟨v', hv, ha⟩
      exact Option.some.inj hv ▸ ha

/-- **A tunnel admits who its section permits.** -/
theorem admitted_iff_permits (h : tunnelCreate ops (o.createEnv k) (sec.params n) = .created s₀)
    (hlist : sec.ListDefined (o.lists k)) :
    Admitted s₀.tunnel (defaultEndpoint (o.createEnv k) (sec.params n)) e ↔
      sec.Permits (o.envs k).lookupHost o.pton e := by
  unfold Admitted Section.Permits
  rw [defaultEndpoint_eq_some_iff, allows_iff h hlist]

/-- **Each tunnel is that of its section.** -/
theorem section_of_started (h : (o.started ops text)[k]? = some s₀) :
    ∃ sec, (readConfig text).tunnels[k]? = some sec ∧
      tunnelCreate ops (o.createEnv k) (sec.params o.nprocs) = .created s₀ := by
  obtain ⟨hcalls, hbefore⟩ := calls_mainStart (o.create ops) o.realloc o.deletes o.nprocs text
  obtain ⟨hfront, -⟩ := calls_isPrefix (o.create ops) (listAdds o.realloc) o.nprocs text
  rw [← hcalls] at hfront
  unfold Outside.started at h
  rw [getElem?_createdTunnels hbefore] at h
  obtain ⟨params, hparams, hcreated⟩ := Option.bind_eq_some_iff.1 h
  obtain ⟨sec, hsec, rfl⟩ : ∃ sec, (readConfig text).tunnels[k]? = some sec ∧
      sec.params o.nprocs = params := by
    obtain ⟨rest, hrest⟩ := hfront
    have hget : ((readConfig text).tunnels.map (Section.params o.nprocs))[k]? = some params := by
      rw [← hrest, List.getElem?_append_left (List.getElem?_eq_some_iff.1 hparams).1, hparams]
    rwa [List.getElem?_map, Option.map_eq_some_iff] at hget
  refine ⟨sec, hsec, ?_⟩
  unfold Outside.create at hcreated
  cases hcall : tunnelCreate ops (o.createEnv k) (sec.params o.nprocs) with
  | created s =>
    rw [hcall] at hcreated
    rw [Option.some.inj hcreated]
  | _ =>
    rw [hcall] at hcreated
    cases hcreated

end Sections

/-! ### A program to try things on -/

/-- Everything succeeds, and every name is that of the host 10.10.10.1. -/
def plainOutside {E : Type} (env : E) : Outside E :=
  { nprocs := 1, realloc := fun _ => true, deletes := fun _ => .returns,
    envs := fun _ => openEnv env, lists := fun _ => plentyEnv,
    undefinedList := fun _ _ => none, pton := fun _ => none }

/-- A tunnel to the port 1 of a host. -/
def plainText : CStr := "bind_iface=eth0\ndefault_endpoint=hub:1\n".toList

def plainParams : TunnelParams :=
  { defaultRemoteHost := some "hub".toList, defaultRemotePort := 1, bindIface := some "eth0".toList,
    tunnelName := some "default".toList }

/-- The only section has no allow list. -/
theorem listDefined_plainText (env : CidrListEnv) :
    ∀ sec ∈ (readConfig plainText).tunnels[0]?, sec.ListDefined env := by
  intro sec hsec
  have hnone : (readConfig plainText).tunnels[0]?.any fun sec =>
      (lastValue "allowed_remote_hosts".toList sec.pairs).isNone := by decide +kernel
  rw [Option.mem_def.1 hsec, Option.any_some, Option.isNone_iff_eq_none] at hnone
  intro v hv
  rw [hnone] at hv
  cases hv

/-- A datagram of the host arrives, and is looked up. -/
def hubActions : List (Action HeapEnv) :=
  [.start, .epollWait (some [(udpRegistration 10).data]), .rdlock,
    .recvfrom (some ⟨true, ⟨.v4Mapped 10 10 10 1, htons 1⟩, [9]⟩), .lookup (heapEnv .failed)]

theorem started_single {M E : Type} {ops : MapOps M E} {o : Outside E} {text : CStr}
    {params : TunnelParams} {s₀ : Sys M}
    (hcalls : (mainStart (o.create ops) o.realloc o.deletes o.nprocs text).state.calls = [params])
    (hcreate : tunnelCreate ops (o.createEnv 0) params = .created s₀) :
    o.started ops text = [s₀] := by
  have hcreate' : o.create ops 0 params = .created s₀ := hcreate
  unfold Outside.started createdTunnels
  rw [hcalls, List.mapIdx_singleton, hcreate']
  rfl

/-- **What a worker of the only tunnel does** is a run of the program. -/
theorem runs_of_replay {M E : Type} {ops : MapOps M E} {o : Outside E} {text : CStr}
    {params : TunnelParams} {s₀ s : Sys M} {acts : List (Action E)}
    (hcalls : (mainStart (o.create ops) o.realloc o.deletes o.nprocs text).state.calls = [params])
    (hcreate : tunnelCreate ops (o.createEnv 0) params = .created s₀)
    (hreplay : replay ops s₀ 0 acts = some s) :
    ∃ tr, o.Runs ops text tr [s] ∧
      tr.map (·.act) = .start :: acts.map fun a => .within 0 (0, a) := by
  have hfirst : (o.started ops text)[0]? = some s₀ := by
    rw [started_single hcalls hcreate]
    rfl
  obtain ⟨tr, hrun, hacts⟩ := run_of_exec hreplay
  obtain ⟨tr', hrun', -, hacts'⟩ := Family.run_alone hfirst hrun
  refine ⟨tr', hrun', hacts'.trans ?_⟩
  have hmap : tr.map (fun e => Family.Act.within 0 e.act) = (tr.map (·.act)).map (.within 0) := by
    rw [List.map_map]
    rfl
  rw [hmap, hacts, List.map_map]
  rfl

/-- **What leaves the machine**, for every configuration, any map, and in every interleaving of
all workers of all tunnels with each other and with the reading of the configuration.  A worker
of the `k`-th tunnel sends the frame that it last read from a device of that tunnel, cut to its
buffer; and it sends it to the default endpoint of the `k`-th section that a tunnel is created
for, or to an address that an item of its allow list matches, unless the process dies of the
call.  What a list is of which the parser has run into undefined behaviour, nobody knows; the
list of the section must be another one. -/
theorem sends_as_configured {M E : Type} (ops : MapOps M E) (o : Outside E) (text : CStr)
    (tr tr' : List (Event (List (Sys M)) (Family.Act (ℕ × Action E)))) (us vs ss : List (Sys M))
    (k w : ℕ) (frame : Bytes) (dst : Endpoint) (r : Option ℕ) (now : Int)
    (hrun : o.Runs ops text (tr ++ ⟨us, .within k (w, .sendto frame dst r now), vs⟩ :: tr') ss)
    (hlist : ∀ sec ∈ (readConfig text).tunnels[k]?, sec.ListDefined (o.lists k)) :
    ∃ sec, (readConfig text).tunnels[k]? = some sec ∧
      (∃ id bytes, (reads w (Family.component k tr)).getLast? = some (id, bytes) ∧ frame <+: bytes) ∧
      ((∀ s ∈ vs[k]?, s.crash = none) → sec.Permits (o.envs k).lookupHost o.pton dst) := by
  obtain ⟨s₀, s, t, hs₀, hcomp, -, hstep, ht⟩ := Family.run_until hrun
  obtain ⟨sec, hsec, hcreate⟩ := section_of_started hs₀
  obtain ⟨hframe, hdst⟩ := send_admitted hcreate hcomp hstep
  exact ⟨sec, hsec, hframe, fun halive => (admitted_iff_permits hcreate (hlist sec hsec)).1
    (hdst (halive t ht))⟩

/-- A frame from the device of the default endpoint. -/
theorem sends_as_configured_hub : ∃ (tr : List (Event (List (Sys (Endpoint → Option ℕ))) _)) (s v : _),
    (plainOutside ()).Runs finiteMapOps plainText
      (tr ++ [⟨[s], .within 0 (0, .sendto [7] ⟨.v4Mapped 10 10 10 1, htons 1⟩ (some 1) 5), [v]⟩]) [v] ∧
    ∃ sec, (readConfig plainText).tunnels[0]? = some sec ∧
      sec.Permits (fun _ => some (.v4Mapped 10 10 10 1)) (fun _ => none) ⟨.v4Mapped 10 10 10 1, htons 1⟩ := by
  have hreplay : ∃ s₀ : Sys (Endpoint → Option ℕ),
      tunnelCreate finiteMapOps ((plainOutside ()).createEnv 0) plainParams = .created s₀ ∧
      (replay finiteMapOps s₀ 0 [.start, .epollWait (some [(tapRegistration 0 30).data]), .rdlock,
        .read 0 30 (some [7])]).any (fun s => (sysStep finiteMapOps s
          (0, .sendto [7] ⟨.v4Mapped 10 10 10 1, htons 1⟩ (some 1) 5)).any fun v => v.crash == none) = true :=
    ⟨_, rfl, by decide +kernel⟩
  obtain ⟨s₀, hcreate, hany⟩ := hreplay
  obtain ⟨s, hs, hp⟩ := (Option.any_eq_true _ _).1 hany
  obtain ⟨v, hv, halive⟩ := (Option.any_eq_true _ _).1 hp
  have hcalls : (mainStart ((plainOutside ()).create finiteMapOps) (plainOutside ()).realloc
      (plainOutside ()).deletes (plainOutside ()).nprocs plainText).state.calls = [plainParams] := by
    decide +kernel
  obtain ⟨tr, hrun, -⟩ := runs_of_replay hcalls hcreate hs
  have hwhole := hrun.snoc (v := [v])
    (a := .within 0 (0, .sendto [7] ⟨.v4Mapped 10 10 10 1, htons 1⟩ (some 1) 5)) (.within rfl hv)
  obtain ⟨sec, hsec, -, hpermits⟩ := sends_as_configured finiteMapOps (plainOutside ()) plainText
    tr [] [s] [v] [v] 0 0 [7] ⟨.v4Mapped 10 10 10 1, htons 1⟩ (some 1) 5 hwhole
      (listDefined_plainText plentyEnv)
  refine ⟨tr, s, v, hwhole, sec, hsec, hpermits fun u hu => ?_⟩
  obtain rfl := Option.some.inj hu
  exact eq_of_beq halive

/-- **What reaches a device**, for every configuration, in every interleaving, while the table of
a tunnel grows in place by memory that shows no endpoint its section does not permit.  A worker
of the `k`-th tunnel writes the payload of the datagram that it last received, cut to its buffer;
and that came from the default endpoint of the `k`-th section that a tunnel is created for, or
from an address that an item of its allow list matches. -/
theorem writes_as_configured (o : Outside HeapEnv) (text : CStr)
    (tr tr' : List (Event (List (Sys MapHeap)) (Family.Act (ℕ × Action HeapEnv))))
    (us vs ss : List (Sys MapHeap)) (k w : ℕ) (fd : Fd) (bytes : Bytes) (r : Option ℕ) (now : Int)
    (hrun : o.Runs heapOps text (tr ++ ⟨us, .within k (w, .write fd bytes r now), vs⟩ :: tr') ss)
    (hlist : ∀ sec ∈ (readConfig text).tunnels[k]?, sec.ListDefined (o.lists k))
    (hadds : ∀ e ∈ tr, ∀ wa, e.act = .within k wa → ∀ s ∈ e.pre[k]?,
      ∀ sec ∈ (readConfig text).tunnels[k]?,
        AdmitsOnly (sec.Permits (o.envs k).lookupHost o.pton) s wa) :
    ∃ sec d, (readConfig text).tunnels[k]? = some sec ∧
      (received w (Family.component k tr)).getLast? = some d ∧ bytes <+: d.payload ∧
      sec.Permits (o.envs k).lookupHost o.pton d.src := by
  obtain ⟨s₀, s, t, hs₀, hcomp, -, hstep, -⟩ := Family.run_until hrun
  obtain ⟨sec, hsec, hcreate⟩ := section_of_started hs₀
  obtain ⟨hadm, -⟩ := admitInv_created hcreate
  have hpermits : Admitted s₀.tunnel (defaultEndpoint (o.createEnv k) (sec.params o.nprocs)) =
      sec.Permits (o.envs k).lookupHost o.pton :=
    funext fun e => propext (admitted_iff_permits hcreate (hlist sec hsec))
  rw [hpermits] at hadm
  have hidle : ∀ w, (s₀.workers w).pc = .start := fun w => by rw [(tunnelCreate_created hcreate).1]
  obtain ⟨d, hlast, -, hbytes, tev, rest, id, hpc⟩ :=
    write_carries hidle hadm.size (hcomp.snoc hstep)
  have hinv : AdmitInv (HeapAdmits (sec.Permits (o.envs k).lookupHost o.pton))
      (sec.Permits (o.envs k).lookupHost o.pton) s := by
    refine hcomp.invariant_of (fun _ _ _ hu honly hstep => hu.heap_step honly hstep)
      (fun e he => ?_) hadm
    obtain ⟨e₀, hmem, hact, hpre⟩ := Family.mem_component he
    exact hadds e₀ hmem e.act hact e.pre hpre sec hsec
  refine ⟨sec, d, hsec, hlast, ?_, hinv.admits w (.write id (d.cut _)) (by rw [hpc]; rfl)⟩
  rw [hbytes]
  exact List.take_prefix _ _

/-- A datagram from the default endpoint. -/
theorem writes_as_configured_hub : ∃ (tr : List (Event (List (Sys MapHeap)) _)) (s v : _),
    (plainOutside (heapEnv .failed)).Runs heapOps plainText
      (tr ++ [⟨[s], .within 0 (0, .write 30 [9] (some 1) 5), [v]⟩]) [v] ∧
    ∃ sec d, (readConfig plainText).tunnels[0]? = some sec ∧
      (received 0 (Family.component 0 tr)).getLast? = some d ∧ [9] <+: d.payload ∧
      sec.Permits (fun _ => some (.v4Mapped 10 10 10 1)) (fun _ => none) d.src := by
  have hreplay : ∃ s₀ : Sys MapHeap,
      tunnelCreate heapOps ((plainOutside (heapEnv .failed)).createEnv 0) plainParams = .created s₀ ∧
      (replay heapOps s₀ 0 hubActions).any (fun s =>
        (sysStep heapOps s (0, .write 30 [9] (some 1) 5)).isSome) = true :=
    ⟨_, rfl, by decide +kernel⟩
  obtain ⟨s₀, hcreate, hany⟩ := hreplay
  obtain ⟨s, hs, hp⟩ := (Option.any_eq_true _ _).1 hany
  obtain ⟨v, hv⟩ := Option.isSome_iff_exists.1 hp
  have hcalls : (mainStart ((plainOutside (heapEnv .failed)).create heapOps)
      (plainOutside (heapEnv .failed)).realloc (plainOutside (heapEnv .failed)).deletes
      (plainOutside (heapEnv .failed)).nprocs plainText).state.calls = [plainParams] := by
    decide +kernel
  obtain ⟨tr, hrun, hacts⟩ := runs_of_replay hcalls hcreate hs
  have hwhole := hrun.snoc (v := [v]) (a := .within 0 (0, .write 30 [9] (some 1) 5))
    (.within rfl hv)
  refine ⟨tr, s, v, hwhole, writes_as_configured (plainOutside (heapEnv .failed)) plainText
    tr [] [s] [v] [v] 0 0 30 [9] (some 1) 5 hwhole (listDefined_plainText plentyEnv)
    fun e he wa hact u _ sec _ env m hadd => ?_⟩
  -- nothing is added
  have hmem : e.act ∈ tr.map (·.act) := List.mem_map_of_mem he
  rw [hacts, hact] at hmem
  have hnone : ∀ a ∈ hubActions, ∀ env, a ≠ .mapAdd env := by
    intro a ha env
    simp only [hubActions, List.mem_cons, List.not_mem_nil, or_false] at ha
    rcases ha with rfl | rfl | rfl | rfl | rfl <;> intro h <;> cases h
  rcases List.mem_cons.1 hmem with hstart | hwithin
  · cases hstart
  · obtain ⟨a, ha, heq⟩ := List.mem_map.1 hwithin
    obtain rfl : (0, a) = wa := by injection heq
    exact absurd hadd (hnone a ha env)

end UdpEthTunnel
