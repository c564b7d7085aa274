/-
# The port of a remote endpoint

`tunnel_alloc_new_tap` asserts that the port of the endpoint is positive.  It is called
for the default endpoint, whose port comes from the text of the configuration through
`atoi`, the conversion to 16 bits and `htons`; and for the source of a datagram that the
allow list matches.

So the assertion does not fail where the port of no default endpoint is a multiple of
65536, and no datagram comes from port 0 of an address on the allow list
(`remotePort_pos`); and it fails where one does (`remotePort_fails`).
-/

import UdpEthTunnel.Config.Ini
import UdpEthTunnel.Config.Sections
import UdpEthTunnel.Tunnel.Admission
import UdpEthTunnel.Tunnel.FiniteMap

namespace UdpEthTunnel

open Tunnel Runs

/-! ### Tunnel creation -/

namespace CreateOutcome

variable {α β : Type} {c : Crash}

theorem bind_eq_crash {x : CreateOutcome α} {f : α → CreateOutcome β} :
    (x >>= f) = crash c ↔ x = crash c ∨ ∃ a, x = created a ∧ f a = crash c := by
  show x.bind f = crash c ↔ _
  cases x <;> simp [bind]

theorem check_ne_crash (ok : Bool) : check ok ≠ crash c := by
  unfold check
  split_ifs <;> nofun

theorem ofOption_ne_crash (x : Option α) : ofOption x ≠ crash c := by
  cases x <;> nofun

theorem ofMapCall_eq_crash {x : MapCall α} (h : ofMapCall x = crash c) : c = .wildAccess := by
  cases x with
  | crash =>
    cases h
    rfl
  | stuck => cases h
  | ret a => cases h

/-- A loop crashes in one of its rounds. -/
theorem crash_of_mapM {f : α → CreateOutcome β} {xs : List α} (h : xs.mapM f = crash c) :
    ∃ x ∈ xs, f x = crash c := by
  induction xs with
  | nil => cases h
  | cons x xs ih =>
    rw [List.mapM_cons] at h
    rcases bind_eq_crash.1 h with hx | ⟨y, -, h⟩
    · exact ⟨x, List.mem_cons_self, hx⟩
    · rcases bind_eq_crash.1 h with hrest | ⟨ys, -, h⟩
      · obtain ⟨x', hx', hcrash⟩ := ih hrest
        exact ⟨x', List.mem_cons_of_mem _ hx', hcrash⟩
      · cases h

end CreateOutcome

open CreateOutcome

section Create

variable {M E : Type} {ops : MapOps M E} {env : CreateEnv E} {params : TunnelParams} {c : Crash}

theorem setupEpollFds_ne_crash (numQueues : ℕ) : setupEpollFds env numQueues ≠ .crash c := by
  intro h
  rcases bind_eq_crash.1 h with h | ⟨_, -, h⟩
  · exact check_ne_crash _ h
  · obtain ⟨i, -, h⟩ := crash_of_mapM h
    rcases bind_eq_crash.1 h with h | ⟨_, -, h⟩
    · exact ofOption_ne_crash _ h
    rcases bind_eq_crash.1 h with h | ⟨_, -, h⟩
    · exact check_ne_crash _ h
    rcases bind_eq_crash.1 h with h | ⟨_, -, h⟩
    · exact check_ne_crash _ h
    · cases h

theorem readStr_ne_assert (s : Option CStr) : readStr s ≠ .crash .assertRemotePort := by
  cases s <;> exact nofun

theorem createAllowed_ne_crash : createAllowed env params ≠ .crash c := by
  intro h
  unfold createAllowed at h
  split at h
  · cases h
  · rcases bind_eq_crash.1 h with h | ⟨_, -, h⟩
    · exact ofOption_ne_crash _ h
    · cases h

/-- **Where `tunnel_create` fails the assertion**: at the port of the default endpoint. -/
theorem remotePort_of_crash (h : tunnelCreate ops env params = .crash .assertRemotePort) :
    params.defaultRemoteHost ≠ none ∧ params.remotePort = 0 := by
  unfold tunnelCreate at h
  rcases bind_eq_crash.1 h with h | ⟨_, -, h⟩
  · exact absurd h (check_ne_crash _)
  rcases bind_eq_crash.1 h with h | ⟨_, -, h⟩
  · exact absurd h (readStr_ne_assert _)
  rcases bind_eq_crash.1 h with h | ⟨_, -, h⟩
  · exact absurd h (check_ne_crash _)
  rcases bind_eq_crash.1 h with h | ⟨_, -, h⟩
  · exact absurd h (readStr_ne_assert _)
  rcases bind_eq_crash.1 h with h | ⟨fds, -, h⟩
  · exact absurd h (ofOption_ne_crash _)
  rcases bind_eq_crash.1 h with h | ⟨epollFds, -, h⟩
  · exact absurd h (setupEpollFds_ne_crash _)
  rcases bind_eq_crash.1 h with h | ⟨_, -, h⟩
  · exact absurd h (check_ne_crash _)
  rcases bind_eq_crash.1 h with h | ⟨allowed, -, h⟩
  · exact absurd h createAllowed_ne_crash
  rcases bind_eq_crash.1 h with h | ⟨⟨t, epoll⟩, -, h⟩
  · unfold createDefaultTap at h
    split at h
    case h_1 => cases h
    case h_2 host hsome =>
      rcases bind_eq_crash.1 h with h | ⟨addr, -, h⟩
      · exact absurd h (ofOption_ne_crash _)
      rcases bind_eq_crash.1 h with h | ⟨newMap, -, h⟩
      · cases ofMapCall_eq_crash h
      rcases bind_eq_crash.1 h with h | ⟨map, -, h⟩
      · exact absurd h (ofOption_ne_crash _)
      refine ⟨by rw [hsome]; nofun, ?_⟩
      dsimp only at h
      split at h
      case h_1 c halloc =>
        cases h
        exact port_of_allocNewTap_crash halloc
      all_goals cases h
  · rcases bind_eq_crash.1 h with h | ⟨_, -, h⟩
    · exact absurd h (check_ne_crash _)
    · cases h

end Create

/-! ### Configuration texts -/

/-- The port is 0 when its text stands for a multiple of 65536. -/
theorem remotePort_eq_zero_iff (params : TunnelParams) :
    params.remotePort = 0 ↔ (65536 : Int) ∣ params.defaultRemotePort :=
  htons_ofInt_eq_zero_iff _

/-- The configuration that events tell of. -/
def ConfigFile.ofEvents : List ConfigEvent → ConfigFile
  | [] => ⟨[], []⟩
  | .pair key value :: es => { ofEvents es with leading := (key, value) :: (ofEvents es).leading }
  | .header name :: es => ⟨[], (name, (ofEvents es).leading) :: (ofEvents es).sections⟩
  | .endOfFile :: _ => ⟨[], []⟩

theorem body_ofEvents {es : List ConfigEvent} (h : .endOfFile ∉ es) :
    (ConfigFile.ofEvents es).body = es := by
  induction es with
  | nil => rfl
  | cons e es ih =>
    rw [List.mem_cons, not_or] at h
    have hes := ih h.2
    unfold ConfigFile.body at hes
    cases e with
    | pair key value => exact congrArg (ConfigEvent.pair key value :: ·) hes
    | header name => exact congrArg (ConfigEvent.header name :: ·) hes
    | endOfFile => exact absurd rfl h.1

/-- What a text says, up to the first line that is refused. -/
def configOf (text : CStr) : ConfigFile :=
  .ofEvents ((acceptedLines (readLines text)).flatMap lineEvent)

theorem endOfFile_not_mem (lines : List CStr) : .endOfFile ∉ lines.flatMap lineEvent := by
  intro h
  obtain ⟨line, -, hline⟩ := List.mem_flatMap.1 h
  unfold lineEvent at hline
  cases hkind : parseLine line with
  | silent => simp [hkind] at hline
  | refused => simp [hkind] at hline
  | event e =>
    simp only [hkind, List.mem_singleton] at hline
    subst hline
    unfold parseLine at hkind
    dsimp only at hkind
    split at hkind
    · cases hkind
    · split at hkind
      · cases hkind
      · split_ifs at hkind
    · cases hkind

section Text

variable {T : Type} (create : ℕ → TunnelParams → CreateOutcome T) (listAdd : ℕ → Bool)

theorem parseEvents_append (s : ConfigParseState T) (es es' : List ConfigEvent) :
    parseEvents create listAdd s (es ++ es') =
      (parseEvents create listAdd s es).andThen fun s => parseEvents create listAdd s es' := by
  induction es generalizing s with
  | nil => rfl
  | cons e es ih =>
    rw [List.cons_append, parseEvents_cons, parseEvents_cons, andThen_assoc]
    exact congrArg _ (funext ih)

/-- The lines of a text are told as events. -/
theorem iniParseLines_eq (s : ConfigParseState T) (lines : List CStr) :
    iniParseLines (configParseEvent create listAdd) s lines =
      (parseEvents create listAdd s ((acceptedLines lines).flatMap lineEvent)).andThen fun s =>
        ⟨.ret (lines.all fun line => parseLine line != .refused), s⟩ := by
  induction lines generalizing s with
  | nil => rfl
  | cons line lines ih =>
    unfold acceptedLines at ih ⊢
    rw [iniParseLines_cons, handleLine, List.takeWhile_cons, List.all_cons]
    cases hline : parseLine line with
    | event e =>
      have hevents : lineEvent line = [e] := by
        unfold lineEvent
        rw [hline]
      have hnot : (LineKind.event e != .refused) = true := bne_iff_ne.2 (by simp)
      simp [ih, hevents, parseEvents_cons, andThen_assoc, hnot]
    | silent =>
      have hevents : lineEvent line = [] := by
        unfold lineEvent
        rw [hline]
      have hnot : (LineKind.silent != .refused) = true := rfl
      simp [ih, hevents, Reply.andThen, hnot]
    | refused => rfl

theorem calls_endOfFile (s : ConfigParseState T) :
    s.calls <+: (configParseEvent create listAdd s .endOfFile).state.calls := by
  have hcommit : configParseEvent create listAdd s .endOfFile = commitTunnel create listAdd s := rfl
  rw [hcommit]
  unfold commitTunnel
  dsimp only
  split
  · split
    · exact List.prefix_append ..
    · exact List.prefix_append ..
    · exact List.prefix_append ..
    · split
      · exact List.prefix_append ..
      · exact List.prefix_append ..
  · exact List.prefix_rfl

/-- **What a text makes the callback call.**  Every call is for a section of the text. -/
theorem calls_of_text (n : Int) (text : CStr) :
    (∀ params ∈ (iniParseFile (configParseEvent create listAdd) { defaultNumQueues := n } text).state.calls,
      ∃ sec ∈ (configOf text).allSections, params = sec.params n) ∧
    ∀ c, (iniParseFile (configParseEvent create listAdd) { defaultNumQueues := n } text).ending = .crash c →
      ∃ k, ∃ params ∈
        (iniParseFile (configParseEvent create listAdd) { defaultNumQueues := n } text).state.calls,
        create k params = .crash c := by
  have hcommits := calls_parseEvents create listAdd n (configOf text)
  have hbody : (configOf text).body = (acceptedLines (readLines text)).flatMap lineEvent :=
    body_ofEvents (endOfFile_not_mem _)
  have hend : ∀ s : ConfigParseState T, parseEvents create listAdd s [.endOfFile] =
      configParseEvent create listAdd s .endOfFile := fun s => by
    rw [parseEvents_cons]
    by_cases htrue : (configParseEvent create listAdd s .endOfFile).ending = .ret true
    · rw [Reply.andThen_of_true htrue, parseEvents, ← htrue]
    · exact Reply.andThen_of_ne htrue _
  unfold ConfigFile.events at hcommits
  rw [parseEvents_append, hbody] at hcommits
  unfold iniParseFile
  rw [iniParseLines_eq]
  generalize parseEvents create listAdd { defaultNumQueues := n }
    ((acceptedLines (readLines text)).flatMap lineEvent) = r at hcommits ⊢
  have hsections : ∀ params, params ∈ (((configOf text).allSections.dropWhile Section.noPairs).map
      (Section.params n)) → ∃ sec ∈ (configOf text).allSections, params = sec.params n := by
    intro params hparams
    obtain ⟨sec, hsec, rfl⟩ := List.mem_map.1 hparams
    exact ⟨sec, (List.dropWhile_sublist _).subset hsec, rfl⟩
  by_cases htrue : r.ending = .ret true
  · rw [Reply.andThen_of_true htrue] at hcommits ⊢
    rw [hend] at hcommits
    cases (readLines text).all fun line => parseLine line != .refused with
    | true => exact ⟨fun params hparams => hsections _ (hcommits.isPrefix.subset hparams), hcommits.crash⟩
    | false =>
      refine ⟨fun params hparams => hsections _ (hcommits.isPrefix.subset ?_), nofun⟩
      exact (calls_endOfFile create listAdd r.state).subset hparams
  · rw [Reply.andThen_of_ne htrue] at hcommits ⊢
    rw [Reply.andThen_of_ne htrue]
    exact ⟨fun params hparams => hsections _ (hcommits.isPrefix.subset hparams), hcommits.crash⟩

end Text

/-- In each section the port of the last default endpoint is not a multiple of 65536. -/
def PortsNonzero (cfg : ConfigFile) : Prop :=
  ∀ sec ∈ cfg.allSections, ∀ value, lastValue "default_endpoint".toList sec.pairs = some value →
    ¬ (65536 : Int) ∣ endpointPort value

theorem remotePort_ne_zero {cfg : ConfigFile} (h : PortsNonzero cfg) {sec : Section}
    (hsec : sec ∈ cfg.allSections) (n : Int) (hhost : (sec.params n).defaultRemoteHost ≠ none) :
    (sec.params n).remotePort ≠ 0 := by
  intro hzero
  rw [remotePort_eq_zero_iff] at hzero
  unfold Section.params at hhost hzero
  dsimp only at hhost hzero
  cases hvalue : lastValue "default_endpoint".toList sec.pairs with
  | none =>
    rw [hvalue] at hhost
    exact hhost rfl
  | some value =>
    rw [hvalue] at hzero
    exact h sec hsec value hvalue hzero

/-! ### Runs -/

section Runs

variable {M E : Type} {ops : MapOps M E} {s s' s₀ : Sys M} {w : ℕ} {a : Action E} {tr : Trace M E}

/-- A datagram that is received from an address on the allow list is not from port 0. -/
def PortNonzero (s : Sys M) (wa : ℕ × Action E) : Prop :=
  ∀ d, wa.2 = .recvfrom (some d) → d.inet6 = true → s.tunnel.allows d.src.addr = true → d.src.port ≠ 0

/-- What is known of the datagrams in hand. -/
structure PortInv (s : Sys M) : Prop where
  admission : AdmitInv (fun _ => True) (fun _ => True) s
  port : ∀ w d, (s.workers w).pc.datagram = some d → s.tunnel.allows d.src.addr = true → d.src.port ≠ 0
  crash : s.crash ≠ some .assertRemotePort

/-- The endpoint of a call of `tunnel_alloc_new_tap` is allowed in, and its port is not 0. -/
theorem PortInv.alloc (h : PortInv s) {tev : TunnelEpollEvent} {rest : List TunnelEpollEvent}
    {d : Datagram} (hpc : (s.workers w).pc = .handle tev rest (.alloc d)) : d.src.port ≠ 0 :=
  h.port w d (by rw [hpc]; rfl) (h.admission.admits w (.alloc d) (by rw [hpc]; rfl))

/-- Where a step ends with the assertion failed. -/
theorem StepOf.of_crash (hs : StepOf ops s w a s') (hcrash : s.crash = none)
    (hpost : s'.crash = some .assertRemotePort) :
    ∃ tev rest d, (s.workers w).pc = .handle tev rest (.alloc d) ∧ d.src.port = 0 := by
  have haccount : ∀ id f pc, (s.account w id f pc).crash ≠ some .assertRemotePort := by
    intro id f pc h
    rcases s.account_cases w id f pc with he | ⟨t, -, he⟩
    · rw [he] at h
      cases h
    · rw [he] at h
      exact absurd (hcrash.symm.trans h) nofun
  cases hs with
  | dieInAlloc tev rest d env c hpc halloc =>
    obtain rfl : c = .assertRemotePort := Option.some.inj hpost
    exact ⟨tev, rest, d, hpc, port_of_allocNewTap_crash halloc⟩
  | dieInMap => cases hpost
  | sendto => exact absurd hpost (haccount _ _ _)
  | write => exact absurd hpost (haccount _ _ _)
  | _ => exact absurd (hcrash.symm.trans hpost) nofun

/-- **Every step keeps the invariant**, if it receives no datagram that breaks it. -/
theorem PortInv.step (h : PortInv s) (hport : PortNonzero s (w, a)) (hstep : Step ops s (w, a) s') :
    PortInv s' := by
  have hs := hstep.stepOf.2.2
  have hallows := allows_congr (hs.extends h.admission.size).allowed
  refine ⟨h.admission.step (fun _ _ _ _ _ _ _ => trivial) hstep fun _ _ _ _ _ _ _ => trivial,
    fun v d hd hallow => ?_, fun hpost => ?_⟩
  · rw [hallows] at hallow
    rcases eq_or_ne v w with rfl | hne
    · rcases hs.datagram hd with ⟨d₀, rfl, h6, rfl⟩ | ⟨-, hd⟩
      · exact hport d₀ rfl h6 hallow
      · exact h.port v d hd hallow
    · rw [hs.workers_ne hne] at hd
      exact h.port v d hd hallow
  · obtain ⟨tev, rest, d, hpc, hzero⟩ := hs.of_crash hstep.stepOf.1 hpost
    exact h.alloc hpc hzero

theorem portInv_created {env : CreateEnv E} {params : TunnelParams}
    (h : tunnelCreate ops env params = .created s) : PortInv s := by
  obtain ⟨hidle, hcrash, -⟩ := tunnelCreate_created h
  refine ⟨⟨size_of_created h, fun _ _ => trivial, trivial, fun w p hp => ?_⟩, fun w d hd => ?_, ?_⟩
  · rw [hidle] at hp
    cases hp
  · rw [hidle] at hd
    cases hd
  · rw [hcrash]
    nofun

/-- **When no call is made with port 0.**  `tunnel_alloc_new_tap` asserts that the port is not 0,
and nobody checks it before.  `tunnel_create` makes no such call for a text whose default
endpoints have ports that are not multiples of 65536, and a worker makes none in a run in
which no datagram comes from port 0 of an address on the allow list; so the assertion does
not fail there. -/
theorem remotePort_pos (ops : MapOps M E) :
    (∀ (world : ℕ → CreateEnv E) (listAdd : ℕ → Bool) (n : Int) (text : CStr),
      PortsNonzero (configOf text) →
      (iniParseFile (configParseEvent (fun k => tunnelCreate ops (world k)) listAdd)
        { defaultNumQueues := n } text).ending ≠ .crash .assertRemotePort ∧
      ∀ params ∈ (iniParseFile (configParseEvent (fun k => tunnelCreate ops (world k)) listAdd)
        { defaultNumQueues := n } text).state.calls,
        params.defaultRemoteHost ≠ none → params.remotePort ≠ 0) ∧
    ∀ (env : CreateEnv E) (params : TunnelParams) (s₀ s : Sys M) (tr : Trace M E),
      tunnelCreate ops env params = .created s₀ → Run (Step ops) s₀ tr s →
      (∀ e ∈ tr, PortNonzero e.pre e.act) →
      s.crash ≠ some .assertRemotePort ∧
      ∀ e ∈ tr, ∀ tev rest d, (e.pre.workers e.act.1).pc = .handle tev rest (.alloc d) →
        d.src.port ≠ 0 := by
  constructor
  · intro world listAdd n text hports
    obtain ⟨hsections, hcrash⟩ := calls_of_text (fun k => tunnelCreate ops (world k)) listAdd n text
    have hcalls : ∀ params ∈ (iniParseFile (configParseEvent (fun k => tunnelCreate ops (world k)) listAdd)
        { defaultNumQueues := n } text).state.calls,
        params.defaultRemoteHost ≠ none → params.remotePort ≠ 0 := by
      intro params hparams hhost
      obtain ⟨sec, hsec, rfl⟩ := hsections params hparams
      exact remotePort_ne_zero hports hsec n hhost
    refine ⟨fun hending => ?_, hcalls⟩
    obtain ⟨k, params, hparams, hcreate⟩ := hcrash _ hending
    obtain ⟨hhost, hzero⟩ := remotePort_of_crash hcreate
    exact hcalls params hparams hhost hzero
  · intro env params s₀ s tr hcreate hrun hports
    have h₀ := portInv_created hcreate
    refine ⟨(hrun.invariant_of (fun _ _ _ hu hport hstep => hu.step hport hstep) hports h₀).crash, ?_⟩
    intro e he tev rest d hpc
    have hpre := (hrun.pre_of_mem (fun _ _ _ hu hport hstep => PortInv.step hu hport hstep) hports h₀ he).1
    exact hpre.alloc hpc

end Runs

/-- A tunnel on `eth0` to a port of the host `peer`. -/
def peerText (port : ℕ) : CStr :=
  "bind_iface=eth0\ndefault_endpoint=peer:".toList ++ decimal port ++ ['\n']

/-- The pairs of the text for port 1234. -/
def peerPairs : List (CStr × CStr) :=
  [("bind_iface".toList, "eth0".toList), ("default_endpoint".toList, "peer:1234".toList)]

/-- A text with a default endpoint of port 1234, and a host that sends from that port. -/
theorem remotePort_pos_1234 :
    (∃ params ∈ (iniParseFile (configParseEvent (fun _ => tunnelCreate finiteMapOps (openEnv ())) fun _ => true)
      { defaultNumQueues := 1 } (peerText 1234)).state.calls,
      params.defaultRemoteHost = some "peer".toList ∧ params.remotePort ≠ 0) ∧
    ∃ s₀ s tr, tunnelCreate finiteMapOps (openEnv ()) (openParams 2) = .created s₀ ∧
      Run (Step finiteMapOps) s₀ tr s ∧ 0 < s.tunnel.numTapDevs ∧ s.crash ≠ some .assertRemotePort := by
  constructor
  · have hcalls : (iniParseFile (configParseEvent
        (fun _ => tunnelCreate finiteMapOps (openEnv ())) fun _ => true) { defaultNumQueues := 1 }
        (peerText 1234)).state.calls =
        [{ defaultRemoteHost := some "peer".toList, defaultRemotePort := 1234,
           bindIface := some "eth0".toList, tunnelName := some "default".toList }] := by
      decide +kernel
    have hports : PortsNonzero (configOf (peerText 1234)) := by
      intro sec hsec value hvalue
      obtain rfl : sec = ⟨none, peerPairs⟩ := by
        revert hsec
        have hsections : (configOf (peerText 1234)).allSections = [⟨none, peerPairs⟩] := by
          decide +kernel
        rw [hsections]
        exact List.mem_singleton.1
      obtain rfl : value = "peer:1234".toList := by
        have hlast : lastValue "default_endpoint".toList peerPairs = some "peer:1234".toList := by
          decide
        exact Option.some.inj (hvalue.symm.trans hlast)
      decide +kernel
    have hne := ((remotePort_pos finiteMapOps).1 (fun _ => openEnv ()) (fun _ => true) 1 _ hports).2
    rw [hcalls] at hne ⊢
    exact ⟨_, List.mem_cons_self, rfl, hne _ List.mem_cons_self nofun⟩
  · have hreplay : ∃ s₀, tunnelCreate finiteMapOps (openEnv ()) (openParams 2) = .created s₀ ∧
        ∃ s, replay finiteMapOps s₀ 0 (wakeActions Unit ++ admitActions () (switchHost 2) (40 + ·) 40) =
          some s ∧ 0 < s.tunnel.numTapDevs :=
      ⟨_, rfl, _, rfl, by decide⟩
    obtain ⟨s₀, hcreate, s, hexec, hnum⟩ := hreplay
    obtain ⟨tr, hrun, -, hmem⟩ := mem_replay (size_of_created hcreate) hexec
    refine ⟨s₀, s, tr, hcreate, hrun, hnum, ?_⟩
    refine ((remotePort_pos finiteMapOps).2 _ _ s₀ s tr hcreate hrun fun e he d hd _ _ => ?_).1
    have hact := (hmem e he).1
    rw [hd] at hact
    simp only [wakeActions, admitActions, List.mem_append, List.mem_cons, List.not_mem_nil,
      or_false, reduceCtorEq, false_or, Action.recvfrom.injEq, Option.some.injEq] at hact
    subst hact
    decide

/-- **The assertion fails**: for a text with port 0, and for a datagram from port 0. -/
theorem remotePort_fails :
    (iniParseFile (configParseEvent (fun _ => tunnelCreate finiteMapOps (openEnv ())) fun _ => true)
      { defaultNumQueues := 1 } (peerText 0)).ending = .crash .assertRemotePort ∧
    ∃ s₀ s tr, tunnelCreate finiteMapOps (openEnv ()) (openParams 2) = .created s₀ ∧
      Run (Step finiteMapOps) s₀ tr s ∧ s.crash = some .assertRemotePort := by
  constructor
  · decide +kernel
  · have hreplay : ∃ s₀, tunnelCreate finiteMapOps (openEnv ()) (openParams 2) = .created s₀ ∧
        ∃ s, replay finiteMapOps s₀ 0 (wakeActions Unit ++
          [.recvfrom (some ⟨true, ⟨.v4Mapped 10 10 10 2, 0⟩, []⟩), .lookup (), .unlock, .wrlock,
            .lookup (), .allocNewTap (quietAlloc (40 + ·))]) = some s ∧
          s.crash = some .assertRemotePort :=
      ⟨_, rfl, _, rfl, rfl⟩
    obtain ⟨s₀, hcreate, s, hexec, hcrash⟩ := hreplay
    obtain ⟨tr, hrun, -⟩ := run_of_exec hexec
    exact ⟨s₀, s, tr, hcreate, hrun, hcrash⟩

end UdpEthTunnel
