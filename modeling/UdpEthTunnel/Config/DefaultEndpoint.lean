/-
# The default endpoint

A `default_endpoint` is a host and a port with a colon between them.  The host may be an IPv6
address, which has colons of its own, so the last one is meant (`EndpointText`).

`config_parse_event` splits at the first, and takes any text after it for a port
(`parsedExactly_iff`).  What `tunnel_create` makes of a port that was read right is right
(`remote_of_created`).
-/

import UdpEthTunnel.Config.Sections

namespace UdpEthTunnel

/-- The value is `h:p`: a host that can be resolved, and the decimal text of a port. -/
def EndpointText (lookup : CStr → Option IpAddr) (v h : CStr) (port : ℕ) : Prop :=
  h ≠ [] ∧ (lookup h).isSome = true ∧ 1 ≤ port ∧ port ≤ 65535 ∧
    ∃ p, v = h ++ ':' :: p ∧ p ≠ [] ∧ (∀ c ∈ p, c.isDigit = true) ∧ leadingDigits p = port

/-- **A value is parsed exactly**: its host and port are stored, and the device that is
created for them is that of the host and the port; a value that is not `h:p` is refused. -/
structure ParsedExactly (lookup : CStr → Option IpAddr) (v : CStr) : Prop where
  stored : ∀ h port, EndpointText lookup v h port →
    ∀ {T : Type} (create : ℕ → TunnelParams → CreateOutcome T) (listAdd : ℕ → Bool)
      (s : ConfigParseState T),
      configParseEvent create listAdd s (.pair "default_endpoint".toList v) =
        ⟨.ret true, { s with seenValues := true, params := { s.params with
          defaultRemoteHost := some h, defaultRemotePort := port } }⟩
  used : ∀ h port, EndpointText lookup v h port →
    ∀ {M E : Type} (ops : MapOps M E) (env : CreateEnv E) (params : TunnelParams) (s : Sys M),
      params.defaultRemoteHost = some h → params.defaultRemotePort = port →
      env.lookupHost = lookup → tunnelCreate ops env params = .created s →
      ∃ addr, lookup h = some addr ∧ s.tunnel.remote 0 = some ⟨addr, htons (.ofNat 16 port)⟩
  refused : (∀ h port, ¬ EndpointText lookup v h port) →
    ∀ {T : Type} (create : ℕ → TunnelParams → CreateOutcome T) (listAdd : ℕ → Bool)
      (s : ConfigParseState T),
      (configParseEvent create listAdd s (.pair "default_endpoint".toList v)).ending = .ret false

section Endpoint

variable {lookup : CStr → Option IpAddr} {v h h' : CStr} {port port' : ℕ}

theorem colon_not_digit {p : CStr} (hp : ∀ c ∈ p, c.isDigit = true) : ':' ∉ p :=
  fun hmem => absurd (hp _ hmem) (by decide)

/-- What the callback does with a pair. -/
theorem configParseEvent_pair {T : Type} (create : ℕ → TunnelParams → CreateOutcome T)
    (listAdd : ℕ → Bool) (s : ConfigParseState T) (key value : CStr) :
    configParseEvent create listAdd s (.pair key value) =
      ⟨.ret (setParam s.params key value).2,
        { s with seenValues := true, params := (setParam s.params key value).1 }⟩ := rfl

/-- A text is cut at its last colon in one way only. -/
theorem append_colon_inj {p p' : CStr} (hp : ':' ∉ p) (hp' : ':' ∉ p')
    (heq : h ++ ':' :: p = h' ++ ':' :: p') : h = h' ∧ p = p' := by
  rcases List.append_eq_append_iff.1 heq with ⟨rest, rfl, hrest⟩ | ⟨rest, rfl, hrest⟩ <;>
    rcases rest with _ | ⟨c, rest⟩
  · exact ⟨(List.append_nil h).symm, (List.cons.inj hrest).2⟩
  · refine absurd ?_ hp
    rw [(List.cons.inj hrest).2]
    exact List.mem_append_right _ List.mem_cons_self
  · exact ⟨List.append_nil h', (List.cons.inj hrest).2.symm⟩
  · refine absurd ?_ hp'
    rw [(List.cons.inj hrest).2]
    exact List.mem_append_right _ List.mem_cons_self

/-- A value is `h:p` in one way only. -/
theorem endpointText_unique (hv : EndpointText lookup v h port)
    (hv' : EndpointText lookup v h' port') : h = h' ∧ port = port' := by
  obtain ⟨-, -, -, -, p, rfl, -, hp, rfl⟩ := hv
  obtain ⟨-, -, -, -, p', heq, -, hp', rfl⟩ := hv'
  obtain ⟨rfl, rfl⟩ := append_colon_inj (colon_not_digit hp) (colon_not_digit hp') heq
  exact ⟨rfl, rfl⟩

/-- **What the callback makes of a value with a colon.** -/
theorem setParam_endpointText (params : TunnelParams) (h p : CStr) (hh : ':' ∉ h) :
    setParam params "default_endpoint".toList (h ++ ':' :: p) =
      ({ params with defaultRemoteHost := some h, defaultRemotePort := atoi p }, true) := by
  have hmem : ':' ∈ h ++ ':' :: p := List.mem_append_right _ List.mem_cons_self
  obtain ⟨-, colon, hsome, htake, hdrop⟩ := (strchr_cases _ _).resolve_left fun hno => hno.1 hmem
  have hhost : ∀ c ∈ h, (c != ':') = true := fun c hc => bne_iff_ne.2 fun heq => hh (heq ▸ hc)
  rw [List.takeWhile_append_of_pos hhost, List.takeWhile_cons_of_neg (by decide),
    List.append_nil] at htake
  rw [List.dropWhile_append_of_pos hhost, List.dropWhile_cons_of_neg (by decide),
    List.tail_cons] at hdrop
  rw [setParam_endpoint hsome, htake, hdrop]

/-- The device of the default endpoint is that of the host and the port. -/
theorem remote_of_created {M E : Type} {ops : MapOps M E} {env : CreateEnv E}
    {params : TunnelParams} {s : Sys M} (hhost : params.defaultRemoteHost = some h)
    (hs : tunnelCreate ops env params = .created s) :
    ∃ addr, env.lookupHost h = some addr ∧ s.tunnel.remote 0 = some ⟨addr, params.remotePort⟩ := by
  obtain ⟨-, -, t, hbare, ⟨hnone, -⟩ | ⟨e, hdef⟩⟩ := tunnelCreate_created hs
  · rw [hhost] at hnone
    cases hnone
  · obtain ⟨host, hsome, hlookup⟩ := hdef.host
    obtain rfl := Option.some.inj (hhost.symm.trans hsome)
    obtain ⟨map, -, hnew⟩ := hdef.add
    refine ⟨e.addr, hlookup, ?_⟩
    rw [← hdef.port]
    exact hnew.remote

/-- **When a default endpoint is parsed exactly.**  `config_parse_event` splits the value at its
first colon and gives what follows to `atoi`.  So a value `h:p` is parsed exactly where its
host has no colon, as an IPv6 address has; and any other value, which should be refused, is
refused only where it has no colon at all. -/
theorem parsedExactly_iff (lookup : CStr → Option IpAddr) (v : CStr) :
    ParsedExactly lookup v ↔
      (∃ h port, EndpointText lookup v h port ∧ ':' ∉ h) ∨
        (∀ h port, ¬ EndpointText lookup v h port) ∧ ':' ∉ v := by
  constructor
  · intro hexact
    by_cases hv : ∃ h port, EndpointText lookup v h port
    · obtain ⟨h, port, hv⟩ := hv
      refine .inl ⟨h, port, hv, fun hcolon => ?_⟩
      have hstored := hexact.stored h port hv (T := Unit) (fun _ _ => .null) (fun _ => true)
        { defaultNumQueues := 0 }
      obtain ⟨-, -, -, -, p, rfl, -⟩ := hv
      -- the part before the first colon is stored
      obtain ⟨-, colon, hsome, htake, -⟩ :=
        (strchr_cases (h ++ ':' :: p) ':').resolve_left fun hno =>
          hno.1 (List.mem_append_left _ hcolon)
      have hhost : some ((h ++ ':' :: p).take colon) = some h := by
        have hparams := congrArg (fun r => r.state.params.defaultRemoteHost) hstored
        rwa [configParseEvent_pair, setParam_endpoint hsome] at hparams
      rw [← Option.some.inj hhost, htake] at hcolon
      exact absurd (List.mem_takeWhile_imp hcolon) (by decide)
    · push Not at hv
      refine .inr ⟨hv, fun hcolon => ?_⟩
      have hrefused := hexact.refused hv (T := Unit) (fun _ _ => .null) (fun _ => true)
        { defaultNumQueues := 0 }
      obtain ⟨-, colon, hsome, -⟩ := (strchr_cases v ':').resolve_left fun hno => hno.1 hcolon
      rw [configParseEvent_pair, setParam_endpoint hsome] at hrefused
      cases hrefused
  · intro hcond
    constructor
    · intro h port hv T create listAdd s
      obtain ⟨h', port', hv', hcolon⟩ := hcond.resolve_right fun hno => hno.1 h port hv
      obtain ⟨rfl, rfl⟩ := endpointText_unique hv hv'
      obtain ⟨-, -, -, hle, p, rfl, hne, hp, hport⟩ := hv
      rw [configParseEvent_pair, setParam_endpointText s.params h p hcolon,
        atoi_digits hne hp (by omega), hport]
    · intro h port hv M E ops env params s hhost hport hlookup hs
      obtain ⟨addr, haddr, hremote⟩ := remote_of_created hhost hs
      refine ⟨addr, hlookup ▸ haddr, ?_⟩
      rw [hremote, TunnelParams.remotePort, hport, BitVec.ofInt_natCast]
    · intro hno T create listAdd s
      have hcolon : ':' ∉ v := hcond.elim (fun ⟨h, port, hv, _⟩ => absurd hv (hno h port)) And.right
      obtain ⟨-, hnone⟩ := (strchr_cases v ':').resolve_right fun hmem => hcolon hmem.1
      exact congrArg Ending.ret (setParam_endpoint_fails hnone)

end Endpoint

/-- A resolver for which every host is `fd00::1`. -/
def knowsHost : CStr → Option IpAddr := fun _ => some ⟨0x010000000000000000000000000000fd⟩

/-- **Values that are not parsed exactly.**  An IPv6 address is cut at its first colon, and
a port above 65535, none at all and 0 are stored. -/
theorem parsedExactly_fails :
    (EndpointText knowsHost "fd00::1:9000".toList "fd00::1".toList 9000 ∧
      setParam {} "default_endpoint".toList "fd00::1:9000".toList =
        ({ defaultRemoteHost := some "fd00".toList, defaultRemotePort := 0 }, true) ∧
      ¬ ParsedExactly knowsHost "fd00::1:9000".toList) ∧
    setParam {} "default_endpoint".toList "peer:70000".toList =
      ({ defaultRemoteHost := some "peer".toList, defaultRemotePort := 70000 }, true) ∧
    setParam {} "default_endpoint".toList ":".toList =
      ({ defaultRemoteHost := some [], defaultRemotePort := 0 }, true) := by
  have htext : EndpointText knowsHost "fd00::1:9000".toList "fd00::1".toList 9000 :=
    ⟨by decide, rfl, by decide, by decide, "9000".toList, rfl, by decide, by simp, by decide⟩
  have hset : setParam {} "default_endpoint".toList "fd00::1:9000".toList =
      ({ defaultRemoteHost := some "fd00".toList, defaultRemotePort := 0 }, true) := by
    decide +kernel
  refine ⟨⟨htext, hset, fun h => ?_⟩, by decide +kernel, by decide +kernel⟩
  have hstored := h.stored _ _ htext (T := Unit) (fun _ _ => .null) (fun _ => true)
    { defaultNumQueues := 0 }
  have hport := congrArg (fun r => r.state.params.defaultRemotePort) hstored
  rw [configParseEvent_pair, hset] at hport
  exact absurd hport (by decide)

end UdpEthTunnel
