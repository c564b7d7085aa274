/-
# The configuration callback

`config_parse_event` of `src/main.c`: the callback that `ini_parse_file` calls for a
pair, for the header of a section and for the end of the file.  It fills in
`tunnel_params` from the pairs, and creates the tunnel of a section when the next
header or the end arrives (`configParseEvent`).

What `tunnel_create` and `tunnel_list_add` do is a parameter, one answer for each call.
-/

import UdpEthTunnel.Tunnel.Create

namespace UdpEthTunnel

/-- What `ini_parse_file` tells its callback. -/
inductive ConfigEvent where
  | pair (key value : CStr)
  /-- the header of a section -/
  | header (name : CStr)
  | endOfFile
deriving DecidableEq, Repr

/-- `config_parse_state`. -/
structure ConfigParseState (T : Type) where
  defaultNumQueues : Int
  seenValues : Bool := false
  params : TunnelParams := {}
  /-- `none` is `NULL` -/
  tunnelList : Option (List T) := some []
  /-- what `tunnel_create` has been called with so far -/
  calls : List TunnelParams := []

/-- How a call of the callback, or of the parser, ends. -/
inductive Ending where
  | ret (ok : Bool)
  | crash (c : Crash)
  | stuck
deriving DecidableEq, Repr

/-- How a call ends, and the state it leaves behind. -/
structure Reply (σ : Type) where
  ending : Ending
  state : σ

namespace Reply

variable {σ : Type}

/-- Go on after a call that returned `true`. -/
def andThen (r : Reply σ) (f : σ → Reply σ) : Reply σ :=
  match r.ending with
  | .ret true => f r.state
  | _ => r

theorem andThen_of_true {r : Reply σ} (h : r.ending = .ret true) (f : σ → Reply σ) :
    r.andThen f = f r.state := by
  unfold andThen
  rw [h]

theorem andThen_of_ne {r : Reply σ} (h : r.ending ≠ .ret true) (f : σ → Reply σ) :
    r.andThen f = r := by
  unfold andThen
  split
  · contradiction
  · rfl

end Reply

/-- Store the value of a key; the answer is whether the pair is accepted. -/
def setParam (params : TunnelParams) (key value : CStr) : TunnelParams × Bool :=
  if key = "bind_iface".toList then ({ params with bindIface := some value }, true)
  else if key = "bind_port".toList then ({ params with bindPort := atoi value }, true)
  else if key = "default_endpoint".toList then
    match strchr value ':' with
    | some colon =>
      ({ params with defaultRemoteHost := some (value.take colon),
                     defaultRemotePort := atoi (value.drop (colon + 1)) }, true)
    | none => ({ params with defaultRemoteHost := some value }, false)
  else if key = "num_queues".toList then ({ params with numQueues := atoi value }, true)
  else if key = "tap_base_name".toList then ({ params with tapBaseName := some value }, true)
  else if key = "bridge_name".toList then ({ params with bridgeName := some value }, true)
  else if key = "mtu".toList then ({ params with mtu := atoi value }, true)
  else if key = "allowed_remote_hosts".toList then
    ({ params with allowedRemoteHosts := some value }, true)
  else if key = "post_exec".toList then ({ params with postExec := some value }, true)
  else (params, false)

section Callback

variable {T : Type} (create : ℕ → TunnelParams → CreateOutcome T) (listAdd : ℕ → Bool)

/-- The parameters the tunnel is created with: a section without a name is `default`. -/
def withName (params : TunnelParams) : TunnelParams :=
  if params.tunnelName = none then { params with tunnelName := some "default".toList } else params

/-- Create the tunnel of the section that ends, if values have been seen.
`reset_tunnel_params` forgets the parameters; `seen_values` stays. -/
def commitTunnel (s : ConfigParseState T) : Reply (ConfigParseState T) :=
  if s.seenValues then
    let params := withName s.params
    let called := { s with params := params, calls := s.calls ++ [params] }
    match create s.calls.length params with
    | .crash c => ⟨.crash c, called⟩
    | .stuck => ⟨.stuck, called⟩
    | .null => ⟨.ret false, { called with params := {} }⟩
    | .created t =>
      if listAdd s.calls.length then
        ⟨.ret true, { called with params := {}, tunnelList := s.tunnelList.map (· ++ [t]) }⟩
      else ⟨.ret false, { called with params := {}, tunnelList := none }⟩
  else ⟨.ret true, s⟩

/-- The parameters of a new section. -/
def ConfigParseState.startSection (s : ConfigParseState T) (name : CStr) : ConfigParseState T :=
  { s with params := { s.params with numQueues := s.defaultNumQueues, tunnelName := some name } }

/-- **`config_parse_event`.** -/
def configParseEvent (s : ConfigParseState T) : ConfigEvent → Reply (ConfigParseState T)
  | .pair key value =>
    let (params, ok) := setParam s.params key value
    ⟨.ret ok, { s with seenValues := true, params := params }⟩
  | .header name =>
    (commitTunnel create listAdd s).andThen fun s => ⟨.ret true, s.startSection name⟩
  | .endOfFile => commitTunnel create listAdd s

/-- The callback is called for these events, until it does not return `true`. -/
def parseEvents (s : ConfigParseState T) : List ConfigEvent → Reply (ConfigParseState T)
  | [] => ⟨.ret true, s⟩
  | e :: es => (configParseEvent create listAdd s e).andThen fun s => parseEvents s es

variable {create listAdd}

theorem parseEvents_cons (s : ConfigParseState T) (e : ConfigEvent) (es : List ConfigEvent) :
    parseEvents create listAdd s (e :: es) =
      (configParseEvent create listAdd s e).andThen fun s => parseEvents create listAdd s es := rfl

end Callback

end UdpEthTunnel
