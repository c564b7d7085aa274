/-
# The sections of a configuration

What a configuration says, section by section (`ConfigFile`): the parameters of a
section come from its name and from the last value of each of its keys
(`Section.params`).

The callback commits a section when the next header or the end arrives, if it has
seen values, and `seen_values` is not reset: it calls `tunnel_create` for the first
section with a pair and for each one after it, with pairs or without
(`calls_parseEvents`).  So the sections are what they should be exactly when no
section without pairs comes after one that has some (`sections_iff`).
-/

import Mathlib.Data.List.Basic
import Mathlib.Order.Nat
import UdpEthTunnel.Config.Basic

namespace UdpEthTunnel

/-! ### What a configuration says -/

/-- A section; only the first has no name. -/
structure Section where
  name : Option CStr
  pairs : List (CStr × CStr)
deriving DecidableEq, Repr

/-- A configuration: the pairs before the first header, and the sections after it. -/
structure ConfigFile where
  leading : List (CStr × CStr)
  sections : List (CStr × List (CStr × CStr))
deriving DecidableEq, Repr

def ConfigEvent.ofPair (p : CStr × CStr) : ConfigEvent := .pair p.1 p.2

/-- The events of a section with a name. -/
def sectionEvents (sec : CStr × List (CStr × CStr)) : List ConfigEvent :=
  .header sec.1 :: sec.2.map .ofPair

def Section.ofNamed (sec : CStr × List (CStr × CStr)) : Section := ⟨some sec.1, sec.2⟩

def Section.noPairs (sec : Section) : Bool := sec.pairs.isEmpty

namespace ConfigFile

/-- The events of a configuration, up to the end of the file. -/
def body (cfg : ConfigFile) : List ConfigEvent :=
  cfg.leading.map .ofPair ++ cfg.sections.flatMap sectionEvents

def events (cfg : ConfigFile) : List ConfigEvent := cfg.body ++ [.endOfFile]

/-- All its sections; the first is the one without a name. -/
def allSections (cfg : ConfigFile) : List Section :=
  ⟨none, cfg.leading⟩ :: cfg.sections.map .ofNamed

end ConfigFile

/-- The last value of a key. -/
def lastValue (key : CStr) (pairs : List (CStr × CStr)) : Option CStr :=
  (pairs.filter fun p => p.1 = key).getLast?.map (·.2)

/-- The host and the port of an endpoint `host:port`. -/
def endpointHost (value : CStr) : CStr := value.takeWhile (· != ':')

def endpointPort (value : CStr) : Int := atoi (value.dropWhile (· != ':')).tail

/-- **The parameters of a section**, from its name and its own pairs. -/
def Section.params (defaultNumQueues : Int) (sec : Section) : TunnelParams :=
  let value (key : String) : Option CStr := lastValue key.toList sec.pairs
  { numQueues := ((value "num_queues").map atoi).getD
      (if sec.name.isSome then defaultNumQueues else 0)
    defaultRemoteHost := (value "default_endpoint").map endpointHost
    defaultRemotePort := ((value "default_endpoint").map endpointPort).getD 0
    allowedRemoteHosts := value "allowed_remote_hosts"
    bindIface := value "bind_iface"
    bindPort := ((value "bind_port").map atoi).getD 0
    mtu := ((value "mtu").map atoi).getD 0
    tunnelName := some (sec.name.getD "default".toList)
    tapBaseName := value "tap_base_name"
    bridgeName := value "bridge_name"
    postExec := value "post_exec" }

/-- Whether a pair is accepted. -/
def Accepts (key value : CStr) : Prop :=
  key ∈ ["bind_iface".toList, "bind_port".toList, "default_endpoint".toList, "num_queues".toList,
    "tap_base_name".toList, "bridge_name".toList, "mtu".toList, "allowed_remote_hosts".toList,
    "post_exec".toList] ∧ (key = "default_endpoint".toList → ':' ∈ value)

def ConfigFile.Accepted (cfg : ConfigFile) : Prop :=
  ∀ sec ∈ cfg.allSections, ∀ p ∈ sec.pairs, Accepts p.1 p.2

instance (key value : CStr) : Decidable (Accepts key value) := inferInstanceAs (Decidable (_ ∧ _))

instance (cfg : ConfigFile) : Decidable cfg.Accepted := inferInstanceAs (Decidable (∀ _ ∈ _, _))

/-! ### The parameters of the section that is being read -/

theorem lastValue_snoc (key k v : CStr) (pairs : List (CStr × CStr)) :
    lastValue key (pairs ++ [(k, v)]) = if k = key then some v else lastValue key pairs := by
  unfold lastValue
  rw [List.filter_append]
  split_ifs with h
  · simp [h]
  · simp [h]

/-- The parameters while a section is read: the name is not made up yet. -/
def Section.pending (n : Int) (sec : Section) : TunnelParams :=
  { sec.params n with tunnelName := sec.name }

theorem withName_pending (n : Int) (sec : Section) : withName (sec.pending n) = sec.params n := by
  unfold withName Section.pending
  cases hname : sec.name with
  | none => simp [Section.params, hname]
  | some name => simp [Section.params, hname]

/-- An endpoint is split at its first colon. -/
theorem setParam_endpoint {params : TunnelParams} {value : CStr} {colon : ℕ}
    (h : strchr value ':' = some colon) :
    setParam params "default_endpoint".toList value =
      ({ params with
          defaultRemoteHost := some (value.take colon),
          defaultRemotePort := atoi (value.drop (colon + 1)) }, true) := by
  unfold setParam
  rw [if_neg (by decide), if_neg (by decide), if_pos rfl, h]

theorem setParam_endpoint_fails {params : TunnelParams} {value : CStr}
    (h : strchr value ':' = none) :
    (setParam params "default_endpoint".toList value).2 = false := by
  unfold setParam
  rw [if_neg (by decide), if_neg (by decide), if_pos rfl, h]

/-- A pair with another key is refused. -/
theorem setParam_unknown {params : TunnelParams} {key value : CStr}
    (h : key ∉ ["bind_iface".toList, "bind_port".toList, "default_endpoint".toList,
      "num_queues".toList, "tap_base_name".toList, "bridge_name".toList, "mtu".toList,
      "allowed_remote_hosts".toList, "post_exec".toList]) :
    (setParam params key value).2 = false := by
  simp only [List.mem_cons, List.not_mem_nil, or_false, not_or] at h
  obtain ⟨hiface, hport, hendpoint, hqueues, htap, hbridge, hmtu, hallowed, hexec⟩ := h
  unfold setParam
  rw [if_neg hiface, if_neg hport, if_neg hendpoint, if_neg hqueues, if_neg htap, if_neg hbridge,
    if_neg hmtu, if_neg hallowed, if_neg hexec]

/-- A pair is stored as its key says. -/
theorem setParam_pending (n : Int) (sec : Section) (key value : CStr) :
    Accepts key value ∧ setParam (sec.pending n) key value =
        (Section.pending n ⟨sec.name, sec.pairs ++ [(key, value)]⟩, true) ∨
      ¬ Accepts key value ∧ (setParam (sec.pending n) key value).2 = false := by
  by_cases hkey : key = "default_endpoint".toList
  · subst hkey
    rcases strchr_cases value ':' with ⟨hnot, hnone⟩ | ⟨hmem, colon, hsome, htake, hdrop⟩
    · exact .inr ⟨fun h => hnot (h.2 rfl), setParam_endpoint_fails hnone⟩
    · rw [setParam_endpoint hsome]
      refine .inl ⟨⟨by decide, fun _ => hmem⟩, ?_⟩
      simp [Section.pending, Section.params, lastValue_snoc, htake, hdrop, endpointHost,
        endpointPort]
  · by_cases hmem : Accepts key value
    · refine .inl ⟨hmem, ?_⟩
      have hkeys := hmem.1
      simp only [List.mem_cons, List.not_mem_nil, or_false] at hkeys
      rcases hkeys with rfl | rfl | hendpoint | rfl | rfl | rfl | rfl | rfl | rfl
      case inr.inr.inl => exact absurd hendpoint hkey
      all_goals simp [setParam, Section.pending, Section.params, lastValue_snoc]
    · refine .inr ⟨hmem, setParam_unknown fun hkeys => hmem ⟨hkeys, fun h => absurd h hkey⟩⟩

/-! ### The state while a section is read -/

section Callback

variable {T : Type} {create : ℕ → TunnelParams → CreateOutcome T} {listAdd : ℕ → Bool}
  {n : Int} {s s' : ConfigParseState T} {sec : Section}

/-- The callback has been told of `sec` so far. -/
structure InSection (n : Int) (sec : Section) (s : ConfigParseState T) : Prop where
  defaultNumQueues : s.defaultNumQueues = n
  params : s.params = sec.pending n
  unseen : s.seenValues = false → sec.pairs = []

/-- The `k`-th call of `tunnel_create` creates a tunnel, and it is added to the list. -/
def CallSucceeds (create : ℕ → TunnelParams → CreateOutcome T) (listAdd : ℕ → Bool) (k : ℕ)
    (params : TunnelParams) : Prop :=
  (∃ t, create k params = .created t) ∧ listAdd k = true

/-- **The ways a section can be committed.** -/
theorem commitTunnel_cases (create : ℕ → TunnelParams → CreateOutcome T) (listAdd : ℕ → Bool)
    (h : InSection n sec s) :
    (s.seenValues = false ∧ commitTunnel create listAdd s = ⟨.ret true, s⟩) ∨
      s.seenValues = true ∧ ∃ r, commitTunnel create listAdd s = r ∧
        r.state.calls = s.calls ++ [sec.params n] ∧
        (r.ending = .ret true → r.state.seenValues = true ∧ r.state.defaultNumQueues = n ∧
          r.state.params = {}) ∧
        (∀ c, r.ending = .crash c → create s.calls.length (sec.params n) = .crash c) ∧
        (r.ending = .ret true ↔ CallSucceeds create listAdd s.calls.length (sec.params n)) := by
  unfold commitTunnel CallSucceeds
  cases hseen : s.seenValues with
  | false => exact .inl ⟨rfl, rfl⟩
  | true =>
    refine .inr ⟨rfl, _, rfl, ?_⟩
    have hname : withName s.params = sec.params n := by rw [h.params, withName_pending]
    dsimp only
    rw [if_pos rfl, hname]
    cases hcreate : create s.calls.length (sec.params n) with
    | crash c =>
      refine ⟨rfl, nofun, fun c' hc => ?_, iff_of_false nofun fun ⟨⟨t, ht⟩, _⟩ => nomatch ht⟩
      cases hc
      rfl
    | stuck => exact ⟨rfl, nofun, nofun, iff_of_false nofun fun ⟨⟨t, ht⟩, _⟩ => nomatch ht⟩
    | null => exact ⟨rfl, nofun, nofun, iff_of_false nofun fun ⟨⟨t, ht⟩, _⟩ => nomatch ht⟩
    | created t =>
      dsimp only
      cases hadd : listAdd s.calls.length with
      | false => exact ⟨rfl, nofun, nofun, iff_of_false nofun fun ⟨_, hadded⟩ => nomatch hadded⟩
      | true =>
        exact ⟨rfl, fun _ => ⟨rfl, h.defaultNumQueues, rfl⟩, nofun, iff_of_true rfl ⟨⟨t, rfl⟩, rfl⟩⟩

/-- What the callback does with a pair. -/
theorem parse_pair (h : InSection n sec s) (key value : CStr) (es : List ConfigEvent) :
    (Accepts key value ∧ ∃ s', InSection n ⟨sec.name, sec.pairs ++ [(key, value)]⟩ s' ∧
        s'.seenValues = true ∧ s'.calls = s.calls ∧
        parseEvents create listAdd s (.pair key value :: es) = parseEvents create listAdd s' es) ∨
      ¬ Accepts key value ∧ ∃ s', s'.calls = s.calls ∧
        parseEvents create listAdd s (.pair key value :: es) = ⟨.ret false, s'⟩ := by
  rw [parseEvents_cons]
  have hevent : configParseEvent create listAdd s (.pair key value) =
      ⟨.ret (setParam (sec.pending n) key value).2,
        { s with seenValues := true, params := (setParam (sec.pending n) key value).1 }⟩ := by
    rw [← h.params]
    rfl
  rw [hevent]
  rcases setParam_pending n sec key value with ⟨hacc, hset⟩ | ⟨hacc, hset⟩
  · rw [hset]
    exact .inl ⟨hacc, { s with seenValues := true, params := _ },
      ⟨h.defaultNumQueues, rfl, fun h => Bool.noConfusion h⟩, rfl, rfl, rfl⟩
  · rw [hset]
    exact .inr ⟨hacc, { s with seenValues := true, params := _ }, rfl, rfl⟩

/-- What the callback does with the pairs of a section. -/
theorem parse_pairs (h : InSection n sec s) (pairs : List (CStr × CStr)) (es : List ConfigEvent) :
    ((∀ p ∈ pairs, Accepts p.1 p.2) ∧ ∃ s', InSection n ⟨sec.name, sec.pairs ++ pairs⟩ s' ∧
        s'.seenValues = (s.seenValues || !pairs.isEmpty) ∧ s'.calls = s.calls ∧
        parseEvents create listAdd s (pairs.map .ofPair ++ es) = parseEvents create listAdd s' es) ∨
      (¬ ∀ p ∈ pairs, Accepts p.1 p.2) ∧ ∃ s', s'.calls = s.calls ∧
        parseEvents create listAdd s (pairs.map .ofPair ++ es) = ⟨.ret false, s'⟩ := by
  induction pairs generalizing s sec with
  | nil =>
    refine .inl ⟨nofun, s, ?_, by simp, rfl, rfl⟩
    rwa [List.append_nil]
  | cons p pairs ih =>
    rcases parse_pair h p.1 p.2 (pairs.map .ofPair ++ es) with
      ⟨hacc, s₁, h₁, hseen₁, hcalls₁, hparse₁⟩ | ⟨hacc, s', hcalls, hparse⟩
    · have hevents : parseEvents create listAdd s ((p :: pairs).map .ofPair ++ es) =
          parseEvents create listAdd s₁ (pairs.map .ofPair ++ es) := hparse₁
      rw [hevents]
      rcases ih h₁ with ⟨haccs, s', h', hseen, hcalls, hparse⟩ | ⟨haccs, s', hcalls, hparse⟩
      · refine .inl ⟨List.forall_mem_cons.2 ⟨hacc, haccs⟩, s', ?_, ?_, hcalls.trans hcalls₁, hparse⟩
        · rwa [List.append_assoc] at h'
        · simp [hseen, hseen₁]
      · exact .inr ⟨fun hall => haccs (List.forall_mem_cons.1 hall).2, s', hcalls.trans hcalls₁, hparse⟩
    · exact .inr ⟨fun hall => hacc (List.forall_mem_cons.1 hall).1, s', hcalls, hparse⟩

/-- What the callback does with a header: the section before it is committed. -/
theorem parse_header (h : InSection n sec s) (name : CStr) (es : List ConfigEvent) :
    (∃ s', InSection n ⟨some name, []⟩ s' ∧ s'.seenValues = s.seenValues ∧
        s'.calls = s.calls ++ (if s.seenValues then [sec.params n] else []) ∧
        (s.seenValues = true → CallSucceeds create listAdd s.calls.length (sec.params n)) ∧
        parseEvents create listAdd s (.header name :: es) = parseEvents create listAdd s' es) ∨
      ∃ r, parseEvents create listAdd s (.header name :: es) = r ∧ s.seenValues = true ∧
        r.ending ≠ .ret true ∧ r.state.calls = s.calls ++ [sec.params n] ∧
        (∀ c, r.ending = .crash c → create s.calls.length (sec.params n) = .crash c) ∧
        ¬ CallSucceeds create listAdd s.calls.length (sec.params n) := by
  have hevent : configParseEvent create listAdd s (.header name) =
      (commitTunnel create listAdd s).andThen fun s => ⟨.ret true, s.startSection name⟩ := rfl
  rw [parseEvents_cons, hevent]
  rcases commitTunnel_cases create listAdd h with
    ⟨hseen, hcommit⟩ | ⟨hseen, r, hcommit, hcalls, hok, hcrash, hall⟩
  · rw [hcommit]
    refine .inl ⟨s.startSection name, ⟨h.defaultNumQueues, ?_, fun _ => rfl⟩, rfl, ?_,
      fun htrue => (nomatch hseen.symm.trans htrue), rfl⟩
    · -- nothing but the name and the number of queues has been set before
      have hnil : sec = ⟨sec.name, []⟩ := by
        rw [← h.unseen hseen]
      unfold ConfigParseState.startSection
      rw [h.params, h.defaultNumQueues, hnil]
      rfl
    · rw [hseen]
      exact (List.append_nil _).symm
  · rw [hcommit]
    by_cases htrue : r.ending = .ret true
    · obtain ⟨hseen', hnum, hparams⟩ := hok htrue
      rw [Reply.andThen_of_true htrue]
      refine .inl ⟨r.state.startSection name, ⟨hnum, ?_, fun _ => rfl⟩, hseen'.trans hseen.symm, ?_,
        fun _ => hall.1 htrue, rfl⟩
      · unfold ConfigParseState.startSection
        rw [hparams, hnum]
        rfl
      · rw [hseen]
        exact hcalls
    · rw [Reply.andThen_of_ne htrue, Reply.andThen_of_ne htrue]
      exact .inr ⟨r, rfl, hseen, htrue, hcalls, hcrash, fun hcreate => htrue (hall.2 hcreate)⟩

/-- What the callback commits at the end of `sec`, with `secs` still to come. -/
def committed (seen : Bool) (sec : Section) (secs : List Section) : List Section :=
  if seen then sec :: secs else secs.dropWhile Section.noPairs

theorem committed_cons (seen : Bool) (sec sec' : Section) (secs : List Section) :
    committed seen sec (sec' :: secs) =
      (if seen then [sec] else []) ++ committed (seen || !sec'.noPairs) sec' secs := by
  unfold committed
  rw [List.dropWhile_cons]
  cases seen
  · cases sec'.noPairs
    · rfl
    · rfl
  · rfl

/-- A reply `r` to the rest of a file: the calls made, up to all of them.  Each before the last
has succeeded; and so has the last one, unless the file is refused. -/
structure Commits (create : ℕ → TunnelParams → CreateOutcome T) (listAdd : ℕ → Bool) (accepted : Prop)
    (calls made : List TunnelParams) (r : Reply (ConfigParseState T)) : Prop where
  isPrefix : r.state.calls <+: calls ++ made
  old : calls <+: r.state.calls
  all : r.ending = .ret true → r.state.calls = calls ++ made
  crash : ∀ c, r.ending = .crash c → ∃ k, ∃ params ∈ r.state.calls, create k params = .crash c
  succeeded : ∀ k params, calls.length ≤ k → r.state.calls[k]? = some params →
    k + 1 < r.state.calls.length ∨ r.ending = .ret true → CallSucceeds create listAdd k params
  ok : accepted → (∀ k params, calls.length ≤ k → r.state.calls[k]? = some params →
    CallSucceeds create listAdd k params) → r.ending = .ret true

/-- Some of the calls have been made already, and have succeeded. -/
theorem Commits.shift {accepted : Prop} {calls first made : List TunnelParams}
    {r : Reply (ConfigParseState T)} (h : Commits create listAdd accepted (calls ++ first) made r)
    (hfirst : ∀ k params, first[k]? = some params →
      CallSucceeds create listAdd (calls.length + k) params) :
    Commits create listAdd accepted calls (first ++ made) r := by
  have ⟨hpre, hold, hall, hcrash, hsucceeded, hok⟩ := h
  rw [List.append_assoc] at hpre hall
  refine ⟨hpre, (List.prefix_append _ _).trans hold, hall, hcrash, fun k params hk hget hlast => ?_,
    fun hacc hcalls => hok hacc fun k params hk => hcalls k params ?_⟩
  · rcases Nat.lt_or_ge k (calls ++ first).length with hlt | hge
    · obtain ⟨rest, hrest⟩ := hold
      rw [← hrest, List.getElem?_append_left hlt, List.getElem?_append_right hk] at hget
      have := hfirst _ _ hget
      rwa [Nat.add_sub_cancel' hk] at this
    · exact hsucceeded k params hge hget hlast
  · rw [List.length_append] at hk
    omega

theorem eq_of_getElem?_singleton {α : Type} {a b : α} {k : ℕ} (h : [a][k]? = some b) :
    k = 0 ∧ a = b := by
  cases k with
  | zero => exact ⟨rfl, Option.some.inj h⟩
  | succ k => cases h

/-- No call is made. -/
theorem Commits.none {accepted : Prop} {calls made : List TunnelParams}
    {r : Reply (ConfigParseState T)} (hcalls : r.state.calls = calls) (hret : r.ending = .ret false)
    (hnot : ¬ accepted) : Commits create listAdd accepted calls made r where
  isPrefix := hcalls ▸ List.prefix_append _ _
  old := hcalls ▸ List.prefix_rfl
  all htrue := nomatch hret.symm.trans htrue
  crash _ hc := nomatch hret.symm.trans hc
  succeeded k params hk hget := by
    rw [hcalls, List.getElem?_eq_none hk] at hget
    cases hget
  ok hacc := absurd hacc hnot

/-- One call is made, and the file is refused because of it. -/
theorem Commits.last {accepted : Prop} {calls made : List TunnelParams} {params : TunnelParams}
    {r : Reply (ConfigParseState T)} (hcalls : r.state.calls = calls ++ [params])
    (hne : r.ending ≠ .ret true)
    (hcrash : ∀ c, r.ending = .crash c → create calls.length params = .crash c)
    (hnot : ¬ CallSucceeds create listAdd calls.length params) :
    Commits create listAdd accepted calls (params :: made) r where
  isPrefix := by
    rw [hcalls, List.append_cons calls params made]
    exact List.prefix_append _ _
  old := hcalls ▸ List.prefix_append _ _
  all htrue := absurd htrue hne
  crash c hc := ⟨_, _, hcalls ▸ List.mem_append_right _ List.mem_cons_self, hcrash c hc⟩
  succeeded k _ hk hget hlast := by
    rw [hcalls, List.length_append, List.length_singleton] at hlast
    rcases hlast with hlast | hlast
    · omega
    · exact absurd hlast hne
  ok _ hall := by
    refine absurd (hall calls.length params le_rfl ?_) hnot
    rw [hcalls]
    exact List.getElem?_concat_length

/-- The rest of a file, from the end of a section on. -/
theorem parse_sections (create : ℕ → TunnelParams → CreateOutcome T) (listAdd : ℕ → Bool)
    (h : InSection n sec s) (secs : List (CStr × List (CStr × CStr))) :
    Commits create listAdd (∀ x ∈ secs, ∀ p ∈ x.2, Accepts p.1 p.2) s.calls
      ((committed s.seenValues sec (secs.map .ofNamed)).map (Section.params n))
      (parseEvents create listAdd s (secs.flatMap sectionEvents ++ [.endOfFile])) := by
  induction secs generalizing s sec with
  | nil =>
    have hend : parseEvents create listAdd s ([].flatMap sectionEvents ++ [.endOfFile]) =
        (commitTunnel create listAdd s).andThen fun s => ⟨.ret true, s⟩ := rfl
    rw [hend]
    rcases commitTunnel_cases create listAdd h with
      ⟨hseen, hcommit⟩ | ⟨hseen, r, hcommit, hcalls, hok, hcrash, hall⟩
    · rw [hcommit, hseen]
      refine ⟨List.prefix_append .., List.prefix_rfl, fun _ => (List.append_nil _).symm, nofun,
        fun k params hk hget => ?_, fun _ _ => rfl⟩
      have hnone : s.calls[k]? = none := List.getElem?_eq_none hk
      cases hnone.symm.trans hget
    · rw [hcommit, hseen]
      have hr : (r.andThen fun s => ⟨.ret true, s⟩) = r := by
        by_cases htrue : r.ending = .ret true
        · rw [Reply.andThen_of_true htrue, ← htrue]
        · exact Reply.andThen_of_ne htrue _
      rw [hr]
      by_cases htrue : r.ending = .ret true
      · refine ⟨hcalls ▸ List.prefix_rfl, hcalls ▸ List.prefix_append _ _, fun _ => hcalls,
          fun c hc => (nomatch htrue.symm.trans hc), fun k params hk hget _ => ?_, fun _ _ => htrue⟩
        rw [hcalls, List.getElem?_append_right hk] at hget
        obtain ⟨hzero, rfl⟩ := eq_of_getElem?_singleton hget
        rw [show k = s.calls.length by omega]
        exact hall.1 htrue
      · exact Commits.last hcalls htrue hcrash fun hok => htrue (hall.2 hok)
  | cons x secs ih =>
    obtain ⟨name, pairs⟩ := x
    have hevents : ((name, pairs) :: secs).flatMap sectionEvents ++ [.endOfFile] =
        .header name :: (pairs.map .ofPair ++ (secs.flatMap sectionEvents ++ [.endOfFile])) := by
      simp [sectionEvents]
    have hmade : committed s.seenValues sec (((name, pairs) :: secs).map .ofNamed) =
        (if s.seenValues then [sec] else []) ++
          committed (s.seenValues || !pairs.isEmpty) ⟨some name, pairs⟩ (secs.map .ofNamed) :=
      committed_cons ..
    rw [hevents, hmade, List.map_append]
    rcases parse_header h name (pairs.map .ofPair ++ (secs.flatMap sectionEvents ++ [.endOfFile])) with
      ⟨s₁, h₁, hseen₁, hcalls₁, hdone, hparse₁⟩ | ⟨r, hparse, hseen, hne, hcalls, hcrash, hnot⟩
    · refine Commits.shift ?_ fun k params hget => ?_
      swap
      · cases hvalues : s.seenValues with
        | false =>
          rw [hvalues] at hget
          cases hget
        | true =>
          rw [hvalues] at hget
          obtain ⟨rfl, rfl⟩ := eq_of_getElem?_singleton hget
          exact hdone hvalues
      have hcalls₁ : s₁.calls = s.calls ++ (if s.seenValues then [sec] else []).map (Section.params n) := by
        rw [hcalls₁]
        split_ifs <;> rfl
      rw [hparse₁, ← hcalls₁]
      rcases parse_pairs h₁ pairs (secs.flatMap sectionEvents ++ [.endOfFile]) with
        ⟨hacc, s₂, h₂, hseen₂, hcalls₂, hparse₂⟩ | ⟨hacc, s₂, hcalls₂, hparse₂⟩
      · rw [hparse₂, ← hcalls₂]
        have hcommits := ih h₂
        rw [hseen₂, hseen₁, List.nil_append] at hcommits
        exact { hcommits with ok := fun hall => hcommits.ok (List.forall_mem_cons.1 hall).2 }
      · rw [hparse₂]
        exact .none hcalls₂ rfl fun hall => hacc (List.forall_mem_cons.1 hall).1
    · rw [hparse, hseen]
      exact .last hcalls hne hcrash hnot

/-- **What the callback makes of a file**: it calls `tunnel_create` for the first section
with pairs and for each one after it, up to a call that fails or a pair that is not
accepted. -/
theorem calls_parseEvents (create : ℕ → TunnelParams → CreateOutcome T) (listAdd : ℕ → Bool) (n : Int)
    (cfg : ConfigFile) : Commits create listAdd cfg.Accepted []
      ((cfg.allSections.dropWhile Section.noPairs).map (Section.params n))
      (parseEvents create listAdd { defaultNumQueues := n } cfg.events) := by
  have hinit : InSection n ⟨none, []⟩ ({ defaultNumQueues := n } : ConfigParseState T) :=
    ⟨rfl, rfl, fun _ => rfl⟩
  have hevents : cfg.events =
      cfg.leading.map .ofPair ++ (cfg.sections.flatMap sectionEvents ++ [.endOfFile]) := by
    unfold ConfigFile.events ConfigFile.body
    rw [List.append_assoc]
  have hmade : cfg.allSections.dropWhile Section.noPairs =
      committed (!cfg.leading.isEmpty) ⟨none, cfg.leading⟩ (cfg.sections.map .ofNamed) := by
    unfold committed ConfigFile.allSections
    rw [List.dropWhile_cons]
    cases hempty : cfg.leading.isEmpty with
    | false => simp [Section.noPairs, hempty]
    | true => simp [Section.noPairs, hempty]
  rw [hevents, hmade]
  rcases parse_pairs hinit cfg.leading (cfg.sections.flatMap sectionEvents ++ [.endOfFile]) with
    ⟨hacc, s, hs, hseen, hcalls, hparse⟩ | ⟨hacc, s, hcalls, hparse⟩
  · rw [hparse]
    have hcommits := parse_sections create listAdd hs cfg.sections
    rw [hseen, hcalls] at hcommits
    refine { hcommits with ok := fun hall => hcommits.ok fun x hx => ?_ }
    exact (List.forall_mem_cons.1 hall).2 _ (List.mem_map_of_mem hx)
  · rw [hparse]
    exact .none hcalls rfl fun hall => hacc (List.forall_mem_cons.1 hall).1

end Callback

/-! ### The sections that should be created -/

/-- No section without pairs comes after one with pairs. -/
def ConfigFile.NoneEmptyAfter (cfg : ConfigFile) : Prop :=
  cfg.allSections.Pairwise fun sec sec' => sec.noPairs = false → sec'.noPairs = false

theorem dropWhile_eq_filter {α : Type} {p : α → Bool} {l : List α}
    (h : l.Pairwise fun a b => p a = false → p b = false) :
    l.dropWhile p = l.filter fun a => !p a := by
  induction h with
  | nil => rfl
  | @cons a l ha _ ih =>
    rw [List.dropWhile_cons, List.filter_cons]
    cases hpa : p a with
    | true => simpa using ih
    | false =>
      have hall : l.filter (fun b => !p b) = l :=
        List.filter_eq_self.2 fun b hb => by simp [ha b hb hpa]
      simp [hall]

theorem pairwise_of_length {α : Type} {p : α → Bool} {l : List α}
    (h : (l.dropWhile p).length = (l.filter fun a => !p a).length) :
    l.Pairwise fun a b => p a = false → p b = false := by
  induction l with
  | nil => exact List.Pairwise.nil
  | cons a l ih =>
    rw [List.dropWhile_cons, List.filter_cons] at h
    cases hpa : p a with
    | true =>
      simp only [hpa, if_true, Bool.not_true, Bool.false_eq_true, if_false] at h
      exact List.pairwise_cons.2 ⟨fun b _ hf => absurd (hpa.symm.trans hf) (by decide), ih h⟩
    | false =>
      simp only [hpa, Bool.false_eq_true, if_false, Bool.not_false, if_true, List.length_cons,
        Nat.add_right_cancel_iff] at h
      have hall : ∀ b ∈ l, p b = false := fun b hb => by
        simpa using List.length_filter_eq_length_iff.1 h.symm b hb
      refine List.pairwise_cons.2 ⟨fun b hb _ => hall b hb, ?_⟩
      exact List.pairwise_of_forall_mem_list fun b _ b' hb' _ => hall b' hb'

/-- **When sections are independent.**  `tunnel_create` is called for the sections with
pairs, and for no other, exactly when no section without pairs comes after one with
pairs. -/
theorem sections_iff {T : Type} (create : ℕ → TunnelParams → CreateOutcome T) (listAdd : ℕ → Bool)
    (n : Int) (cfg : ConfigFile) (hcreate : ∀ k params, ∃ t, create k params = .created t)
    (hadd : ∀ k, listAdd k = true) (haccepted : cfg.Accepted) :
    (parseEvents create listAdd { defaultNumQueues := n } cfg.events).ending = .ret true ∧
      ((parseEvents create listAdd { defaultNumQueues := n } cfg.events).state.calls =
          (cfg.allSections.filter fun sec => !sec.noPairs).map (Section.params n) ↔
        cfg.NoneEmptyAfter) := by
  have hcommits := calls_parseEvents create listAdd n cfg
  have hret := hcommits.ok haccepted fun k params _ _ => ⟨hcreate k params, hadd k⟩
  refine ⟨hret, ?_⟩
  rw [hcommits.all hret, List.nil_append]
  constructor
  · intro hcalls
    have hlen := congrArg List.length hcalls
    rw [List.length_map, List.length_map] at hlen
    exact pairwise_of_length hlen
  · intro h
    rw [dropWhile_eq_filter h]

/-- Two sections with one pair each, the second with a value that replaces another. -/
theorem sections_two : ∃ cfg : ConfigFile, cfg.NoneEmptyAfter ∧
    (parseEvents (fun _ _ => .created ()) (fun _ => true) { defaultNumQueues := 4 } cfg.events).state.calls =
      [{ numQueues := 4, bindPort := 1234, tunnelName := some "a".toList },
       { numQueues := 4, bindPort := 6, tunnelName := some "b".toList }] := by
  refine ⟨⟨[], [("a".toList, [("bind_port".toList, "1234".toList)]),
    ("b".toList, [("bind_port".toList, "5".toList), ("bind_port".toList, "6".toList)])]⟩, ?_, ?_⟩
  · unfold ConfigFile.NoneEmptyAfter
    decide
  · refine ((sections_iff _ _ 4 _ (fun _ _ => ⟨(), rfl⟩) (fun _ => rfl) ?_).2.2 ?_).trans ?_
    · decide
    · unfold ConfigFile.NoneEmptyAfter
      decide
    · decide +kernel

/-- **A tunnel for a section without pairs.**  A section that says nothing, after one that
says something, is created as well. -/
theorem sections_fails : ∃ cfg : ConfigFile, cfg.Accepted ∧
    (parseEvents (fun _ _ => .created ()) (fun _ => true) { defaultNumQueues := 4 } cfg.events).state.calls ≠
      (cfg.allSections.filter fun sec => !sec.noPairs).map (Section.params 4) := by
  refine ⟨⟨[], [("a".toList, [("bind_port".toList, "1234".toList)]), ("b".toList, [])]⟩, ?_, ?_⟩
  · decide
  · decide +kernel

end UdpEthTunnel
