/-
# Writing a configuration down

A list of tunnels as the text of a configuration (`renderTunnels`): a header and a line
for each parameter.  The parser reads it back: `tunnel_create` is called for these
tunnels, in this order (`calls_renderTunnels`).

So every configuration with short lines, whose headers open a bracket before they close
one, has a normal form: written down again, the tunnels it creates are the same
(`normalForm`).
-/

import UdpEthTunnel.Config.Classify
import UdpEthTunnel.Config.WellFormed
import UdpEthTunnel.Net.Tap

namespace UdpEthTunnel

/-- The line of an event. -/
def eventLine : ConfigEvent → CStr
  | .pair key value => key ++ '=' :: (value ++ ['\n'])
  | .header name => '[' :: (name ++ [']', '\n'])
  | .endOfFile => []

def render (es : List ConfigEvent) : CStr := es.flatMap eventLine

/-- An event whose line is read back. -/
def Printable (e : ConfigEvent) : Prop :=
  (eventLine e).length ≤ 2047 ∧ match e with
    | .pair key value => Clean ['=', '[', ']'] key ∧ Clean ['[', ']'] value
    | .header name => Clean [']'] name
    | .endOfFile => False

/-- The line of a text, if there is one. -/
def textPair (key : String) (value : Option CStr) : List (CStr × CStr) :=
  (value.map fun v => (key.toList, v)).toList

namespace TunnelParams

/-- The lines of the parameters. -/
def pairs (p : TunnelParams) : List (CStr × CStr) :=
  ("num_queues".toList, decimalInt p.numQueues) :: ("bind_port".toList, decimalInt p.bindPort) ::
    ("mtu".toList, decimalInt p.mtu) ::
    (textPair "default_endpoint"
        (p.defaultRemoteHost.map fun host => host ++ ':' :: decimalInt p.defaultRemotePort) ++
      (textPair "bind_iface" p.bindIface ++ (textPair "tap_base_name" p.tapBaseName ++
        (textPair "bridge_name" p.bridgeName ++
          (textPair "allowed_remote_hosts" p.allowedRemoteHosts ++
            textPair "post_exec" p.postExec)))))

/-- The section of a tunnel. -/
def toSection (p : TunnelParams) : CStr × List (CStr × CStr) := (p.tunnelName.getD [], p.pairs)

/-- Parameters that can be written down. -/
structure Writable (p : TunnelParams) : Prop where
  wellFormed : WellFormed p
  name : ∀ s ∈ p.tunnelName, ']' ∉ s
  short : ∀ e ∈ sectionEvents p.toSection, (eventLine e).length ≤ 2047

end TunnelParams

/-- **The configuration of a list of tunnels.** -/
def renderTunnels (ps : List TunnelParams) : CStr :=
  render (ps.flatMap fun p => sectionEvents p.toSection)

/-! ### Numbers -/

theorem atoi_decimalInt {i : Int} (h : IsInt i) : atoi (decimalInt i) = i := by
  obtain ⟨hlow, hhigh⟩ := h
  unfold decimalInt
  split_ifs with hneg
  · have hstrtol : strtol ('-' :: decimal i.natAbs) = i := by
      have hlead := leadingDigits_decimal i.natAbs
      unfold strtol
      rw [List.dropWhile_cons_of_neg (by decide)]
      show max (-2 ^ 63) (-(leadingDigits (decimal i.natAbs) : Int)) = i
      rw [hlead]
      omega
    unfold atoi
    rw [hstrtol, BitVec.toInt_ofInt, Int.bmod_eq_of_le (by omega) (by omega)]
  · rw [atoi_decimal (by omega)]
    omega

/-- A number is written with digits and a sign. -/
theorem clean_decimalInt (i : Int) : Clean ['[', ']'] (decimalInt i) := by
  have hdigit : ∀ c : Char, c.isDigit = true →
      isWhitespace c = false ∧ c ≠ nul ∧ c ≠ ';' ∧ c ∉ ['[', ']'] := by
    intro c hc
    have hne : ∀ d : Char, d.isDigit = false → c ≠ d := by
      rintro d hd rfl
      rw [hc] at hd
      cases hd
    have h₁ := hne ' ' (by decide)
    have h₂ := hne '\t' (by decide)
    have h₃ := hne '\n' (by decide)
    have h₄ := hne '\r' (by decide)
    refine ⟨by simp [isWhitespace, h₁, h₂, h₃, h₄], hne _ (by decide), hne _ (by decide), ?_⟩
    have h₅ := hne '[' (by decide)
    have h₆ := hne ']' (by decide)
    simp [h₅, h₆]
  intro c hc
  unfold decimalInt at hc
  split_ifs at hc
  · rcases List.mem_cons.1 hc with rfl | hc
    · decide
    · exact hdigit c (isDigit_of_mem_decimal hc)
  · exact hdigit c (isDigit_of_mem_decimal hc)

/-! ### Lines -/

section Lines

variable {e : ConfigEvent} {es : List ConfigEvent} {σ : Type} {cb : σ → ConfigEvent → Reply σ}

theorem trimWhitespace_append {s t : CStr} (hs : ∀ c ∈ s, isWhitespace c = false)
    (ht : ∀ c ∈ t, isWhitespace c = true) : trimWhitespace (s ++ t) = s := by
  unfold trimWhitespace
  cases s with
  | nil =>
    rw [List.nil_append, List.dropWhile_eq_nil_iff.2 ht]
    rfl
  | cons c s =>
    rw [List.cons_append, List.dropWhile_cons_of_neg (by simp [hs c List.mem_cons_self])]
    exact takeWhile_of_blank_after hs ht

theorem trimWhitespace_clean {bad : List Char} {s : CStr} (h : Clean bad s) : trimWhitespace s = s := by
  have htrim := trimWhitespace_append (t := []) (fun c hc => (h c hc).1) nofun
  rwa [List.append_nil] at htrim

/-- A line without comment and NUL is not cut. -/
theorem cutComment_of_clean {line : CStr} (h : ∀ c ∈ line, c ≠ nul ∧ c ≠ ';') :
    cutComment line = line := by
  have hnul : cString line = line := List.takeWhile_eq_self_iff.2 fun c hc => bne_iff_ne.2 (h c hc).1
  unfold cutComment
  rw [hnul]
  exact List.takeWhile_eq_self_iff.2 fun c hc => bne_iff_ne.2 (h c hc).2

theorem takeWhile_ne_append {s t : CStr} {c : Char} (h : c ∉ s) :
    (s ++ c :: t).takeWhile (· != c) = s ∧ (s ++ c :: t).dropWhile (· != c) = c :: t := by
  have hall : ∀ x ∈ s, (x != c) = true := fun x hx => bne_iff_ne.2 fun hxc => h (hxc ▸ hx)
  rw [List.takeWhile_append_of_pos hall, List.dropWhile_append_of_pos hall]
  simp

/-- **The line of a pair.** -/
theorem parseLine_pairLine {key value : CStr} (hkey : Clean ['=', '[', ']'] key)
    (hvalue : Clean ['[', ']'] value) :
    parseLine (eventLine (.pair key value)) = .event (.pair key value) := by
  have hchars : ∀ c ∈ eventLine (.pair key value), (c ≠ nul ∧ c ≠ ';') ∧ c ≠ '[' ∧ c ≠ ']' := by
    intro c hc
    rcases List.mem_append.1 hc with hc | hc
    · obtain ⟨-, hnul, hsemi, hbad⟩ := hkey c hc
      simp only [List.mem_cons, List.not_mem_nil, or_false, not_or] at hbad
      exact ⟨⟨hnul, hsemi⟩, hbad.2⟩
    · rcases List.mem_cons.1 hc with rfl | hc
      · decide
      rcases List.mem_append.1 hc with hc | hc
      · obtain ⟨-, hnul, hsemi, hbad⟩ := hvalue c hc
        simp only [List.mem_cons, List.not_mem_nil, or_false, not_or] at hbad
        exact ⟨⟨hnul, hsemi⟩, hbad⟩
      · rw [List.mem_singleton.1 hc]
        decide
  have hcut := cutComment_of_clean fun c hc => (hchars c hc).1
  have hopen : '[' ∉ eventLine (.pair key value) := fun h => (hchars _ h).2.1 rfl
  have hclose : ']' ∉ eventLine (.pair key value) := fun h => (hchars _ h).2.2 rfl
  have heq : '=' ∈ eventLine (.pair key value) := List.mem_append_right _ List.mem_cons_self
  have hnoEq : '=' ∉ key := fun h => (hkey _ h).2.2.2 List.mem_cons_self
  obtain ⟨htake, hdrop⟩ := takeWhile_ne_append (t := value ++ ['\n']) hnoEq
  rw [parseLine_of_pair (by rwa [hcut]) (by rwa [hcut]) (by rwa [hcut]), hcut]
  unfold eventLine
  rw [htake, hdrop, List.tail_cons, trimWhitespace_clean hkey,
    trimWhitespace_append (fun c hc => (hvalue c hc).1) (by simp [isWhitespace])]

/-- **The line of a header.** -/
theorem parseLine_headerLine {name : CStr} (hname : Clean [']'] name) :
    parseLine (eventLine (.header name)) = .event (.header name) := by
  have hchars : ∀ c ∈ eventLine (.header name), c ≠ nul ∧ c ≠ ';' := by
    intro c hc
    rcases List.mem_cons.1 hc with rfl | hc
    · decide
    rcases List.mem_append.1 hc with hc | hc
    · exact ⟨(hname c hc).2.1, (hname c hc).2.2.1⟩
    · simp only [List.mem_cons, List.not_mem_nil, or_false] at hc
      rcases hc with rfl | rfl <;> decide
  have hnoClose : ∀ c ∈ '[' :: name, (c == ']') = false := by
    intro c hc
    rcases List.mem_cons.1 hc with rfl | hc
    · decide
    · exact beq_eq_false_iff_ne.2 fun h => (hname c hc).2.2.2 (List.mem_singleton.2 h)
  have hopen : strchr (eventLine (.header name)) '[' = some 0 := by
    unfold strchr eventLine
    rw [List.findIdx?_cons, if_pos (by decide)]
  have hclose : strchr (eventLine (.header name)) ']' = some (name.length + 1) := by
    have hsplit : eventLine (.header name) = ('[' :: name) ++ [']', '\n'] := rfl
    have hfirst : (('[' :: name).findIdx? fun x => x == ']') = none :=
      List.findIdx?_eq_none_iff.2 hnoClose
    unfold strchr
    rw [hsplit, List.findIdx?_append, hfirst, List.findIdx?_cons, if_pos (by decide)]
    exact congrArg some (Nat.zero_add _)
  have hset : (((eventLine (.header name)).set 0 nul).set (name.length + 1) nul).drop (0 + 1) =
      (name ++ [']', '\n']).set name.length nul := rfl
  have hnul : nul ∉ name ++ [']', '\n'] := fun h => (hchars _ (List.mem_cons_of_mem _ h)).1 rfl
  unfold parseLine
  simp only [cutComment_of_clean hchars, hopen, hclose]
  rw [hset, cString_set hnul, List.take_left, trimWhitespace_clean hname]

theorem parseLine_eventLine (h : Printable e) : parseLine (eventLine e) = .event e := by
  obtain ⟨-, h⟩ := h
  cases e with
  | pair key value => exact parseLine_pairLine h.1 h.2
  | header name => exact parseLine_headerLine h
  | endOfFile => exact h.elim

/-- A printed line ends with its only newline. -/
theorem eventLine_eq (h : Printable e) : ∃ body, '\n' ∉ body ∧ eventLine e = body ++ ['\n'] := by
  have hne : ∀ {bad s}, Clean bad s → '\n' ∉ s := fun hs hmem => absurd (hs _ hmem).1 (by decide)
  obtain ⟨-, h⟩ := h
  cases e with
  | pair key value =>
    refine ⟨key ++ '=' :: value, ?_, by simp [eventLine]⟩
    simp [hne h.1, hne h.2]
  | header name =>
    refine ⟨'[' :: (name ++ [']']), ?_, by simp [eventLine]⟩
    simp [hne h]
  | endOfFile => exact h.elim

theorem readLines_render (h : ∀ e ∈ es, Printable e) : readLines (render es) = es.map eventLine := by
  induction es with
  | nil => rfl
  | cons e es ih =>
    obtain ⟨he, hes⟩ := List.forall_mem_cons.1 h
    obtain ⟨body, hbody, hline⟩ := eventLine_eq he
    have hlen := he.1
    rw [hline, List.length_append, List.length_singleton] at hlen
    have hisLine : IsLine (render (e :: es)) [] (eventLine e) (render es) :=
      ⟨rfl, .inl rfl, body, hbody, by omega, .inl hline⟩
    rw [readLines_isLine hisLine, ih hes]
    rfl

/-- The callback is told of these events, until it does not return `true`. -/
def tellEvents (cb : σ → ConfigEvent → Reply σ) (s : σ) : List ConfigEvent → Reply σ
  | [] => ⟨.ret true, s⟩
  | e :: es => (cb s e).andThen fun s => tellEvents cb s es

/-- **What is written down is read back**, by every callback. -/
theorem iniParseFile_render (cb : σ → ConfigEvent → Reply σ) (s : σ) (h : ∀ e ∈ es, Printable e) :
    iniParseFile cb s (render es) = tellEvents cb s (es ++ [.endOfFile]) := by
  unfold iniParseFile
  rw [readLines_render h]
  induction es generalizing s with
  | nil =>
    show cb s .endOfFile = (cb s .endOfFile).andThen fun s => ⟨.ret true, s⟩
    by_cases htrue : (cb s .endOfFile).ending = .ret true
    · rw [Reply.andThen_of_true htrue, ← htrue]
    · rw [Reply.andThen_of_ne htrue]
  | cons e es ih =>
    obtain ⟨he, hes⟩ := List.forall_mem_cons.1 h
    have hline : handleLine cb s (eventLine e) = cb s e := by
      unfold handleLine
      rw [parseLine_eventLine he]
    rw [List.map_cons, iniParseLines_cons, hline, andThen_assoc]
    exact congrArg _ (funext fun s => ih s hes)

theorem tellEvents_configParseEvent {T : Type} (create : ℕ → TunnelParams → CreateOutcome T)
    (listAdd : ℕ → Bool) (s : ConfigParseState T) (es : List ConfigEvent) :
    tellEvents (configParseEvent create listAdd) s es = parseEvents create listAdd s es := by
  induction es generalizing s with
  | nil => rfl
  | cons e es ih => exact congrArg _ (funext ih)

end Lines

/-! ### Tunnels -/

section Tunnels

variable {p : TunnelParams} {ps : List TunnelParams}

theorem lastValue_cons (key k v : CStr) (pairs : List (CStr × CStr)) :
    lastValue key ((k, v) :: pairs) =
      (lastValue key pairs).or (if k = key then some v else none) := by
  unfold lastValue
  rw [List.filter_cons]
  by_cases h : k = key
  · simp only [h, decide_true, if_true]
    cases hlast : (pairs.filter fun p => p.1 = key).getLast? with
    | none => simp [List.getLast?_eq_none_iff.1 hlast]
    | some x => simp [List.getLast?_cons, hlast]
  · simp [h]

theorem lastValue_textPair (key : CStr) (k : String) (value : Option CStr) (pairs : List (CStr × CStr)) :
    lastValue key (textPair k value ++ pairs) =
      (lastValue key pairs).or (if k.toList = key then value else none) := by
  cases value with
  | none => simp [textPair]
  | some v => exact lastValue_cons key k.toList v pairs

theorem lastValue_textPair_self (key : CStr) (k : String) (value : Option CStr) :
    lastValue key (textPair k value) = if k.toList = key then value else none := by
  have h := lastValue_textPair key k value []
  rwa [List.append_nil] at h

/-- What stands under each key. -/
theorem lastValue_pairs (p : TunnelParams) :
    lastValue "num_queues".toList p.pairs = some (decimalInt p.numQueues) ∧
    lastValue "bind_port".toList p.pairs = some (decimalInt p.bindPort) ∧
    lastValue "mtu".toList p.pairs = some (decimalInt p.mtu) ∧
    lastValue "default_endpoint".toList p.pairs =
      p.defaultRemoteHost.map (fun host => host ++ ':' :: decimalInt p.defaultRemotePort) ∧
    lastValue "bind_iface".toList p.pairs = p.bindIface ∧
    lastValue "tap_base_name".toList p.pairs = p.tapBaseName ∧
    lastValue "bridge_name".toList p.pairs = p.bridgeName ∧
    lastValue "allowed_remote_hosts".toList p.pairs = p.allowedRemoteHosts ∧
    lastValue "post_exec".toList p.pairs = p.postExec := by
  unfold TunnelParams.pairs
  simp only [lastValue_cons, lastValue_textPair, lastValue_textPair_self]
  refine ⟨?_, ?_, ?_, ?_, ?_, ?_, ?_, ?_, ?_⟩ <;> simp +decide

/-- **The parameters are what is written down**, whatever the default number of queues. -/
theorem params_toSection (h : WellFormed p) (n : Int) : Section.params n (.ofNamed p.toSection) = p := by
  obtain ⟨hname, hparams⟩ := h
  obtain ⟨name, hsome⟩ := Option.isSome_iff_exists.1 hname
  obtain ⟨hqueues, hport, hmtu, hendpoint, hiface, htap, hbridge, hallowed, hexec⟩ := lastValue_pairs p
  have hhost : (p.defaultRemoteHost.map fun host => host ++ ':' :: decimalInt p.defaultRemotePort).map
      endpointHost = p.defaultRemoteHost := by
    rw [Option.map_map]
    cases hdef : p.defaultRemoteHost with
    | none => rfl
    | some host =>
      exact congrArg some (takeWhile_ne_append (hparams.defaultRemoteHost host hdef).2).1
  have hremote : ((p.defaultRemoteHost.map fun host =>
      host ++ ':' :: decimalInt p.defaultRemotePort).map endpointPort).getD 0 = p.defaultRemotePort := by
    rw [Option.map_map]
    cases hdef : p.defaultRemoteHost with
    | none => exact (hparams.noPort hdef).symm
    | some host =>
      show endpointPort (host ++ ':' :: decimalInt p.defaultRemotePort) = _
      unfold endpointPort
      rw [(takeWhile_ne_append (hparams.defaultRemoteHost host hdef).2).2, List.tail_cons]
      exact atoi_decimalInt hparams.defaultRemotePort
  unfold Section.params Section.ofNamed TunnelParams.toSection
  dsimp only
  rw [hqueues, hport, hmtu, hendpoint, hiface, htap, hbridge, hallowed, hexec, hhost, hremote, hsome]
  simp only [Option.map_some, Option.getD_some, atoi_decimalInt hparams.numQueues,
    atoi_decimalInt hparams.bindPort, atoi_decimalInt hparams.mtu]
  rw [← hsome]

/-- A text is accepted under a key that is not that of the endpoint. -/
theorem accepts_textPair {k : String} {value : Option CStr} {x : CStr × CStr}
    (hx : x ∈ textPair k value) (hk : ∀ v, Accepts k.toList v) : Accepts x.1 x.2 := by
  obtain ⟨v, -, rfl⟩ := Option.map_eq_some_iff.1 (Option.mem_toList.1 hx)
  exact hk v

/-- Every line of a tunnel is accepted. -/
theorem accepts_pairs (p : TunnelParams) : ∀ x ∈ p.pairs, Accepts x.1 x.2 := by
  intro x hx
  unfold TunnelParams.pairs at hx
  simp only [List.mem_cons, List.mem_append] at hx
  rcases hx with rfl | rfl | rfl | hx | hx | hx | hx | hx | hx
  · exact show Accepts "num_queues".toList _ from ⟨by decide, fun h => absurd h (by decide)⟩
  · exact show Accepts "bind_port".toList _ from ⟨by decide, fun h => absurd h (by decide)⟩
  · exact show Accepts "mtu".toList _ from ⟨by decide, fun h => absurd h (by decide)⟩
  · obtain ⟨v, hv, rfl⟩ := Option.map_eq_some_iff.1 (Option.mem_toList.1 hx)
    obtain ⟨host, -, rfl⟩ := Option.map_eq_some_iff.1 hv
    exact ⟨show "default_endpoint".toList ∈ _ by decide, fun _ => by simp⟩
  · exact accepts_textPair hx fun v => ⟨by decide, fun h => absurd h (by decide)⟩
  · exact accepts_textPair hx fun v => ⟨by decide, fun h => absurd h (by decide)⟩
  · exact accepts_textPair hx fun v => ⟨by decide, fun h => absurd h (by decide)⟩
  · exact accepts_textPair hx fun v => ⟨by decide, fun h => absurd h (by decide)⟩
  · exact accepts_textPair hx fun v => ⟨by decide, fun h => absurd h (by decide)⟩

/-- Every line of a tunnel is clean. -/
theorem clean_pairs (h : WellFormed p) :
    ∀ x ∈ p.pairs, Clean ['=', '[', ']'] x.1 ∧ Clean ['[', ']'] x.2 := by
  obtain ⟨-, hparams⟩ := h
  have htext : ∀ {k : String} {value : Option CStr} {x : CStr × CStr}, x ∈ textPair k value →
      Clean ['=', '[', ']'] k.toList → (∀ s ∈ value, Clean ['[', ']'] s) →
      Clean ['=', '[', ']'] x.1 ∧ Clean ['[', ']'] x.2 := by
    intro k value x hx hk hvalue
    obtain ⟨v, hv, rfl⟩ := Option.map_eq_some_iff.1 (Option.mem_toList.1 hx)
    exact ⟨hk, hvalue v hv⟩
  intro x hx
  unfold TunnelParams.pairs at hx
  simp only [List.mem_cons, List.mem_append] at hx
  rcases hx with rfl | rfl | rfl | hx | hx | hx | hx | hx | hx
  · exact ⟨show Clean _ "num_queues".toList by decide, clean_decimalInt _⟩
  · exact ⟨show Clean _ "bind_port".toList by decide, clean_decimalInt _⟩
  · exact ⟨show Clean _ "mtu".toList by decide, clean_decimalInt _⟩
  · refine htext hx (by decide) fun s hs => ?_
    obtain ⟨host, hhost, rfl⟩ := Option.map_eq_some_iff.1 hs
    intro c hc
    rcases List.mem_append.1 hc with hc | hc
    · exact (hparams.defaultRemoteHost host hhost).1 c hc
    · rcases List.mem_cons.1 hc with rfl | hc
      · decide
      · exact clean_decimalInt _ c hc
  · exact htext hx (by decide) hparams.bindIface
  · exact htext hx (by decide) hparams.tapBaseName
  · exact htext hx (by decide) hparams.bridgeName
  · exact htext hx (by decide) hparams.allowedRemoteHosts
  · exact htext hx (by decide) hparams.postExec

/-- Every line of a tunnel is read back. -/
theorem printable_toSection (h : p.Writable) : ∀ e ∈ sectionEvents p.toSection, Printable e := by
  intro e he
  refine ⟨h.short e he, ?_⟩
  rcases List.mem_cons.1 he with rfl | he
  · obtain ⟨name, hsome⟩ := Option.isSome_iff_exists.1 h.wellFormed.name
    show Clean [']'] (p.tunnelName.getD [])
    rw [hsome]
    intro c hc
    obtain ⟨hblank, hnul, hsemi, -⟩ := h.wellFormed.params.tunnelName name hsome c hc
    refine ⟨hblank, hnul, hsemi, fun hmem => ?_⟩
    obtain rfl := List.mem_singleton.1 hmem
    exact h.name name hsome hc
  · obtain ⟨x, hx, rfl⟩ := List.mem_map.1 he
    exact clean_pairs h.wellFormed x hx

/-- The configuration that is written down. -/
def ConfigFile.ofTunnels (ps : List TunnelParams) : ConfigFile := ⟨[], ps.map (·.toSection)⟩

theorem iniParseFile_renderTunnels {T : Type} (create : ℕ → TunnelParams → CreateOutcome T)
    (listAdd : ℕ → Bool) (n : Int) (hw : ∀ p ∈ ps, p.Writable) :
    Commits create listAdd True [] ps
      (iniParseFile (configParseEvent create listAdd) { defaultNumQueues := n } (renderTunnels ps)) := by
  have hprint : ∀ e ∈ ps.flatMap fun p => sectionEvents p.toSection, Printable e := by
    intro e he
    obtain ⟨p, hp, he⟩ := List.mem_flatMap.1 he
    exact printable_toSection (hw p hp) e he
  have hevents : (ps.flatMap fun p => sectionEvents p.toSection) ++ [.endOfFile] =
      (ConfigFile.ofTunnels ps).events := by
    simp [ConfigFile.events, ConfigFile.body, ConfigFile.ofTunnels, List.flatMap_map]
  have hmade : ((ConfigFile.ofTunnels ps).allSections.dropWhile Section.noPairs).map (Section.params n) =
      ps := by
    have hall : (ps.map fun p => Section.ofNamed p.toSection).dropWhile Section.noPairs =
        ps.map fun p => Section.ofNamed p.toSection := by
      cases ps <;> rfl
    have hparams : ps.map (Section.params n ∘ fun p => Section.ofNamed p.toSection) = ps.map id :=
      List.map_congr_left fun p hp => params_toSection (hw p hp).wellFormed n
    unfold ConfigFile.allSections ConfigFile.ofTunnels
    rw [List.map_map]
    show (((ps.map fun p => Section.ofNamed p.toSection).dropWhile Section.noPairs).map _) = _
    rw [hall, List.map_map, hparams, List.map_id]
  have hcommits := calls_parseEvents create listAdd n (ConfigFile.ofTunnels ps)
  rw [hmade, ← hevents, ← tellEvents_configParseEvent] at hcommits
  unfold renderTunnels
  rw [iniParseFile_render _ _ hprint]
  refine { hcommits with ok := fun _ => hcommits.ok fun sec hsec x hx => ?_ }
  rcases List.mem_cons.1 hsec with rfl | hsec
  · cases hx
  · obtain ⟨y, hy, rfl⟩ := List.mem_map.1 hsec
    obtain ⟨p, -, rfl⟩ := List.mem_map.1 hy
    exact accepts_pairs p x hx

/-- **A list of tunnels is read back from its configuration.**  `tunnel_create` gets these
parameters, in this order.  Each call before the last one made has succeeded; and if that one has
too, `ini_parse_file` accepts the configuration, and these are all of them.  So the calls are those
up to and with the first that fails: one that creates no tunnel, or one whose tunnel
`tunnel_list_add` does not take. -/
theorem calls_renderTunnels {T : Type} (create : ℕ → TunnelParams → CreateOutcome T)
    (listAdd : ℕ → Bool) (n : Int) (ps : List TunnelParams) (hw : ∀ p ∈ ps, p.Writable) :
    let r := iniParseFile (configParseEvent create listAdd) { defaultNumQueues := n } (renderTunnels ps)
    r.state.calls <+: ps ∧
    (∀ k p, r.state.calls[k]? = some p → k + 1 < r.state.calls.length →
      CallSucceeds create listAdd k p) ∧
    ((∀ k p, r.state.calls[k]? = some p → CallSucceeds create listAdd k p) ↔
      r.ending = .ret true ∧ r.state.calls = ps) := by
  have hcommits := iniParseFile_renderTunnels create listAdd n hw
  refine ⟨hcommits.isPrefix, fun k p hget hlast =>
    hcommits.succeeded k p (Nat.zero_le k) hget (.inl hlast), fun hall => ?_, fun h k p hget =>
    hcommits.succeeded k p (Nat.zero_le k) hget (.inr h.1)⟩
  have hok := hcommits.ok trivial fun k p _ => hall k p
  exact ⟨hok, hcommits.all hok⟩

/-- A tunnel on four queues that admits a network. -/
def hubParams : TunnelParams :=
  { numQueues := 4, allowedRemoteHosts := some "10.0.0.0/24,fd00::/8".toList, bindPort := 1234,
    tunnelName := some "hub".toList, bridgeName := some "br0".toList }

/-- A tunnel to one host. -/
def spokeParams : TunnelParams :=
  { defaultRemoteHost := some "10.0.0.1".toList, defaultRemotePort := 1234, mtu := -1,
    tunnelName := some "spoke".toList }

/-- A configuration of two tunnels. -/
theorem calls_renderTunnels_two :
    renderTunnels [hubParams, spokeParams] =
      ("[hub]\nnum_queues=4\nbind_port=1234\nmtu=0\nbridge_name=br0\n" ++
        "allowed_remote_hosts=10.0.0.0/24,fd00::/8\n" ++
        "[spoke]\nnum_queues=0\nbind_port=0\nmtu=-1\ndefault_endpoint=10.0.0.1:1234\n").toList ∧
    (iniParseFile (configParseEvent (fun _ _ => .created ()) fun _ => true) { defaultNumQueues := 8 }
      (renderTunnels [hubParams, spokeParams])).state.calls = [hubParams, spokeParams] := by
  refine ⟨by decide +kernel, ((calls_renderTunnels (fun _ _ => .created ()) (fun _ => true) 8
    [hubParams, spokeParams] fun p hp => ?_).2.2.1 fun _ _ _ => ⟨⟨(), rfl⟩, rfl⟩).2⟩
  simp only [List.mem_cons, List.not_mem_nil, or_false] at hp
  rcases hp with rfl | rfl
  · refine ⟨⟨rfl, ?_, nofun, nofun, ?_, ?_, nofun, nofun, fun _ => rfl, by decide, by decide, by decide,
      by decide⟩, ?_, by decide +kernel⟩
    all_goals
      rintro s ⟨⟩
      decide
  · refine ⟨⟨rfl, ?_, nofun, nofun, nofun, nofun, nofun, ?_, nofun, by decide, by decide, by decide,
      by decide⟩, ?_, by decide +kernel⟩
    all_goals
      rintro s ⟨⟩
      decide

end Tunnels

/-! ### Normal forms -/

theorem length_decimalInt {i : Int} (h : IsInt i) : (decimalInt i).length ≤ 11 := by
  obtain ⟨hlow, hhigh⟩ := h
  have hlen : (decimal i.natAbs).length ≤ 10 :=
    (Nat.length_toDigits_le_iff (by omega) (by omega)).2 (by omega)
  unfold decimalInt
  split_ifs
  · rw [List.length_cons]
    omega
  · omega

/-- What is short enough to be written down. -/
def ShortClean (bad : List Char) (s : CStr) : Prop := Clean bad s ∧ s.length ≤ 2000

instance (bad : List Char) (s : CStr) : Decidable (ShortClean bad s) :=
  inferInstanceAs (Decidable (_ ∧ _))

/-- Parameters with short texts can be written down. -/
theorem writable_of_short {p : TunnelParams} (hname : p.tunnelName.isSome = true)
    (h : ParamsOf (ShortClean [']']) (ShortClean ['[', ']']) p) : p.Writable := by
  have hclean : WellFormed p := by
    refine ⟨hname, fun s hs c hc => ?_, fun s hs => (h.bindIface s hs).1, fun s hs => (h.tapBaseName s hs).1,
      fun s hs => (h.bridgeName s hs).1, fun s hs => (h.allowedRemoteHosts s hs).1,
      fun s hs => (h.postExec s hs).1,
      fun s hs => ⟨(h.defaultRemoteHost s hs).1.1, (h.defaultRemoteHost s hs).2⟩, h.noPort, h.numQueues,
      h.bindPort, h.mtu, h.defaultRemotePort⟩
    obtain ⟨hblank, hnul, hsemi, -⟩ := (h.tunnelName s hs).1 c hc
    exact ⟨hblank, hnul, hsemi, List.not_mem_nil⟩
  have htext : ∀ {k : String} {value : Option CStr} {x : CStr × CStr}, x ∈ textPair k value →
      k.toList.length ≤ 20 → (∀ s ∈ value, s.length ≤ 2012) →
      (eventLine (.ofPair x)).length ≤ 2047 := by
    intro k value x hx hk hvalue
    obtain ⟨v, hv, rfl⟩ := Option.map_eq_some_iff.1 (Option.mem_toList.1 hx)
    have hlen := hvalue v hv
    simp only [ConfigEvent.ofPair, eventLine, List.length_append, List.length_cons, List.length_nil]
    omega
  have hnumber : ∀ {k : String} {i : Int}, k.toList.length ≤ 20 → IsInt i →
      (eventLine (.ofPair (k.toList, decimalInt i))).length ≤ 2047 := by
    intro k i hk hi
    have hlen := length_decimalInt hi
    simp only [ConfigEvent.ofPair, eventLine, List.length_append, List.length_cons, List.length_nil]
    omega
  have hle : ∀ {s : CStr}, ShortClean ['[', ']'] s → s.length ≤ 2012 := fun hs => hs.2.trans (by omega)
  refine ⟨hclean, fun s hs hmem => ?_, fun e he => ?_⟩
  · exact ((h.tunnelName s hs).1 _ hmem).2.2.2 List.mem_cons_self
  rcases List.mem_cons.1 he with rfl | he
  · obtain ⟨name, hsome⟩ := Option.isSome_iff_exists.1 hname
    have hlen := (h.tunnelName name hsome).2
    simp only [TunnelParams.toSection, hsome, Option.getD_some, eventLine, List.length_append,
      List.length_cons, List.length_nil]
    omega
  · obtain ⟨x, hx, rfl⟩ := List.mem_map.1 he
    simp only [TunnelParams.toSection, TunnelParams.pairs, List.mem_cons, List.mem_append] at hx
    rcases hx with rfl | rfl | rfl | hx | hx | hx | hx | hx | hx
    · exact hnumber (by decide) h.numQueues
    · exact hnumber (by decide) h.bindPort
    · exact hnumber (by decide) h.mtu
    · refine htext hx (by decide) fun s hs => ?_
      obtain ⟨host, hhost, rfl⟩ := Option.map_eq_some_iff.1 hs
      have hlen := (h.defaultRemoteHost host hhost).1.2
      have hport := length_decimalInt h.defaultRemotePort
      rw [List.length_append, List.length_cons]
      omega
    · exact htext hx (by decide) fun s hs => hle (h.bindIface s hs)
    · exact htext hx (by decide) fun s hs => hle (h.tapBaseName s hs)
    · exact htext hx (by decide) fun s hs => hle (h.bridgeName s hs)
    · exact htext hx (by decide) fun s hs => hle (h.allowedRemoteHosts s hs)
    · exact htext hx (by decide) fun s hs => hle (h.postExec s hs)

/-- A word of a line is no longer than the line. -/
theorem length_of_sublist {bad : List Char} {s line : CStr} (h : Clean bad s) (hsub : s.Sublist line) :
    s.length ≤ lineLength line := by
  have hall : s.filter (· != '\n') = s := List.filter_eq_self.2 fun c hc => bne_iff_ne.2 fun hn => by
    have hblank := (h c hc).1
    rw [hn] at hblank
    exact absurd hblank (by decide)
  have hle := (hsub.filter (· != '\n')).length_le
  rwa [hall] at hle

/-- **A configuration has a normal form.**  Take any file with lines of at most 2000 characters,
whose headers open a bracket before they close one.  The parameters that `config_parse_event`
makes of it can be written down, a header and a line for each parameter; and the parser makes
the same of that text, as long as the calls for it succeed. -/
theorem normalForm {T : Type} (create : ℕ → TunnelParams → CreateOutcome T) (listAdd : ℕ → Bool)
    (n n' : Int) (text : CStr) (hn : IsInt n)
    (hshort : ∀ line ∈ physicalLines text, lineLength line ≤ 2000)
    (horder : ∀ line ∈ physicalLines text, OpensFirst line)
    {T' : Type} (create' : ℕ → TunnelParams → CreateOutcome T') (listAdd' : ℕ → Bool)
    (hcreate : ∀ k p, ∃ t, create' k p = .created t) (hadd : ∀ k, listAdd' k = true) :
    (iniParseFile (configParseEvent create' listAdd') { defaultNumQueues := n' }
        (renderTunnels (iniParseFile (configParseEvent create listAdd) { defaultNumQueues := n }
          text).state.calls)).ending = .ret true ∧
      (iniParseFile (configParseEvent create' listAdd') { defaultNumQueues := n' }
        (renderTunnels (iniParseFile (configParseEvent create listAdd) { defaultNumQueues := n }
          text).state.calls)).state.calls =
        (iniParseFile (configParseEvent create listAdd) { defaultNumQueues := n } text).state.calls := by
  have hlines : ∀ line ∈ readLines text, ∀ e, parseLine line = .event e →
      EventOf (ShortClean [']']) (ShortClean ['[', ']']) e := by
    intro line hline e he
    rw [readLines_eq_physicalLines fun l hl => Nat.lt_of_le_of_lt (hshort l hl) (by omega)] at hline
    cases e with
    | pair key value =>
      obtain ⟨-, hclean, hsub⟩ := parseLine_pair he
      exact ⟨hclean, (length_of_sublist hclean hsub).trans (hshort line hline)⟩
    | header name =>
      obtain ⟨hclean, hsub, hclose⟩ := parseLine_header he
      refine ⟨fun c hc => ?_, (length_of_sublist hclean hsub).trans (hshort line hline)⟩
      obtain ⟨hblank, hnul, hsemi, -⟩ := hclean c hc
      refine ⟨hblank, hnul, hsemi, fun hmem => ?_⟩
      exact hclose (horder line hline) (List.mem_singleton.1 hmem ▸ hc)
    | endOfFile => trivial
  have hcalls := paramsOf_of_calls create listAdd
    (fun s k hs => ⟨fun c hc => hs.1 c (List.mem_of_mem_take hc),
      (List.length_take_le' k s).trans hs.2⟩) (by decide) hn hlines
  have hcommits := iniParseFile_renderTunnels create' listAdd' n'
    fun p hp => writable_of_short (hcalls p hp).1 (hcalls p hp).2
  have hok := hcommits.ok trivial fun k p _ _ => ⟨hcreate k p, hadd k⟩
  exact ⟨hok, hcommits.all hok⟩

/-- A file with comments and blanks, and a value that is replaced. -/
theorem normalForm_spoke :
    (iniParseFile (configParseEvent (fun _ _ => .created ()) fun _ => true) { defaultNumQueues := 8 }
      (renderTunnels (iniParseFile (configParseEvent (fun _ _ => .created ()) fun _ => true)
        { defaultNumQueues := 8 }
        "[ spoke ] ; to the hub\nmtu = 9000\nmtu = 1400\ndefault_endpoint = hub:01234\n".toList).state.calls)).state.calls =
      [{ numQueues := 8, defaultRemoteHost := some "hub".toList, defaultRemotePort := 1234, mtu := 1400,
         tunnelName := some "spoke".toList }] := by
  refine (normalForm (fun _ _ => .created ()) (fun _ => true) 8 8 _ (by decide) (by decide +kernel)
    (by decide +kernel) (fun _ _ => .created ()) (fun _ => true) (fun _ _ => ⟨(), rfl⟩) fun _ => rfl).2.trans ?_
  decide +kernel

end UdpEthTunnel
