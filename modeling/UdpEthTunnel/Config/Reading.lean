/-
# The configuration that a text is

What `ini_parse_file` tells of a text does not depend on the callback: the events of its lines,
up to the first that is refused, and the end of the file if none is (`told`).  These are the
events of a configuration (`readConfig`).  So `tunnel_create` is called for the sections of
that configuration, whatever the text is (`calls_isPrefix`).
-/

import UdpEthTunnel.Config.Render

namespace UdpEthTunnel

/-! ### What is told of a text -/

/-- The events of the lines of a text, up to the first that is refused. -/
def told (text : CStr) : List ConfigEvent := (acceptedLines (readLines text)).flatMap lineEvent

/-- No line is refused. -/
def allAccepted (text : CStr) : Bool := (readLines text).all fun line => parseLine line != .refused

section Told

variable {σ : Type} {cb : σ → ConfigEvent → Reply σ}

theorem tellEvents_append (s : σ) (es es' : List ConfigEvent) :
    tellEvents cb s (es ++ es') = (tellEvents cb s es).andThen fun s => tellEvents cb s es' := by
  induction es generalizing s with
  | nil => rfl
  | cons e es ih =>
    rw [List.cons_append, tellEvents, tellEvents, andThen_assoc]
    exact congrArg _ (funext ih)

theorem andThen_ret_true (r : Reply σ) : (r.andThen fun s => ⟨.ret true, s⟩) = r := by
  by_cases h : r.ending = .ret true
  · rw [Reply.andThen_of_true h, ← h]
  · rw [Reply.andThen_of_ne h]

/-- What a callback makes of lines. -/
theorem iniParseLines_told (lines : List CStr) (s : σ) : iniParseLines cb s lines =
    (tellEvents cb s ((acceptedLines lines).flatMap lineEvent)).andThen fun s =>
      ⟨.ret (lines.all fun line => parseLine line != .refused), s⟩ := by
  induction lines generalizing s with
  | nil => rfl
  | cons line lines ih =>
    unfold acceptedLines at ih ⊢
    rw [iniParseLines_cons, handleLine, List.takeWhile_cons, List.all_cons]
    cases hline : parseLine line with
    | event e =>
      have hevent : lineEvent line = [e] := by simp [lineEvent, hline]
      simp only [bne_iff_ne, ne_eq, reduceCtorEq, not_false_eq_true, if_pos, List.flatMap_cons,
        hevent, List.singleton_append, tellEvents]
      rw [andThen_assoc]
      refine congrArg _ (funext fun s => ?_)
      rw [ih]
      rfl
    | silent =>
      have hevent : lineEvent line = [] := by simp [lineEvent, hline]
      simp only [bne_iff_ne, ne_eq, reduceCtorEq, not_false_eq_true, if_pos, List.flatMap_cons,
        hevent, List.nil_append]
      rw [Reply.andThen_of_true rfl, ih]
      rfl
    | refused => rfl

/-- **What a callback makes of a text** is what it makes of the events that are told. -/
theorem iniParseFile_told (s : σ) (text : CStr) : iniParseFile cb s text =
    (tellEvents cb s (told text)).andThen fun s =>
      if allAccepted text then cb s .endOfFile else ⟨.ret false, s⟩ := by
  unfold iniParseFile
  rw [iniParseLines_told, andThen_assoc]
  refine congrArg _ (funext fun s => ?_)
  unfold allAccepted
  cases (readLines text).all fun line => parseLine line != .refused <;> rfl

end Told

/-! ### The configuration -/

/-- The pairs up to the next header. -/
def leadingPairs : List ConfigEvent → List (CStr × CStr)
  | .pair key value :: es => (key, value) :: leadingPairs es
  | _ => []

/-- The sections that have a header. -/
def namedSections : List ConfigEvent → List (CStr × List (CStr × CStr))
  | [] => []
  | .header name :: es => (name, leadingPairs es) :: namedSections es
  | _ :: es => namedSections es

/-- **The configuration that a text is.** -/
def readConfig (text : CStr) : ConfigFile := ⟨leadingPairs (told text), namedSections (told text)⟩

/-- The sections that tunnels are created for. -/
def ConfigFile.tunnels (cfg : ConfigFile) : List Section := cfg.allSections.dropWhile Section.noPairs

/-- A line does not say that the file ends. -/
theorem parseLine_ne_endOfFile (line : CStr) : parseLine line ≠ .event .endOfFile := by
  unfold parseLine
  dsimp only
  split
  · exact nofun
  · split
    · exact nofun
    · split_ifs <;> exact nofun
  · exact nofun

theorem endOfFile_not_mem_told (text : CStr) : ConfigEvent.endOfFile ∉ told text := by
  intro hmem
  obtain ⟨line, -, he⟩ := List.mem_flatMap.1 hmem
  unfold lineEvent at he
  cases hline : parseLine line with
  | event e =>
    rw [hline] at he
    obtain rfl := List.mem_singleton.1 he
    exact parseLine_ne_endOfFile line hline
  | silent =>
    rw [hline] at he
    cases he
  | refused =>
    rw [hline] at he
    cases he

/-- **The events of the configuration are those that are told.** -/
theorem body_readConfig (text : CStr) : (readConfig text).body = told text := by
  have hevents : ∀ es : List ConfigEvent, ConfigEvent.endOfFile ∉ es →
      (ConfigFile.mk (leadingPairs es) (namedSections es)).body = es := by
    intro es
    induction es with
    | nil => exact fun _ => rfl
    | cons e es ih =>
      intro h
      obtain ⟨hne, hes⟩ := not_or.1 (mt List.mem_cons.2 h)
      have hrest := ih hes
      cases e with
      | pair key value => exact congrArg (ConfigEvent.pair key value :: ·) hrest
      | header name => exact congrArg (ConfigEvent.header name :: ·) hrest
      | endOfFile => exact absurd rfl hne
  exact hevents _ (endOfFile_not_mem_told text)

/-! ### The calls of `tunnel_create` -/

section Calls

variable {T : Type} {create : ℕ → TunnelParams → CreateOutcome T} {listAdd : ℕ → Bool}

theorem calls_of_commit (s : ConfigParseState T) :
    s.calls <+: (commitTunnel create listAdd s).state.calls := by
  unfold commitTunnel
  cases s.seenValues with
  | false => exact List.prefix_rfl
  | true =>
    rw [if_pos rfl]
    dsimp only
    split
    · exact List.prefix_append _ _
    · exact List.prefix_append _ _
    · exact List.prefix_append _ _
    · split_ifs <;> exact List.prefix_append _ _

/-- A call that has been made is not taken back. -/
theorem calls_of_event (s : ConfigParseState T) (e : ConfigEvent) :
    s.calls <+: (configParseEvent create listAdd s e).state.calls := by
  cases e with
  | pair key value => exact List.prefix_rfl
  | header name =>
    show s.calls <+: ((commitTunnel create listAdd s).andThen _).state.calls
    by_cases htrue : (commitTunnel create listAdd s).ending = .ret true
    · rw [Reply.andThen_of_true htrue]
      exact calls_of_commit s
    · rw [Reply.andThen_of_ne htrue]
      exact calls_of_commit s
  | endOfFile => exact calls_of_commit s

/-- **What `tunnel_create` is called for**, whatever the text is: the sections of its
configuration from the first one with pairs on, in order, and all of them when the text is
accepted. -/
theorem calls_isPrefix (create : ℕ → TunnelParams → CreateOutcome T) (listAdd : ℕ → Bool) (n : Int)
    (text : CStr) :
    let r := iniParseFile (configParseEvent create listAdd) { defaultNumQueues := n } text
    let sections := (readConfig text).tunnels.map (Section.params n)
    r.state.calls <+: sections ∧ (r.ending = .ret true → r.state.calls = sections) := by
  have hcommits := calls_parseEvents create listAdd n (readConfig text)
  have hevents : (readConfig text).events = told text ++ [.endOfFile] := by
    unfold ConfigFile.events
    rw [body_readConfig]
  rw [hevents, ← tellEvents_configParseEvent, tellEvents_append] at hcommits
  have hend : ∀ s : ConfigParseState T, tellEvents (configParseEvent create listAdd) s [.endOfFile] =
      configParseEvent create listAdd s .endOfFile := fun s => andThen_ret_true _
  simp only [hend] at hcommits
  have hfront := hcommits.isPrefix
  have hall := hcommits.all
  rw [List.nil_append] at hfront hall
  rw [iniParseFile_told]
  dsimp only
  cases hacc : allAccepted text with
  | true => exact ⟨hfront, hall⟩
  | false =>
    generalize tellEvents (configParseEvent create listAdd) { defaultNumQueues := n }
      (told text) = r at hfront ⊢
    by_cases htrue : r.ending = .ret true
    · rw [Reply.andThen_of_true htrue] at hfront ⊢
      exact ⟨(calls_of_event r.state .endOfFile).trans hfront, nofun⟩
    · rw [Reply.andThen_of_ne htrue] at hfront ⊢
      exact ⟨hfront, fun h => absurd h htrue⟩

end Calls

end UdpEthTunnel
