/-
# What a configuration can say

Whatever stands in a file, the parameters that `tunnel_create` gets from it are well
formed (`wellFormed_of_calls`): every text is one word without NUL, `;` or, but for the
name, brackets, the host has no colon, there is no port without a host, every number
fits an `int`, and the tunnel has a name.

A property `N` of names and a property `V` of values go through the parser and the
callback together (`paramsOf_of_calls`); the rest is what `parseLine` tells
(`parseLine_header`, `parseLine_pair`).
-/

import UdpEthTunnel.Config.Sections
import UdpEthTunnel.Config.Values

namespace UdpEthTunnel

/-- A text without blanks, NUL, `;` or any of `bad`. -/
def Clean (bad : List Char) (s : CStr) : Prop :=
  ∀ c ∈ s, isWhitespace c = false ∧ c ≠ nul ∧ c ≠ ';' ∧ c ∉ bad

/-- A number that fits an `int`. -/
def IsInt (i : Int) : Prop := -2 ^ 31 ≤ i ∧ i < 2 ^ 31

/-- Parameters whose name, if there is one, has the property `N`, and whose texts have
the property `V`. -/
structure ParamsOf (N V : CStr → Prop) (p : TunnelParams) : Prop where
  tunnelName : ∀ s ∈ p.tunnelName, N s
  bindIface : ∀ s ∈ p.bindIface, V s
  tapBaseName : ∀ s ∈ p.tapBaseName, V s
  bridgeName : ∀ s ∈ p.bridgeName, V s
  allowedRemoteHosts : ∀ s ∈ p.allowedRemoteHosts, V s
  postExec : ∀ s ∈ p.postExec, V s
  defaultRemoteHost : ∀ s ∈ p.defaultRemoteHost, V s ∧ ':' ∉ s
  noPort : p.defaultRemoteHost = none → p.defaultRemotePort = 0
  numQueues : IsInt p.numQueues
  bindPort : IsInt p.bindPort
  mtu : IsInt p.mtu
  defaultRemotePort : IsInt p.defaultRemotePort

/-- What the callback is told. -/
def EventOf (N V : CStr → Prop) : ConfigEvent → Prop
  | .pair _ value => V value
  | .header name => N name
  | .endOfFile => True

/-- **Well-formed parameters of a tunnel.** -/
structure WellFormed (p : TunnelParams) : Prop where
  name : p.tunnelName.isSome = true
  params : ParamsOf (Clean []) (Clean ['[', ']']) p

instance (bad : List Char) (s : CStr) : Decidable (Clean bad s) := List.decidableBAll _ s

instance (i : Int) : Decidable (IsInt i) := inferInstanceAs (Decidable (_ ∧ _))

theorem isInt_atoi (s : CStr) : IsInt (atoi s) := by
  have hlow := BitVec.le_toInt (BitVec.ofInt 32 (strtol s))
  have hhigh := BitVec.toInt_lt (x := BitVec.ofInt 32 (strtol s))
  exact ⟨hlow, hhigh⟩

/-- A `[` before the comment of a line has no `]` before it. -/
def OpensFirst (line : CStr) : Prop :=
  '[' ∈ cutComment line → ']' ∉ (cutComment line).takeWhile (· != '[')

instance (line : CStr) : Decidable (OpensFirst line) := inferInstanceAs (Decidable (_ → _))

/-! ### Lines -/

section Line

variable {line : CStr}

/-- What is cut from a line before its comment starts the line. -/
theorem cutComment_isPrefix (line : CStr) : cutComment line <+: line :=
  (List.takeWhile_prefix _).trans (List.takeWhile_prefix _)

theorem semicolon_not_mem_cutComment (line : CStr) : ';' ∉ cutComment line := by
  intro h
  simpa using List.mem_takeWhile_imp h

/-- Trimming only leaves out. -/
theorem trimWhitespace_sublist (s : CStr) : (trimWhitespace s).Sublist s :=
  (List.takeWhile_sublist _).trans (List.dropWhile_sublist _)

/-- A trimmed part of a line without the characters `bad` is clean. -/
theorem clean_trimWhitespace {bad : List Char} {s : CStr} (hsub : s.Sublist (cutComment line))
    (hbad : ∀ c ∈ bad, c ∉ s) : Clean bad (trimWhitespace s) := by
  have hnul : nul ∉ s := fun h => nul_not_mem_cutComment line (hsub.subset h)
  intro c hc
  obtain ⟨hblank, hne⟩ := whole_trimWhitespace hnul c hc
  have hmem : c ∈ s := (trimWhitespace_sublist s).subset hc
  refine ⟨hblank, hne, ?_, fun hb => hbad c hb hmem⟩
  rintro rfl
  exact semicolon_not_mem_cutComment line (hsub.subset hmem)

/-- A text that gets a NUL ends there. -/
theorem cString_set {s : CStr} (hnul : nul ∉ s) (k : ℕ) : cString (s.set k nul) = s.take k := by
  unfold cString
  induction s generalizing k with
  | nil => simp
  | cons c s ih =>
    rw [List.mem_cons, not_or] at hnul
    cases k with
    | zero => simp
    | succ k =>
      have hc : (c != nul) = true := bne_iff_ne.2 (Ne.symm hnul.1)
      rw [List.set_cons_succ, List.takeWhile_cons, if_pos hc, ih hnul.2, List.take_succ_cons]

/-- The name in a header stands in the line, before its `]` if that comes after the `[`. -/
theorem headerName {s : CStr} (hnul : nul ∉ s) {i j : ℕ} :
    (cString (((s.set i nul).set j nul).drop (i + 1))).Sublist s ∧
      (i < j → cString (((s.set i nul).set j nul).drop (i + 1)) <:+ s.take j) := by
  rcases Nat.lt_or_ge i j with hlt | hge
  · have hset : ((s.set i nul).set j nul).drop (i + 1) = (s.drop (i + 1)).set (j - (i + 1)) nul := by
      rw [List.drop_set, if_neg (by omega), List.drop_set_of_lt (by omega)]
    have hname : cString (((s.set i nul).set j nul).drop (i + 1)) = (s.take j).drop (i + 1) := by
      rw [hset, cString_set fun h => hnul (List.mem_of_mem_drop h), List.take_drop]
      congr 2
      omega
    rw [hname]
    exact ⟨(List.drop_sublist _ _).trans (List.take_sublist _ _), fun _ => List.drop_suffix _ _⟩
  · have hset : ((s.set i nul).set j nul).drop (i + 1) = s.drop (i + 1) := by
      rw [List.drop_set_of_lt (by omega), List.drop_set_of_lt (by omega)]
    rw [hset]
    exact ⟨(List.takeWhile_sublist _).trans (List.drop_sublist _ _), fun h => by omega⟩

/-- Where a character first stands. -/
theorem of_strchr {s : CStr} {c : Char} {i : ℕ} (h : strchr s c = some i) :
    s[i]? = some c ∧ s.take i = s.takeWhile (· != c) := by
  obtain ⟨hlt, hc, -⟩ := List.findIdx?_eq_some_iff_getElem.1 h
  refine ⟨List.getElem?_eq_some_iff.2 ⟨hlt, eq_of_beq hc⟩, ?_⟩
  rcases strchr_cases s c with ⟨-, hnone⟩ | ⟨-, j, hj, htake, -⟩
  · rw [h] at hnone
    cases hnone
  · obtain rfl : j = i := Option.some.inj (hj.symm.trans h)
    exact htake

theorem not_mem_of_strchr {s : CStr} {c : Char} (h : strchr s c = none) : c ∉ s := by
  rcases strchr_cases s c with ⟨hnot, -⟩ | ⟨-, j, hj, -⟩
  · exact hnot
  · rw [h] at hj
    cases hj

/-- Before the first occurrence there is none. -/
theorem not_mem_takeWhile_ne (s : CStr) (c : Char) : c ∉ s.takeWhile (· != c) := by
  intro h
  simpa using List.mem_takeWhile_imp h

/-- What a header tells. -/
theorem parseLine_header {name : CStr} (h : parseLine line = .event (.header name)) :
    Clean [] name ∧ name.Sublist line ∧ (OpensFirst line → ']' ∉ name) := by
  unfold parseLine at h
  dsimp only at h
  split at h
  case h_2 =>
    split at h
    · cases h
    · split_ifs at h
  case h_3 => cases h
  case h_1 i j hi hj =>
    cases h
    obtain ⟨hsub, hbefore⟩ := headerName (nul_not_mem_cutComment line) (i := i) (j := j)
    refine ⟨clean_trimWhitespace hsub nofun,
      ((trimWhitespace_sublist _).trans hsub).trans (cutComment_isPrefix line).sublist,
      fun horder hmem => ?_⟩
    obtain ⟨hopen, htake⟩ := of_strchr hi
    obtain ⟨hclose, htake'⟩ := of_strchr hj
    -- the first `]` stands after the first `[`
    have hlt : i < j := by
      by_contra hle
      have hnot := horder (List.mem_of_getElem? hopen)
      rw [← htake] at hnot
      obtain ⟨hjlt, hjc⟩ := List.getElem?_eq_some_iff.1 hclose
      rcases Nat.lt_or_ge j i with hji | hij
      · exact hnot (List.mem_take_iff_getElem.2 ⟨j, by omega, hjc⟩)
      · obtain rfl : i = j := by omega
        rw [hopen] at hclose
        exact absurd hclose (by decide)
    have hmem' := (hbefore hlt).subset ((trimWhitespace_sublist _).subset hmem)
    rw [htake'] at hmem'
    exact not_mem_takeWhile_ne _ _ hmem'

/-- What a pair tells. -/
theorem parseLine_pair {key value : CStr} (h : parseLine line = .event (.pair key value)) :
    Clean ['=', '[', ']'] key ∧ Clean ['[', ']'] value ∧ value.Sublist line := by
  unfold parseLine at h
  dsimp only at h
  split at h
  case h_1 => cases h
  case h_3 => cases h
  case h_2 hopen hclose =>
    have hnoOpen := not_mem_of_strchr hopen
    have hnoClose := not_mem_of_strchr hclose
    split at h
    case h_2 => split_ifs at h
    case h_1 i hi =>
      cases h
      have htake := List.take_sublist i (cutComment line)
      have hdrop := List.drop_sublist (i + 1) (cutComment line)
      have hkey : '=' ∉ (cutComment line).take i := by
        rw [(of_strchr hi).2]
        exact not_mem_takeWhile_ne _ _
      refine ⟨clean_trimWhitespace htake fun c hc => ?_, clean_trimWhitespace hdrop fun c hc => ?_,
        ((trimWhitespace_sublist _).trans hdrop).trans (cutComment_isPrefix line).sublist⟩
      · simp only [List.mem_cons, List.not_mem_nil, or_false] at hc
        rcases hc with rfl | rfl | rfl
        · exact hkey
        · exact fun h => hnoOpen (htake.subset h)
        · exact fun h => hnoClose (htake.subset h)
      · simp only [List.mem_cons, List.not_mem_nil, or_false] at hc
        rcases hc with rfl | rfl
        · exact fun h => hnoOpen (hdrop.subset h)
        · exact fun h => hnoClose (hdrop.subset h)

end Line

/-! ### The parser -/

section Parser

variable {σ : Type} {cb : σ → ConfigEvent → Reply σ} {P : ConfigEvent → Prop} {I : σ → Prop}

/-- What a reply keeps, however it ends, and so does the next call. -/
theorem andThen_keeps {r : Reply σ} {f : σ → Reply σ} (hr : I r.state) (hf : ∀ s, I s → I (f s).state) :
    I (r.andThen f).state := by
  by_cases htrue : r.ending = .ret true
  · rw [Reply.andThen_of_true htrue]
    exact hf _ hr
  · rwa [Reply.andThen_of_ne htrue]

/-- **The invariant rule of the parser.**  What the callback keeps, when it is told of what
the lines say, holds at the end. -/
theorem iniParseFile_keeps (hcb : ∀ s e, P e → I s → I (cb s e).state) (hend : P .endOfFile)
    {text : CStr} (hlines : ∀ line ∈ readLines text, ∀ e, parseLine line = .event e → P e) {s : σ}
    (hs : I s) : I (iniParseFile cb s text).state := by
  refine andThen_keeps ?_ fun s => hcb s _ hend
  generalize readLines text = lines at hlines
  induction lines generalizing s with
  | nil => exact hs
  | cons line lines ih =>
    rw [iniParseLines_cons]
    rw [List.forall_mem_cons] at hlines
    refine andThen_keeps ?_ fun s hs => ih hs hlines.2
    unfold handleLine
    cases hline : parseLine line with
    | event e => exact hcb s e (hlines.1 e hline) hs
    | silent => exact hs
    | refused => exact hs

end Parser

/-! ### The callback -/

section Callback

variable {N V : CStr → Prop}

theorem ParamsOf.empty : ParamsOf N V {} := by
  refine ⟨nofun, nofun, nofun, nofun, nofun, nofun, nofun, fun _ => rfl, ?_, ?_, ?_, ?_⟩ <;> decide

theorem ParamsOf.ite {c : Prop} [Decidable c] {x y : TunnelParams × Bool} (hx : ParamsOf N V x.1)
    (hy : ParamsOf N V y.1) : ParamsOf N V (if c then x else y).1 := by
  by_cases h : c
  · rwa [if_pos h]
  · rwa [if_neg h]

/-- **A value that is stored.** -/
theorem ParamsOf.setParam {p : TunnelParams} (h : ParamsOf N V p)
    (htake : ∀ s k, V s → V (s.take k)) (key : CStr) {value : CStr} (hv : V value) :
    ParamsOf N V (setParam p key value).1 := by
  have hvalue : ∀ s ∈ some value, V s := fun s hs => Option.some.inj hs ▸ hv
  have hatoi := isInt_atoi value
  unfold UdpEthTunnel.setParam
  refine .ite ?_ (.ite ?_ (.ite ?_ (.ite ?_ (.ite ?_ (.ite ?_ (.ite ?_ (.ite ?_ (.ite ?_ h))))))))
  · exact { h with bindIface := hvalue }
  · exact { h with bindPort := hatoi }
  · cases hcolon : strchr value ':' with
    | none =>
      refine { h with defaultRemoteHost := fun s hs => ?_, noPort := nofun }
      obtain rfl := Option.some.inj hs
      exact ⟨hv, not_mem_of_strchr hcolon⟩
    | some colon =>
      refine { h with defaultRemoteHost := fun s hs => ?_, noPort := nofun,
                      defaultRemotePort := isInt_atoi _ }
      obtain rfl := Option.some.inj hs
      refine ⟨htake _ _ hv, ?_⟩
      rw [(of_strchr hcolon).2]
      exact not_mem_takeWhile_ne _ _
  · exact { h with numQueues := hatoi }
  · exact { h with tapBaseName := hvalue }
  · exact { h with bridgeName := hvalue }
  · exact { h with mtu := hatoi }
  · exact { h with allowedRemoteHosts := hvalue }
  · exact { h with postExec := hvalue }

variable {T : Type} {create : ℕ → TunnelParams → CreateOutcome T} {listAdd : ℕ → Bool}

/-- The invariant of the callback: the parameters that are being read, and those that
`tunnel_create` has got, say what they may. -/
structure SaysOnly (N V : CStr → Prop) (s : ConfigParseState T) : Prop where
  defaultNumQueues : IsInt s.defaultNumQueues
  params : ParamsOf N V s.params
  calls : ∀ p ∈ s.calls, p.tunnelName.isSome = true ∧ ParamsOf N V p

theorem SaysOnly.commitTunnel {s : ConfigParseState T} (h : SaysOnly N V s)
    (hdefault : N "default".toList) : SaysOnly N V (commitTunnel create listAdd s).state := by
  have hname : (withName s.params).tunnelName.isSome = true ∧ ParamsOf N V (withName s.params) := by
    unfold withName
    split_ifs with hnone
    · refine ⟨rfl, { h.params with tunnelName := fun s hs => ?_ }⟩
      exact Option.some.inj hs ▸ hdefault
    · exact ⟨Option.isSome_iff_ne_none.2 hnone, h.params⟩
  have hcalls : ∀ p ∈ s.calls ++ [withName s.params], p.tunnelName.isSome = true ∧ ParamsOf N V p := by
    intro p hp
    rcases List.mem_append.1 hp with hp | hp
    · exact h.calls p hp
    · exact List.mem_singleton.1 hp ▸ hname
  unfold UdpEthTunnel.commitTunnel
  cases s.seenValues with
  | false => exact h
  | true =>
    rw [if_pos rfl]
    dsimp only
    split
    · exact ⟨h.defaultNumQueues, hname.2, hcalls⟩
    · exact ⟨h.defaultNumQueues, hname.2, hcalls⟩
    · exact ⟨h.defaultNumQueues, .empty, hcalls⟩
    · split_ifs <;> exact ⟨h.defaultNumQueues, .empty, hcalls⟩

/-- **The callback says what it is told.** -/
theorem SaysOnly.configParseEvent {s : ConfigParseState T} (h : SaysOnly N V s)
    (htake : ∀ s k, V s → V (s.take k)) (hdefault : N "default".toList) {e : ConfigEvent}
    (he : EventOf N V e) : SaysOnly N V (configParseEvent create listAdd s e).state := by
  cases e with
  | pair key value => exact ⟨h.defaultNumQueues, h.params.setParam htake key he, h.calls⟩
  | header name =>
    refine andThen_keeps (h.commitTunnel hdefault) fun s hs => ⟨hs.defaultNumQueues, ?_, hs.calls⟩
    exact { hs.params with tunnelName := fun s hs => Option.some.inj hs ▸ he,
                           numQueues := hs.defaultNumQueues }
  | endOfFile => exact h.commitTunnel hdefault

/-- **What is said of the lines is said of the tunnels.** -/
theorem paramsOf_of_calls (create : ℕ → TunnelParams → CreateOutcome T) (listAdd : ℕ → Bool)
    (htake : ∀ s k, V s → V (s.take k)) (hdefault : N "default".toList) {n : Int} (hn : IsInt n)
    {text : CStr} (hlines : ∀ line ∈ readLines text, ∀ e, parseLine line = .event e → EventOf N V e) :
    ∀ p ∈ (iniParseFile (configParseEvent create listAdd) { defaultNumQueues := n } text).state.calls,
      p.tunnelName.isSome = true ∧ ParamsOf N V p := by
  have hinit : SaysOnly N V ({ defaultNumQueues := n } : ConfigParseState T) :=
    ⟨hn, .empty, fun _ hp => absurd hp List.not_mem_nil⟩
  exact (iniParseFile_keeps (P := EventOf N V) (I := fun s : ConfigParseState T => SaysOnly N V s)
    (fun s e he hs => hs.configParseEvent htake hdefault he) trivial hlines hinit).calls

end Callback

/-- **Every tunnel of every configuration is well formed**, whatever stands in the file and
whatever becomes of the calls.  `trim_whitespace` leaves one word of a name, a key or a value,
the comment has been cut off before, and brackets make a line a header or have it refused; so
`config_parse_event` hears of nothing else, and `tunnel_create` gets nothing else. -/
theorem wellFormed_of_calls {T : Type} (create : ℕ → TunnelParams → CreateOutcome T)
    (listAdd : ℕ → Bool) (n : Int) (text : CStr) (hn : IsInt n) :
    ∀ p ∈ (iniParseFile (configParseEvent create listAdd) { defaultNumQueues := n } text).state.calls,
      WellFormed p := by
  have hlines : ∀ line ∈ readLines text, ∀ e, parseLine line = .event e →
      EventOf (Clean []) (Clean ['[', ']']) e := by
    intro line _ e he
    cases e with
    | pair key value => exact (parseLine_pair he).2.1
    | header name => exact (parseLine_header he).1
    | endOfFile => trivial
  intro p hp
  obtain ⟨hname, hparams⟩ := paramsOf_of_calls create listAdd
    (fun s k hs c hc => hs c (List.mem_of_mem_take hc)) (by decide) hn hlines p hp
  exact ⟨hname, hparams⟩

/-- A value with a blank, a comment and a bracket after it. -/
theorem wellFormed_of_calls_iface :
    ∃ p ∈ (iniParseFile (configParseEvent (fun _ _ => .created ()) fun _ => true)
        { defaultNumQueues := 8 } "bind_iface = a b ; [x]\n".toList).state.calls,
      p.bindIface = some "a".toList ∧ WellFormed p := by
  have hiface : (iniParseFile (configParseEvent (fun _ _ => .created ()) fun _ => true)
      { defaultNumQueues := 8 } "bind_iface = a b ; [x]\n".toList).state.calls.any
        (fun p => p.bindIface == some "a".toList) = true := by decide +kernel
  obtain ⟨p, hp, hbind⟩ := List.any_eq_true.1 hiface
  exact ⟨p, hp, eq_of_beq hbind, wellFormed_of_calls (fun _ _ => .created ()) (fun _ => true) 8
    "bind_iface = a b ; [x]\n".toList (by decide) p hp⟩

end UdpEthTunnel
