/-
# The values that reach the callback

What a line `key=value` says: a key and a value, each without the blanks around it
(`pairKey`, `pairValue`).  `trim_whitespace` stops at the first blank inside, so the
callback is told of them (`Delivered`) exactly when neither holds a blank, nor a NUL, and
no line before is refused (`delivered_iff`).
-/

import UdpEthTunnel.Config.Ini

namespace UdpEthTunnel

/-- What stands before the comment of a line. -/
def beforeComment (line : CStr) : CStr := line.takeWhile (· != ';')

/-- A text without the blanks around it. -/
def trimBlanks (s : CStr) : CStr := (s.dropWhile isWhitespace).rdropWhile isWhitespace

def pairKey (line : CStr) : CStr := trimBlanks ((beforeComment line).takeWhile (· != '='))

def pairValue (line : CStr) : CStr := trimBlanks ((beforeComment line).dropWhile (· != '=')).tail

/-- A line of the form `key=value`, with no brackets before its comment. -/
def IsPair (line : CStr) : Prop :=
  '=' ∈ beforeComment line ∧ '[' ∉ beforeComment line ∧ ']' ∉ beforeComment line

/-- A text with no blank and no NUL in it. -/
def Whole (s : CStr) : Prop := ∀ c ∈ s, isWhitespace c = false ∧ c ≠ nul

instance (line : CStr) : Decidable (IsPair line) := inferInstanceAs (Decidable (_ ∧ _))

instance (s : CStr) : Decidable (Whole s) := List.decidableBAll _ s

/-- A callback that returns true whatever it is told. -/
def AcceptsAll {σ : Type} (cb : σ → ConfigEvent → Reply σ) : Prop :=
  ∀ s e, (cb s e).ending = .ret true

/-- **The callback is told once of a pair**, in its place: after the lines before and before the
lines after.  A callback that accepts what it is told is told of it in every run. -/
structure Delivered (text : CStr) (before : List CStr) (pair : ConfigEvent) (after : List CStr) :
    Prop where
  reached : ∀ (σ : Type) (cb : σ → ConfigEvent → Reply σ) (s : σ), AcceptsAll cb →
    (iniParseLines cb s before).ending = .ret true
  told : ∀ (σ : Type) (cb : σ → ConfigEvent → Reply σ) (s : σ), iniParseFile cb s text =
    ((iniParseLines cb s before).andThen fun s => cb s pair).andThen
      fun s => (iniParseLines cb s after).andThen fun s => cb s .endOfFile

/-! ### Trimming -/

/-- Only blanks are trimmed. -/
theorem mem_trimBlanks {s : CStr} {c : Char} (hc : c ∈ s) (hb : isWhitespace c = false) :
    c ∈ trimBlanks s := by
  have hdrop : c ∈ s.dropWhile isWhitespace := by
    rw [← List.takeWhile_append_dropWhile (p := isWhitespace) (l := s)] at hc
    refine (List.mem_append.1 hc).resolve_left fun htake => ?_
    rw [List.mem_takeWhile_imp htake] at hb
    cases hb
  unfold trimBlanks
  rw [← List.rdropWhile_append_rtakeWhile (p := isWhitespace) (l := s.dropWhile _)] at hdrop
  refine (List.mem_append.1 hdrop).resolve_right fun htake => ?_
  rw [List.mem_rtakeWhile_imp htake] at hb
  cases hb

theorem takeWhile_of_blank_after {s t : CStr} (hs : ∀ c ∈ s, isWhitespace c = false)
    (ht : ∀ c ∈ t, isWhitespace c = true) : (s ++ t).takeWhile (fun c => !isWhitespace c) = s := by
  rw [List.takeWhile_append_of_pos fun c hc => by rw [hs c hc]; rfl]
  cases t with
  | nil => simp
  | cons c t => simp [ht c List.mem_cons_self]

/-- Where there is no blank inside, `trim_whitespace` trims. -/
theorem trimWhitespace_of_whole {s : CStr} (h : Whole (trimBlanks s)) :
    trimWhitespace s = trimBlanks s := by
  have hsplit := List.rdropWhile_append_rtakeWhile (p := isWhitespace) (l := s.dropWhile isWhitespace)
  unfold trimWhitespace
  rw [← hsplit]
  exact takeWhile_of_blank_after (fun c hc => (h c hc).1) fun c hc => List.mem_rtakeWhile_imp hc

/-- What `trim_whitespace` leaves has no blank, and no NUL if there was none. -/
theorem whole_trimWhitespace {s : CStr} (h : nul ∉ s) : Whole (trimWhitespace s) := by
  intro c hc
  refine ⟨by simpa using List.mem_takeWhile_imp hc, fun hn => h ?_⟩
  exact hn ▸ (List.dropWhile_sublist _).subset ((List.takeWhile_prefix _).subset hc)

/-! ### Lines -/

theorem nul_not_mem_cutComment (line : CStr) : nul ∉ cutComment line := by
  intro h
  have := List.mem_takeWhile_imp ((List.takeWhile_prefix _).subset h)
  simp at this

theorem cutComment_eq (line : CStr) (h : nul ∉ beforeComment line) :
    cutComment line = beforeComment line := by
  have hall : (beforeComment line).takeWhile (· != nul) = beforeComment line :=
    List.takeWhile_eq_self_iff.2 fun c hc => bne_iff_ne.2 fun hn => h (hn ▸ hc)
  unfold beforeComment at hall ⊢
  unfold cutComment cString
  rw [List.takeWhile_takeWhile] at hall ⊢
  rw [← hall]
  exact congrArg (line.takeWhile ·) (funext fun c => by simp only [And.comm])

/-- The parts of a line around its first `=`. -/
theorem parseLine_of_pair {line : CStr} (hopen : '[' ∉ cutComment line) (hclose : ']' ∉ cutComment line)
    (heq : '=' ∈ cutComment line) : parseLine line = .event (.pair
      (trimWhitespace ((cutComment line).takeWhile (· != '=')))
      (trimWhitespace ((cutComment line).dropWhile (· != '=')).tail)) := by
  obtain ⟨-, hnoOpen⟩ := (strchr_cases _ _).resolve_right fun h => hopen h.1
  obtain ⟨-, hnoClose⟩ := (strchr_cases _ _).resolve_right fun h => hclose h.1
  obtain ⟨-, i, hsome, htake, hdrop⟩ := (strchr_cases _ _).resolve_left fun h => h.1 heq
  unfold parseLine
  simp only [hnoOpen, hnoClose, hsome, htake, hdrop]

/-- What is told of a line that is taken for a pair. -/
theorem whole_of_parseLine {line key value : CStr} (h : parseLine line = .event (.pair key value)) :
    Whole key ∧ Whole value := by
  have hnul := nul_not_mem_cutComment line
  unfold parseLine at h
  dsimp only at h
  split at h
  · cases h
  · split at h
    · cases h
      exact ⟨whole_trimWhitespace fun hmem => hnul (List.mem_of_mem_take hmem),
        whole_trimWhitespace fun hmem => hnul (List.mem_of_mem_drop hmem)⟩
    · split_ifs at h
  · cases h

/-- Where key and value are whole, nothing of the line is hidden behind a NUL. -/
theorem nul_not_mem_of_whole {line : CStr} (hkey : Whole (pairKey line))
    (hvalue : Whole (pairValue line)) : nul ∉ beforeComment line := by
  intro hmem
  have hblank : isWhitespace nul = false := by decide
  rw [← List.takeWhile_append_dropWhile (p := (· != '=')) (l := beforeComment line)] at hmem
  rcases List.mem_append.1 hmem with hmem | hmem
  · exact (hkey nul (mem_trimBlanks hmem hblank)).2 rfl
  · cases hdrop : (beforeComment line).dropWhile (· != '=') with
    | nil =>
      rw [hdrop] at hmem
      exact List.not_mem_nil hmem
    | cons c rest =>
      have hhead := List.head_dropWhile_not (l := beforeComment line) (· != '=') (by simp [hdrop])
      simp only [hdrop, List.head_cons] at hhead
      rw [hdrop] at hmem
      rcases List.mem_cons.1 hmem with rfl | hmem
      · exact absurd hhead (by decide)
      · refine (hvalue nul (mem_trimBlanks ?_ hblank)).2 rfl
        rwa [hdrop]

/-- **When a pair is read whole.** -/
theorem parseLine_iff {line : CStr} (h : IsPair line) :
    parseLine line = .event (.pair (pairKey line) (pairValue line)) ↔
      Whole (pairKey line) ∧ Whole (pairValue line) := by
  refine ⟨whole_of_parseLine, fun ⟨hkey, hvalue⟩ => ?_⟩
  have hcut := cutComment_eq line (nul_not_mem_of_whole hkey hvalue)
  obtain ⟨heq, hopen, hclose⟩ := h
  rw [parseLine_of_pair (hcut ▸ hopen) (hcut ▸ hclose) (hcut ▸ heq), hcut,
    trimWhitespace_of_whole hkey, trimWhitespace_of_whole hvalue]
  rfl

/-! ### Files -/

section Files

variable {σ : Type}

/-- A file with a line that is refused is not read on. -/
theorem ending_of_refused {lines : List CStr} (h : ∃ line ∈ lines, parseLine line = .refused)
    (cb : σ → ConfigEvent → Reply σ) (s : σ) :
    (iniParseLines cb s lines).ending ≠ .ret true := by
  induction lines generalizing s with
  | nil => simp at h
  | cons line lines ih =>
    rw [iniParseLines_cons]
    by_cases htrue : (handleLine cb s line).ending = .ret true
    · rw [Reply.andThen_of_true htrue]
      obtain ⟨line', hmem, href⟩ := h
      rcases List.mem_cons.1 hmem with rfl | hmem
      · unfold handleLine at htrue
        rw [href] at htrue
        cases htrue
      · exact ih ⟨line', hmem, href⟩ _
    · rwa [Reply.andThen_of_ne htrue]

/-- A callback that accepts what it is told is told of every line, if none is refused. -/
theorem ending_of_accepts {lines : List CStr} (h : ∀ line ∈ lines, parseLine line ≠ .refused)
    {cb : σ → ConfigEvent → Reply σ} (hcb : AcceptsAll cb) (s : σ) :
    (iniParseLines cb s lines).ending = .ret true := by
  induction lines generalizing s with
  | nil => rfl
  | cons line lines ih =>
    have hline : (handleLine cb s line).ending = .ret true := by
      unfold handleLine
      cases hkind : parseLine line with
      | event e => exact hcb s e
      | silent => rfl
      | refused => exact absurd hkind (h line List.mem_cons_self)
    rw [iniParseLines_cons, Reply.andThen_of_true hline]
    exact ih (fun line hmem => h line (List.mem_cons_of_mem _ hmem)) _

/-- The end of a file, as noted down. -/
theorem exists_log (lines : List CStr) : ∃ told : List ConfigEvent, ∀ log,
    ((iniParseLines noteDown log lines).andThen fun s => noteDown s .endOfFile).state = log ++ told := by
  refine ⟨(acceptedLines lines).flatMap lineEvent ++
    if lines.all fun line => parseLine line != .refused then [.endOfFile] else [], fun log => ?_⟩
  rw [iniParseLines_noteDown]
  cases lines.all fun line => parseLine line != .refused with
  | true => simp [Reply.andThen, noteDown]
  | false => simp [Reply.andThen]

/-- What a line tells is seen from what is noted down of it and the lines after. -/
theorem parseLine_of_noteDown {line : CStr} {after : List CStr} {log : List ConfigEvent}
    {e : ConfigEvent}
    (h : ((handleLine noteDown log line).andThen fun log =>
        (iniParseLines noteDown log after).andThen fun log => noteDown log .endOfFile).state =
      ((noteDown log e).andThen fun log =>
        (iniParseLines noteDown log after).andThen fun log => noteDown log .endOfFile).state) :
    parseLine line = .event e := by
  obtain ⟨told, htold⟩ := exists_log after
  have hright : ((noteDown log e).andThen fun log =>
      (iniParseLines noteDown log after).andThen fun log => noteDown log .endOfFile).state =
        log ++ [e] ++ told := htold _
  unfold handleLine at h
  cases hkind : parseLine line with
  | event e' =>
    rw [hkind] at h
    have hleft : ((iniParseLines noteDown (log ++ [e']) after).andThen
        fun s => noteDown s .endOfFile).state = log ++ [e'] ++ told := htold _
    have hsame : log ++ [e'] ++ told = log ++ [e] ++ told := hleft.symm.trans (h.trans hright)
    rw [List.append_cancel_right_eq, List.append_cancel_left_eq] at hsame
    rw [List.head_eq_of_cons_eq hsame]
  | silent =>
    rw [hkind] at h
    have hlen := congrArg List.length ((htold log).symm.trans (h.trans hright))
    simp only [List.length_append, List.length_singleton] at hlen
    omega
  | refused =>
    rw [hkind] at h
    have hleft : log = log ++ [e] ++ told := h.trans hright
    have hlen := congrArg List.length hleft
    simp only [List.length_append, List.length_singleton] at hlen
    omega

/-- **When values reach the configuration.**  For a line `key=value` of a file with short
lines, `ini_parse_file` tells the callback once of the key and the value, after the lines
before and before the lines after, exactly when no line before is refused and both are whole:
`trim_whitespace` ends a text at its first blank, and a NUL ends the line. -/
theorem delivered_iff (text line : CStr) (before after : List CStr)
    (hshort : ∀ line ∈ physicalLines text, lineLength line < 2047)
    (hsplit : physicalLines text = before ++ line :: after) (hpair : IsPair line) :
    Delivered text before (.pair (pairKey line) (pairValue line)) after ↔
      (∀ line ∈ before, parseLine line ≠ .refused) ∧
        Whole (pairKey line) ∧ Whole (pairValue line) := by
  have hfile : ∀ (σ : Type) (cb : σ → ConfigEvent → Reply σ) (s : σ), iniParseFile cb s text =
      ((iniParseLines cb s before).andThen fun s => handleLine cb s line).andThen
        fun s => (iniParseLines cb s after).andThen fun s => cb s .endOfFile := by
    intro σ cb s
    unfold iniParseFile
    rw [readLines_eq_physicalLines hshort, hsplit, iniParseLines_append]
    simp only [iniParseLines_cons, andThen_assoc]
  constructor
  · intro h
    -- what is noted down of the two sides
    have hreached := h.reached _ noteDown [] fun _ _ => rfl
    have hnote := congrArg Reply.state ((hfile _ noteDown []).symm.trans (h.told _ noteDown []))
    rw [iniParseLines_noteDown] at hreached hnote
    injection hreached with hbefore
    rw [hbefore] at hnote
    refine ⟨fun line hline => ?_, (parseLine_iff hpair).1 (parseLine_of_noteDown hnote)⟩
    exact bne_iff_ne.1 (List.all_eq_true.1 hbefore line hline)
  · rintro ⟨hbefore, hwhole⟩
    refine ⟨fun σ cb s hcb => ending_of_accepts hbefore hcb s, fun σ cb s => ?_⟩
    rw [hfile]
    unfold handleLine
    rw [(parseLine_iff hpair).2 hwhole]

end Files

/-- A bridge name with blanks around it. -/
theorem delivered_bridgeName :
    iniParseFile noteDown [] "bridge_name = br0 ; the bridge\n".toList =
      ⟨.ret true, [.pair "bridge_name".toList "br0".toList, .endOfFile]⟩ := by
  have hwhole : Whole (pairKey "bridge_name = br0 ; the bridge\n".toList) ∧
      Whole (pairValue "bridge_name = br0 ; the bridge\n".toList) := by
    constructor <;> decide +kernel
  have hdelivered := (delivered_iff "bridge_name = br0 ; the bridge\n".toList
    "bridge_name = br0 ; the bridge\n".toList [] [] (by decide +kernel) (by decide +kernel)
    (by decide +kernel)).2 ⟨by simp, hwhole⟩
  rw [hdelivered.told]
  rfl

/-- **A value that is cut at its first blank.**  Of a command with arguments only the
command is left. -/
theorem delivered_fails : ∃ text line : CStr,
    (∀ line ∈ physicalLines text, lineLength line < 2047) ∧
    physicalLines text = [line] ∧ IsPair line ∧ pairValue line = "ip link".toList ∧
    iniParseFile noteDown [] text = ⟨.ret true, [.pair "post_exec".toList "ip".toList, .endOfFile]⟩ ∧
    ¬ Delivered text [] (.pair (pairKey line) (pairValue line)) [] := by
  have hvalue : pairValue "post_exec=ip link\n".toList = "ip link".toList := by decide
  have hpair : IsPair "post_exec=ip link\n".toList := by decide
  have hfile : iniParseFile noteDown [] "post_exec=ip link\n".toList =
      ⟨.ret true, [.pair "post_exec".toList "ip".toList, .endOfFile]⟩ := rfl
  refine ⟨_, _, by decide, by decide, hpair, hvalue, hfile, fun h => ?_⟩
  have htold := (h.told _ noteDown []).symm.trans hfile
  rw [hvalue] at htold
  exact absurd (congrArg Reply.state htold) (by decide)

end UdpEthTunnel
