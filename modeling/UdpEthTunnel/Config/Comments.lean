/-
# Comments

Two files that differ in their comments only have the same text without them
(`stripComments`).  `fgets` reads a long line in pieces, and a piece in which a comment
goes on is read as a line of its own (`spilled`): comments do not matter as long as
these pieces are silent (`sameReplies`), and a file with one that is not is read
differently (`comments_iff`).
-/

import UdpEthTunnel.Config.Values

namespace UdpEthTunnel

/-- A file without its comments: what follows the first `;` of each line is left out. -/
def stripComments (inComment : Bool) : CStr → CStr
  | [] => []
  | c :: text =>
    if c = '\n' then c :: stripComments false text
    else if inComment then stripComments true text
    else c :: stripComments (c == ';') text

/-- The pieces in which a file is read; with each, whether a comment that began in a
piece before goes on in it. -/
def spillLoop (spilled : Bool) (piece : CStr) : CStr → List (Bool × CStr)
  | [] => if piece = [] then [] else [(spilled, piece)]
  | c :: text =>
    if c = '\n' then (spilled, piece ++ [c]) :: spillLoop false [] text
    else if piece.length + 1 = 2047 then
      (spilled, piece ++ [c]) :: spillLoop (spilled || (piece ++ [c]).contains ';') [] text
    else spillLoop spilled (piece ++ [c]) text

def pieces (text : CStr) : List (Bool × CStr) := spillLoop false [] text

/-- The pieces up to the first that is refused. -/
def reached : List (Bool × CStr) → List (Bool × CStr)
  | [] => []
  | x :: xs => if parseLine x.2 = .refused then [x] else x :: reached xs

/-- Where a comment goes on in a piece of its own, that piece is blank up to its next
`;`: nothing is told of it and it is not refused. -/
def Quiet (text : CStr) : Prop := ∀ x ∈ reached (pieces text), x.1 = true → parseLine x.2 = .silent

instance (text : CStr) : Decidable (Quiet text) := inferInstanceAs (Decidable (∀ _ ∈ _, _))

/-- Two files that are read alike, whoever is told. -/
def SameReplies (f g : CStr) : Prop :=
  ∀ (σ : Type) (cb : σ → ConfigEvent → Reply σ) (s : σ), iniParseFile cb s f = iniParseFile cb s g

/-- No line of the file is refused. -/
def NoneRefused (text : CStr) : Prop := ∀ line ∈ readLines text, parseLine line ≠ .refused

/-- The pieces that are not spilled. -/
def ownPieces (xs : List (Bool × CStr)) : List CStr := (xs.filter fun x => !x.1).map (·.2)

theorem map_snd_spillLoop (spilled : Bool) (piece text : CStr) :
    (spillLoop spilled piece text).map (·.2) = fgetsLoop piece text := by
  induction text generalizing spilled piece with
  | nil =>
    unfold spillLoop fgetsLoop
    split_ifs <;> rfl
  | cons c text ih =>
    unfold spillLoop fgetsLoop
    by_cases hc : c = '\n'
    · rw [if_pos hc, if_pos (.inl hc), List.map_cons, ih]
    · rw [if_neg hc]
      by_cases hfull : piece.length + 1 = 2047
      · rw [if_pos hfull, if_pos (.inr hfull), List.map_cons, ih]
      · rw [if_neg hfull, if_neg (by tauto), ih]

theorem map_snd_pieces (text : CStr) : (pieces text).map (·.2) = readLines text :=
  map_snd_spillLoop ..

/-! ### Quiet files -/

section Quiet

variable {σ : Type}

/-- What is done with lines depends on what they are. -/
theorem iniParseLines_congr (cb : σ → ConfigEvent → Reply σ) {lines lines' : List CStr}
    (h : lines.map parseLine = lines'.map parseLine) (s : σ) :
    iniParseLines cb s lines = iniParseLines cb s lines' := by
  induction lines generalizing lines' s with
  | nil =>
    obtain rfl : lines' = [] := by simpa using h.symm
    rfl
  | cons line lines ih =>
    cases lines' with
    | nil => simp at h
    | cons line' lines' =>
      rw [List.map_cons, List.map_cons] at h
      obtain ⟨hline, hlines⟩ := List.cons.inj h
      rw [iniParseLines_cons, iniParseLines_cons]
      unfold handleLine
      rw [hline]
      exact congrArg _ (funext (ih hlines))

/-- Pieces that are spilled and silent can be left out. -/
theorem iniParseLines_ownPieces (cb : σ → ConfigEvent → Reply σ) {xs : List (Bool × CStr)}
    (h : ∀ x ∈ reached xs, x.1 = true → parseLine x.2 = .silent) (s : σ) :
    iniParseLines cb s (xs.map (·.2)) = iniParseLines cb s (ownPieces xs) := by
  induction xs generalizing s with
  | nil => rfl
  | cons x xs ih =>
    obtain ⟨spilled, piece⟩ := x
    unfold reached at h
    dsimp only at h
    by_cases href : parseLine piece = .refused
    · rw [if_pos href] at h
      cases spilled with
      | true =>
        have hsilent := h _ List.mem_cons_self rfl
        rw [href] at hsilent
        cases hsilent
      | false =>
        have hstop : ∀ lines, iniParseLines cb s (piece :: lines) = ⟨.ret false, s⟩ := fun lines => by
          rw [iniParseLines_cons, handleLine, href]
          rfl
        exact (hstop _).trans (hstop _).symm
    · rw [if_neg href] at h
      have hrest := ih fun x hx => h x (List.mem_cons_of_mem _ hx)
      rw [List.map_cons, iniParseLines_cons]
      cases spilled with
      | true =>
        rw [handleLine, h _ List.mem_cons_self rfl]
        exact hrest s
      | false => exact congrArg _ (funext hrest)

end Quiet

/-! ### What is read of a file besides its comments -/

theorem cutComment_append {line : CStr} (h : ';' ∈ line) (rest : CStr) :
    cutComment (line ++ rest) = cutComment line := by
  unfold cutComment cString
  rw [List.takeWhile_takeWhile, List.takeWhile_takeWhile]
  induction line with
  | nil => cases h
  | cons c line ih =>
    rw [List.cons_append, List.takeWhile_cons, List.takeWhile_cons]
    by_cases hc : c = ';'
    · simp [hc]
    · rw [ih ((List.mem_cons.1 h).resolve_left (Ne.symm hc))]

/-- Two pieces with the same text before their comments. -/
theorem parseLine_congr {line line' : CStr} (h : cutComment line = cutComment line') :
    parseLine line = parseLine line' := by
  unfold parseLine
  rw [h]

/-- What the pieces that are not spilled are. -/
def ownKinds (xs : List (Bool × CStr)) : List LineKind := (ownPieces xs).map parseLine

@[simp] theorem ownKinds_nil : ownKinds [] = [] := rfl

@[simp] theorem ownKinds_true (piece : CStr) (xs : List (Bool × CStr)) :
    ownKinds ((true, piece) :: xs) = ownKinds xs := rfl

@[simp] theorem ownKinds_false (piece : CStr) (xs : List (Bool × CStr)) :
    ownKinds ((false, piece) :: xs) = parseLine piece :: ownKinds xs := rfl

theorem spillLoop_newline (spilled : Bool) (piece text : CStr) :
    spillLoop spilled piece ('\n' :: text) = (spilled, piece ++ ['\n']) :: spillLoop false [] text := rfl

theorem spillLoop_of_ne (spilled : Bool) (piece text : CStr) {c : Char} (hc : c ≠ '\n') :
    spillLoop spilled piece (c :: text) = if piece.length + 1 = 2047 then
      (spilled, piece ++ [c]) :: spillLoop (spilled || (piece ++ [c]).contains ';') [] text
    else spillLoop spilled (piece ++ [c]) text :=
  if_neg hc

/-- Where a comment goes on in a piece of its own, only its newline is left without it. -/
theorem ownKinds_spilled {piece piece' text : CStr}
    (hnext : ownKinds (spillLoop false [] text) = ownKinds (spillLoop false [] (stripComments false text)))
    (hrest : ∀ piece piece', ownKinds (spillLoop true piece text) =
      ownKinds (spillLoop true piece' (stripComments true text))) (c : Char) :
    ownKinds (spillLoop true piece (c :: text)) =
      ownKinds (spillLoop true piece' (stripComments true (c :: text))) := by
  unfold stripComments
  by_cases hc : c = '\n'
  · subst hc
    rw [if_pos rfl, spillLoop_newline, spillLoop_newline, ownKinds_true, ownKinds_true, hnext]
  · rw [if_neg hc, if_pos rfl, spillLoop_of_ne _ _ _ hc]
    split_ifs
    · exact hrest ..
    · exact hrest ..

/-- **What a file is besides its comments.**  The four cases: before the comment of a line,
in it, in it with more of it to come in pieces of its own, and in such a piece. -/
theorem ownKinds_strip (text : CStr) :
    (∀ piece, ';' ∉ piece → ownKinds (spillLoop false piece text) =
      ownKinds (spillLoop false piece (stripComments false text))) ∧
    (∀ piece piece', ';' ∈ piece → ';' ∈ piece' → cutComment piece = cutComment piece' →
      ownKinds (spillLoop false piece text) =
        ownKinds (spillLoop false piece' (stripComments true text))) ∧
    (∀ piece piece', ';' ∈ piece' → parseLine piece' :: ownKinds (spillLoop true piece text) =
      ownKinds (spillLoop false piece' (stripComments true text))) ∧
    ∀ piece piece', ownKinds (spillLoop true piece text) =
      ownKinds (spillLoop true piece' (stripComments true text)) := by
  induction text with
  | nil =>
    have hnil : ∀ spilled piece, spillLoop spilled piece [] =
      if piece = [] then [] else [(spilled, piece)] := fun _ _ => rfl
    have hne : ∀ {piece : CStr}, ';' ∈ piece → piece ≠ [] := fun h => List.ne_nil_of_mem h
    have htrue : ∀ piece, ownKinds (spillLoop true piece []) = [] := fun piece => by
      rw [hnil]
      split_ifs <;> rfl
    refine ⟨fun piece _ => rfl, fun piece piece' h h' hcut => ?_, fun piece piece' h' => ?_,
      fun piece piece' => ?_⟩
    · show ownKinds (spillLoop false piece []) = ownKinds (spillLoop false piece' [])
      rw [hnil, hnil, if_neg (hne h), if_neg (hne h'), ownKinds_false, ownKinds_false,
        parseLine_congr hcut]
    · show _ = ownKinds (spillLoop false piece' [])
      rw [htrue, hnil, if_neg (hne h'), ownKinds_false, ownKinds_nil]
    · rw [htrue]
      exact (htrue piece').symm
  | cons c text ih =>
    obtain ⟨ihBefore, ihIn, ihMore, ihSpilled⟩ := ih
    have hnext := ihBefore [] List.not_mem_nil
    refine ⟨fun piece h => ?_, fun piece piece' h h' hcut => ?_, fun piece piece' h' => ?_,
      fun piece piece' => ownKinds_spilled hnext ihSpilled c⟩
    · unfold stripComments
      by_cases hc : c = '\n'
      · subst hc
        rw [if_pos rfl, spillLoop_newline, spillLoop_newline, ownKinds_false, ownKinds_false, hnext]
      · rw [if_neg hc, if_neg Bool.false_ne_true, spillLoop_of_ne _ _ _ hc, spillLoop_of_ne _ _ _ hc]
        by_cases hsemi : c = ';'
        · -- the comment begins here
          subst hsemi
          have hmem : ';' ∈ piece ++ [';'] := List.mem_append_right _ List.mem_cons_self
          split_ifs
          · rw [ownKinds_false, ownKinds_false, List.contains_iff_mem.2 hmem]
            exact congrArg _ (ihSpilled _ _)
          · exact ihIn _ _ hmem hmem rfl
        · have hmem : ';' ∉ piece ++ [c] := fun hmem => by
            rcases List.mem_append.1 hmem with hmem | hmem
            · exact h hmem
            · exact hsemi (List.mem_singleton.1 hmem).symm
          have hcontains : (piece ++ [c]).contains ';' = false :=
            Bool.eq_false_iff.2 fun hcon => hmem (List.contains_iff_mem.1 hcon)
          rw [beq_false_of_ne hsemi, hcontains]
          split_ifs
          · rw [ownKinds_false, ownKinds_false]
            exact congrArg _ hnext
          · exact ihBefore _ hmem
    · unfold stripComments
      by_cases hc : c = '\n'
      · subst hc
        have hcut' : cutComment (piece ++ ['\n']) = cutComment (piece' ++ ['\n']) := by
          rw [cutComment_append h, cutComment_append h', hcut]
        rw [if_pos rfl, spillLoop_newline, spillLoop_newline, ownKinds_false, ownKinds_false, hnext,
          parseLine_congr hcut']
      · have hmem : ';' ∈ piece ++ [c] := List.mem_append_left _ h
        have hcut' : cutComment (piece ++ [c]) = cutComment piece' := (cutComment_append h _).trans hcut
        rw [if_neg hc, if_pos rfl, spillLoop_of_ne _ _ _ hc]
        split_ifs
        · rw [ownKinds_false, List.contains_iff_mem.2 hmem, parseLine_congr hcut']
          exact ihMore _ _ h'
        · exact ihIn _ _ hmem h' hcut'
    · unfold stripComments
      by_cases hc : c = '\n'
      · subst hc
        rw [if_pos rfl, spillLoop_newline, spillLoop_newline, ownKinds_true, ownKinds_false, hnext,
          parseLine_congr (cutComment_append h' _)]
      · rw [if_neg hc, if_pos rfl, spillLoop_of_ne _ _ _ hc]
        split_ifs
        · exact ihMore _ _ h'
        · exact ihMore _ _ h'

theorem ownKinds_pieces {f g : CStr} (h : stripComments false f = stripComments false g) :
    ownKinds (pieces f) = ownKinds (pieces g) := by
  have hf := (ownKinds_strip f).1 [] List.not_mem_nil
  have hg := (ownKinds_strip g).1 [] List.not_mem_nil
  rw [h] at hf
  exact hf.trans hg.symm

/-! ### Two files -/

/-- **Comments do not matter in quiet files.** -/
theorem sameReplies {f g : CStr} (h : stripComments false f = stripComments false g) (hf : Quiet f)
    (hg : Quiet g) : SameReplies f g := by
  intro σ cb s
  have hlines : iniParseLines cb s (readLines f) = iniParseLines cb s (readLines g) := by
    rw [← map_snd_pieces, ← map_snd_pieces, iniParseLines_ownPieces cb hf, iniParseLines_ownPieces cb hg]
    exact iniParseLines_congr cb (ownKinds_pieces h) s
  unfold iniParseFile
  rw [hlines]

/-- Where leaving out the spilled pieces leaves out no event, they have none. -/
theorem lineEvent_of_length (xs : List (Bool × CStr)) :
    ((ownPieces xs).flatMap lineEvent).length ≤ ((xs.map (·.2)).flatMap lineEvent).length ∧
      (((ownPieces xs).flatMap lineEvent).length = ((xs.map (·.2)).flatMap lineEvent).length →
        ∀ x ∈ xs, x.1 = true → lineEvent x.2 = []) := by
  induction xs with
  | nil => exact ⟨le_rfl, fun _ => nofun⟩
  | cons x xs ih =>
    obtain ⟨hle, heq⟩ := ih
    obtain ⟨spilled, piece⟩ := x
    cases spilled with
    | true =>
      have hown : ownPieces ((true, piece) :: xs) = ownPieces xs := rfl
      rw [hown, List.map_cons, List.flatMap_cons, List.length_append]
      refine ⟨by omega, fun hlen => List.forall_mem_cons.2 ⟨fun _ => ?_, heq (by omega)⟩⟩
      exact List.length_eq_zero_iff.1 (by omega)
    | false =>
      have hown : ownPieces ((false, piece) :: xs) = piece :: ownPieces xs := rfl
      rw [hown, List.map_cons, List.flatMap_cons, List.flatMap_cons, List.length_append,
        List.length_append]
      dsimp only
      exact ⟨by omega, fun hlen => List.forall_mem_cons.2 ⟨nofun, heq (by omega)⟩⟩

theorem reached_subset (xs : List (Bool × CStr)) : reached xs ⊆ xs := by
  induction xs with
  | nil => exact List.Subset.refl _
  | cons x xs ih =>
    unfold reached
    split_ifs
    · exact List.cons_subset_cons _ (List.nil_subset _)
    · exact List.cons_subset_cons _ ih

theorem iniParseLines_accepted {lines : List CStr} (h : ∀ line ∈ lines, parseLine line ≠ .refused)
    (log : List ConfigEvent) :
    iniParseLines noteDown log lines = ⟨.ret true, log ++ lines.flatMap lineEvent⟩ := by
  have hall : ∀ line ∈ lines, (parseLine line != .refused) = true := fun line hline =>
    bne_iff_ne.2 (h line hline)
  rw [iniParseLines_noteDown, List.all_eq_true.2 hall, acceptedLines, List.takeWhile_eq_self_iff.2 hall]

/-- **A comment that matters.**  A file in which all lines are accepted is read differently
once a piece of a comment is not silent. -/
theorem quiet_of_sameReplies {f g : CStr} (h : stripComments false f = stripComments false g)
    (hf : Quiet f) (hnone : NoneRefused f) (hsame : SameReplies f g) : Quiet g := by
  have hnote := hsame _ noteDown []
  unfold iniParseFile at hnote
  rw [iniParseLines_accepted hnone] at hnote
  -- no piece of the second file is refused either
  have hg : ∀ line ∈ readLines g, parseLine line ≠ .refused := by
    intro line hline href
    have hne := ending_of_refused ⟨line, hline, href⟩ noteDown []
    rw [Reply.andThen_of_ne hne] at hnote
    exact hne (congrArg Reply.ending hnote).symm
  have hownRefused : ∀ line ∈ ownPieces (pieces g), parseLine line ≠ .refused := by
    intro line hline
    obtain ⟨x, hx, rfl⟩ := List.mem_map.1 hline
    refine hg _ ?_
    rw [← map_snd_pieces]
    exact List.mem_map_of_mem (List.mem_of_mem_filter hx)
  rw [iniParseLines_accepted hg] at hnote
  -- the first file tells what the second does without its spilled pieces
  have hown : (readLines f).flatMap lineEvent = (ownPieces (pieces g)).flatMap lineEvent := by
    have hlines := iniParseLines_ownPieces noteDown hf []
    rw [map_snd_pieces, iniParseLines_congr noteDown (ownKinds_pieces h),
      iniParseLines_accepted hnone, iniParseLines_accepted hownRefused] at hlines
    exact congrArg Reply.state hlines
  have hall : (readLines f).flatMap lineEvent = (readLines g).flatMap lineEvent :=
    List.append_cancel_right (congrArg Reply.state hnote)
  have hevents := (lineEvent_of_length (pieces g)).2 (by rw [map_snd_pieces, ← hown, hall])
  intro x hx hspilled
  have hmem := reached_subset _ hx
  have hnoEvent := hevents x hmem hspilled
  have hnotRefused := hg x.2 (by rw [← map_snd_pieces]; exact List.mem_map_of_mem hmem)
  unfold lineEvent at hnoEvent
  cases hkind : parseLine x.2 with
  | event e =>
    rw [hkind] at hnoEvent
    cases hnoEvent
  | silent => rfl
  | refused => exact absurd hkind hnotRefused

/-- **When comments do not matter.**  `fgets` reads a line in pieces of at most 2047 characters,
and `ini_parse_file` takes each for a line of its own, also one that lies inside a comment.
Two files that differ in their comments only are read alike, by any callback, if in both
such pieces are silent; and where one is so, with no line refused, only then. -/
theorem comments_iff (f g : CStr) (h : stripComments false f = stripComments false g) :
    (Quiet f → Quiet g → SameReplies f g) ∧
      (Quiet f → NoneRefused f → (SameReplies f g ↔ Quiet g)) :=
  ⟨sameReplies h, fun hf hnone => ⟨quiet_of_sameReplies h hf hnone, sameReplies h hf⟩⟩

/-- Two files with short comments. -/
theorem comments_short : SameReplies "mtu=1400 ; small\n".toList "mtu=1400 ;x=[y]\n".toList :=
  (comments_iff _ _ (by decide)).1 (by decide) (by decide)

theorem stripComments_run {run : CStr} (hrun : '\n' ∉ run) (text : CStr) :
    stripComments true (run ++ text) = stripComments true text := by
  induction run with
  | nil => rfl
  | cons c run ih =>
    rw [List.mem_cons, not_or] at hrun
    rw [List.cons_append, stripComments, if_neg (Ne.symm hrun.1), if_pos rfl, ih hrun.2]

/-- **A comment that sets a parameter.**  What is far enough behind the `;` is read as a
line of its own. -/
theorem comments_fails : ∃ f g : CStr, stripComments false f = stripComments false g ∧
    ¬ SameReplies f g := by
  have hrun : '\n' ∉ List.replicate 2046 'x' := fun hmem =>
    absurd (List.eq_of_mem_replicate hmem) (by decide)
  refine ⟨";\n".toList, ';' :: List.replicate 2046 'x' ++ "mtu=1\n".toList, ?_, fun hsame => ?_⟩
  · show _ = ';' :: stripComments true (List.replicate 2046 'x' ++ "mtu=1\n".toList)
    rw [stripComments_run hrun]
    decide
  · have hlines : readLines (';' :: List.replicate 2046 'x' ++ "mtu=1\n".toList) =
        [';' :: List.replicate 2046 'x', "mtu=1\n".toList] := by
      rw [readLines_full ?_ (by rw [List.length_cons, List.length_replicate])]
      · rfl
      · rw [List.mem_cons, not_or]
        exact ⟨by decide, hrun⟩
    have hcomment : parseLine (';' :: List.replicate 2046 'x') = .silent :=
      (parseLine_congr (cutComment_append (List.mem_singleton_self ';') _)).trans (by decide)
    have hnote := congrArg Reply.state (hsame _ noteDown [])
    unfold iniParseFile at hnote
    rw [hlines, iniParseLines_cons, handleLine, hcomment] at hnote
    exact absurd hnote (by decide)

end UdpEthTunnel
