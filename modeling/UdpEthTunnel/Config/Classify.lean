/-
# What a line is

The grammar of the configuration file: a line is what stands before its comment, a section
header `[name]`, a pair with a `=` in it, or blank; and nothing else (`ShapeOf`).

`ini_parse_file` looks for the first `[` and the first `]` of a line, wherever they stand,
and only then for a `=`.  So a line with both brackets is a header for it, whatever else it
holds, and one with a single bracket is refused even where the bracket belongs to a value;
and a NUL hides the rest of its line (`classified_iff`).
-/

import UdpEthTunnel.Config.Values

namespace UdpEthTunnel

/-- What the callback is told of a line: of a header, of a pair, nothing; or the file is
refused. -/
inductive LineShape where
  | header
  | pair
  | silent
  | refused
deriving DecidableEq, Repr

def LineKind.shape : LineKind → LineShape
  | .event (.header _) => .header
  | .event (.pair _ _) => .pair
  | .event .endOfFile => .refused
  | .silent => .silent
  | .refused => .refused

def Blank (s : CStr) : Prop := ∀ c ∈ s, isWhitespace c = true

/-- Blanks, a name without brackets in its brackets, blanks. -/
def IsHeader (r : CStr) : Prop :=
  ∃ pre name post, r = pre ++ '[' :: (name ++ ']' :: post) ∧ Blank pre ∧ Blank post ∧
    '[' ∉ name ∧ ']' ∉ name

def firstNonBlank (r : CStr) : Option Char := (r.dropWhile isWhitespace).head?

/-- A `=`, and no bracket opens the line. -/
def IsAssignment (r : CStr) : Prop := firstNonBlank r ≠ some '[' ∧ '=' ∈ r

/-- **The grammar of a line**, `r` being what stands before its comment. -/
def ShapeOf (r : CStr) : LineShape → Prop
  | .header => IsHeader r
  | .pair => IsAssignment r
  | .silent => Blank r
  | .refused => ¬ IsHeader r ∧ ¬ IsAssignment r ∧ ¬ Blank r

/-- **The line is no trap**, where `r` is what stands before its comment and its first NUL:
two brackets make a header, a single one does not stand in an assignment, and no NUL hides
what the line is. -/
structure PlainLine (line : CStr) : Prop where
  both : '[' ∈ cutComment line → ']' ∈ cutComment line → IsHeader (cutComment line)
  single : ('[' ∈ cutComment line ↔ ']' ∉ cutComment line) → ¬ IsAssignment (cutComment line)
  nul : ∀ k, ShapeOf (cutComment line) k ↔ ShapeOf (beforeComment line) k

/-! ### The grammar -/

section Grammar

variable {r s : CStr} {k k' : LineShape}

theorem isWhitespace_bracket : isWhitespace '[' = false ∧ isWhitespace ']' = false ∧
    isWhitespace '=' = false := by decide

theorem dropWhile_blank (h : Blank r) (s : CStr) :
    (r ++ s).dropWhile isWhitespace = s.dropWhile isWhitespace := by
  induction r with
  | nil => rfl
  | cons c r ih =>
    rw [List.cons_append, List.dropWhile_cons_of_pos (h c List.mem_cons_self)]
    exact ih fun x hx => h x (List.mem_cons_of_mem _ hx)

theorem firstNonBlank_of_isHeader (h : IsHeader r) : firstNonBlank r = some '[' := by
  obtain ⟨pre, name, post, rfl, hpre, -⟩ := h
  rw [firstNonBlank, dropWhile_blank hpre, List.dropWhile_cons_of_neg (by decide)]
  rfl

/-- What follows does not change the first character that is not blank. -/
theorem firstNonBlank_append (h : ¬ Blank r) (s : CStr) :
    firstNonBlank (r ++ s) = firstNonBlank r := by
  unfold firstNonBlank
  induction r with
  | nil => exact absurd (fun _ hc => absurd hc List.not_mem_nil) h
  | cons c r ih =>
    by_cases hc : isWhitespace c = true
    · rw [List.cons_append, List.dropWhile_cons_of_pos hc, List.dropWhile_cons_of_pos hc]
      refine ih fun hr => h fun x hx => ?_
      rcases List.mem_cons.1 hx with rfl | hx
      · exact hc
      · exact hr x hx
    · rw [List.cons_append, List.dropWhile_cons_of_neg hc, List.dropWhile_cons_of_neg hc]
      rfl

theorem not_blank_of_mem {c : Char} (hc : c ∈ r) (hb : isWhitespace c = false) : ¬ Blank r :=
  fun h => absurd ((h c hc).symm.trans hb) (by decide)

theorem mem_of_isHeader (h : IsHeader r) : '[' ∈ r ∧ ']' ∈ r := by
  obtain ⟨pre, name, post, rfl, -⟩ := h
  simp

/-- A line has one shape at most. -/
theorem shapeOf_unique (h : ShapeOf r k) (h' : ShapeOf r k') : k = k' := by
  have hheader : IsHeader r → ¬ IsAssignment r := fun hh ha =>
    ha.1 (firstNonBlank_of_isHeader hh)
  have hblank : Blank r → ¬ IsHeader r ∧ ¬ IsAssignment r := fun hb =>
    ⟨fun hh => not_blank_of_mem (mem_of_isHeader hh).1 isWhitespace_bracket.1 hb,
      fun ha => not_blank_of_mem ha.2 isWhitespace_bracket.2.2 hb⟩
  cases k <;> cases k' <;> first
    | rfl
    | exact absurd h' (hheader h)
    | exact absurd h (hheader h')
    | exact absurd h (hblank h').1
    | exact absurd h (hblank h').2
    | exact absurd h' (hblank h).1
    | exact absurd h' (hblank h).2
    | exact absurd h h'.1
    | exact absurd h h'.2.1
    | exact absurd h h'.2.2
    | exact absurd h' h.1
    | exact absurd h' h.2.1
    | exact absurd h' h.2.2

/-- A line is what the grammar says exactly when its shape is right. -/
theorem forall_shapeOf_iff : (∀ k', k = k' ↔ ShapeOf r k') ↔ ShapeOf r k := by
  constructor
  · exact fun h => (h k).1 rfl
  · intro h k'
    refine ⟨?_, shapeOf_unique h⟩
    rintro rfl
    exact h

/-- The part of a header that holds its brackets is a header. -/
theorem isHeader_of_append (h : IsHeader (r ++ s)) (hclose : ']' ∈ r) : IsHeader r := by
  obtain ⟨pre, name, post, heq, hpre, hpost, hopen', hclose'⟩ := h
  have hnot : ']' ∉ pre ++ '[' :: name := by
    rw [List.mem_append, List.mem_cons, not_or, not_or]
    refine ⟨fun hmem => ?_, by decide, hclose'⟩
    exact absurd ((hpre _ hmem).symm.trans isWhitespace_bracket.2.1) (by decide)
  have heq' : r ++ s = (pre ++ '[' :: name) ++ ']' :: post := by
    rw [heq, List.append_assoc, List.cons_append]
  rcases List.append_eq_append_iff.1 heq' with ⟨rest, hrest, -⟩ | ⟨rest, rfl, hrest⟩
  · exact absurd (hrest ▸ List.mem_append_left rest hclose) hnot
  · cases rest with
    | nil => exact absurd (by rwa [List.append_nil] at hclose) hnot
    | cons c rest =>
      obtain ⟨rfl, rfl⟩ := List.cons.inj hrest
      refine ⟨pre, name, rest, ?_, hpre, fun x hx => hpost x (List.mem_append_left _ hx),
        hopen', hclose'⟩
      rw [List.append_assoc, List.cons_append]

end Grammar

/-! ### The classification -/

section Line

variable {line : CStr}

/-- **What the code goes by**: the brackets, then the `=`. -/
theorem shape_cases (line : CStr) :
    ('[' ∈ cutComment line ∧ ']' ∈ cutComment line ∧ (parseLine line).shape = .header) ∨
      (('[' ∈ cutComment line ↔ ']' ∉ cutComment line) ∧ (parseLine line).shape = .refused) ∨
      ('[' ∉ cutComment line ∧ ']' ∉ cutComment line ∧
        ('=' ∈ cutComment line ∧ (parseLine line).shape = .pair ∨
          '=' ∉ cutComment line ∧ Blank (cutComment line) ∧ (parseLine line).shape = .silent ∨
          '=' ∉ cutComment line ∧ ¬ Blank (cutComment line) ∧
            (parseLine line).shape = .refused)) := by
  unfold parseLine
  dsimp only
  rcases strchr_cases (cutComment line) '[' with ⟨hopen, hnone⟩ | ⟨hopen, i, hi, -⟩ <;>
    rcases strchr_cases (cutComment line) ']' with ⟨hclose, hnone'⟩ | ⟨hclose, j, hj, -⟩
  · refine .inr (.inr ⟨hopen, hclose, ?_⟩)
    rw [hnone, hnone']
    rcases strchr_cases (cutComment line) '=' with ⟨heq, hnone''⟩ | ⟨heq, n, hn, -⟩
    · simp only [hnone'']
      by_cases hblank : (cutComment line).all isWhitespace = true
      · exact .inr (.inl ⟨heq, List.all_eq_true.1 hblank, by rw [if_pos hblank]; rfl⟩)
      · refine .inr (.inr ⟨heq, fun hall => hblank (List.all_eq_true.2 hall), ?_⟩)
        rw [if_neg hblank]
        rfl
    · simp only [hn]
      exact .inl ⟨heq, rfl⟩
  · refine .inr (.inl ⟨by simp [hopen, hclose], ?_⟩)
    rw [hnone, hj]
    rfl
  · refine .inr (.inl ⟨by simp [hopen, hclose], ?_⟩)
    rw [hi, hnone']
    rfl
  · refine .inl ⟨hopen, hclose, ?_⟩
    rw [hi, hj]
    rfl

/-- The code is right about what stands before the first NUL, two brackets that are no
header and a bracket in an assignment apart. -/
theorem shapeOf_cutComment_iff : ShapeOf (cutComment line) (parseLine line).shape ↔
    ('[' ∈ cutComment line → ']' ∈ cutComment line → IsHeader (cutComment line)) ∧
      (('[' ∈ cutComment line ↔ ']' ∉ cutComment line) → ¬ IsAssignment (cutComment line)) := by
  rcases shape_cases line with ⟨hopen, hclose, hshape⟩ | ⟨hone, hshape⟩ |
    ⟨hopen, hclose, ⟨heq, hshape⟩ | ⟨heq, hblank, hshape⟩ | ⟨heq, hblank, hshape⟩⟩ <;> rw [hshape]
  · constructor
    · exact fun h => ⟨fun _ _ => h, fun hne => absurd hclose (hne.1 hopen)⟩
    · exact fun h => h.1 hopen hclose
  · have hheader : ¬ IsHeader (cutComment line) := fun h =>
      hone.1 (mem_of_isHeader h).1 (mem_of_isHeader h).2
    have hblank : ¬ Blank (cutComment line) := by
      by_cases hclose : ']' ∈ cutComment line
      · exact not_blank_of_mem hclose isWhitespace_bracket.2.1
      · exact not_blank_of_mem (hone.2 hclose) isWhitespace_bracket.1
    constructor
    · exact fun h => ⟨fun hopen hclose => absurd hclose (hone.1 hopen), fun _ => h.2.1⟩
    · exact fun h => ⟨hheader, h.2 hone, hblank⟩
  · have hfirst : firstNonBlank (cutComment line) ≠ some '[' := fun h =>
      hopen ((List.dropWhile_sublist _).subset (List.mem_of_mem_head? h))
    refine iff_of_true ⟨hfirst, heq⟩ ⟨fun h => absurd h hopen, fun h => absurd (h.2 hclose) hopen⟩
  · exact iff_of_true hblank ⟨fun h => absurd h hopen, fun h => absurd (h.2 hclose) hopen⟩
  · refine iff_of_true ⟨fun h => hopen (mem_of_isHeader h).1, fun h => heq h.2, hblank⟩
      ⟨fun h => absurd h hopen, fun h => absurd (h.2 hclose) hopen⟩

/-- What stands before the first NUL starts what stands before the comment. -/
theorem beforeComment_eq_append (line : CStr) :
    ∃ hidden, beforeComment line = cutComment line ++ hidden := by
  have hcut : cutComment line = (beforeComment line).takeWhile (· != nul) := by
    unfold cutComment cString beforeComment
    rw [List.takeWhile_takeWhile, List.takeWhile_takeWhile]
    exact congrArg (line.takeWhile ·) (funext fun c => by simp only [And.comm])
  exact ⟨(beforeComment line).dropWhile (· != nul), by
    rw [hcut, List.takeWhile_append_dropWhile]⟩

/-- Where the code is right about a line, it is not thanks to a NUL. -/
theorem shapeOf_cutComment_of_beforeComment (h : ShapeOf (beforeComment line) (parseLine line).shape) :
    ShapeOf (cutComment line) (parseLine line).shape := by
  obtain ⟨hidden, hsplit⟩ := beforeComment_eq_append line
  rw [hsplit] at h
  rw [shapeOf_cutComment_iff]
  rcases shape_cases line with ⟨hopen, hclose, hshape⟩ | ⟨hone, hshape⟩ | ⟨hopen, hclose, -⟩
  · rw [hshape] at h
    exact ⟨fun _ _ => isHeader_of_append h hclose, fun hne => absurd hclose (hne.1 hopen)⟩
  · rw [hshape] at h
    refine ⟨fun hopen hclose => absurd hclose (hone.1 hopen), fun _ hassign => h.2.1 ?_⟩
    have hblank := not_blank_of_mem hassign.2 isWhitespace_bracket.2.2
    exact ⟨by rw [firstNonBlank_append hblank]; exact hassign.1,
      List.mem_append_left _ hassign.2⟩
  · exact ⟨fun h => absurd h hopen, fun h => absurd (h.2 hclose) hopen⟩

/-- **One line.** -/
theorem shape_iff_plainLine :
    (∀ k, (parseLine line).shape = k ↔ ShapeOf (beforeComment line) k) ↔ PlainLine line := by
  rw [forall_shapeOf_iff]
  constructor
  · intro h
    have hcut := shapeOf_cutComment_of_beforeComment h
    obtain ⟨hboth, hsingle⟩ := shapeOf_cutComment_iff.1 hcut
    refine ⟨hboth, hsingle, fun k => ?_⟩
    constructor
    · intro hk
      rwa [shapeOf_unique hk hcut]
    · intro hk
      rwa [shapeOf_unique hk h]
  · intro h
    exact (h.nul _).1 (shapeOf_cutComment_iff.2 ⟨h.both, h.single⟩)

end Line

/-! ### Files -/

/-- `line` is a line of the file, shorter than 2047 characters, with its newline if it has
one; `before` and `after` are the lines around it. -/
structure IsLine (text before line after : CStr) : Prop where
  split : text = before ++ (line ++ after)
  start : before = [] ∨ ∃ rest, before = rest ++ ['\n']
  stop : ∃ body, '\n' ∉ body ∧ body.length < 2047 ∧
    (line = body ++ ['\n'] ∨ line = body ∧ body ≠ [] ∧ after = [])

/-- A newline ends what `fgets` reads. -/
theorem fgetsLoop_append_newline (piece before after : CStr) :
    fgetsLoop piece (before ++ '\n' :: after) =
      fgetsLoop piece (before ++ ['\n']) ++ fgetsLoop [] after := by
  simp only [fgetsLoop_eq_cut]
  exact Pieces.cut_append_stop 2047 piece before after

/-- What is short and holds no newline is read on. -/
theorem fgetsLoop_append {body : CStr} (hbody : '\n' ∉ body) {piece : CStr}
    (hlen : piece.length + body.length < 2047) (rest : CStr) :
    fgetsLoop piece (body ++ rest) = fgetsLoop (piece ++ body) rest := by
  simp only [fgetsLoop_eq_cut]
  exact Pieces.cut_append piece hbody hlen rest

/-- **A short line is read as one piece**, whatever stands around it. -/
theorem readLines_isLine {text before line after : CStr} (h : IsLine text before line after) :
    readLines text = readLines before ++ line :: readLines after := by
  have hbefore : ∀ rest, readLines (before ++ rest) = readLines before ++ readLines rest := by
    intro rest
    rcases h.start with rfl | ⟨start, rfl⟩
    · rfl
    · rw [List.append_assoc, List.singleton_append]
      exact fgetsLoop_append_newline [] start rest
  obtain ⟨body, hbody, hlen, hend⟩ := h.stop
  rw [h.split, hbefore]
  refine congrArg _ ?_
  have hread : ∀ rest, readLines (body ++ rest) = fgetsLoop body rest := fun rest =>
    fgetsLoop_append hbody (by rw [List.length_nil]; omega) rest
  rcases hend with rfl | ⟨rfl, hne, rfl⟩
  · rw [List.append_assoc, hread, List.singleton_append, fgetsLoop, if_pos (.inl rfl)]
    rfl
  · rw [hread, fgetsLoop, if_neg hne]
    rfl

/-- What a line of some kind does to the file. -/
def tell {σ : Type} (cb : σ → ConfigEvent → Reply σ) (s : σ) : LineKind → Reply σ
  | .event e => cb s e
  | .silent => ⟨.ret true, s⟩
  | .refused => ⟨.ret false, s⟩

/-- **When a line is classified right.**  A line of a file, shorter than 2047 characters, is
dealt with by itself between the lines before and those after: the callback is told of it,
or not, or the file is refused there.  That is of the shape the grammar gives the line
exactly when the line is plain: `ini_parse_file` looks for brackets anywhere in it, and sees
nothing behind a NUL. -/
theorem classified_iff {text before line after : CStr} (h : IsLine text before line after) :
    (∀ (σ : Type) (cb : σ → ConfigEvent → Reply σ) (s : σ), iniParseFile cb s text =
        ((iniParseLines cb s (readLines before)).andThen fun s => tell cb s (parseLine line)).andThen
          fun s => (iniParseLines cb s (readLines after)).andThen fun s => cb s .endOfFile) ∧
      ((∀ k, (parseLine line).shape = k ↔ ShapeOf (beforeComment line) k) ↔ PlainLine line) := by
  refine ⟨fun σ cb s => ?_, shape_iff_plainLine⟩
  have htell : ∀ s, handleLine cb s line = tell cb s (parseLine line) := by
    intro s
    unfold handleLine
    cases parseLine line <;> rfl
  unfold iniParseFile
  rw [readLines_isLine h, iniParseLines_append]
  simp only [iniParseLines_cons, andThen_assoc, htell]

/-- A header with blanks around it, in a file of three lines. -/
theorem classified_header :
    (∀ k, (parseLine "  [vpn] \n".toList).shape = k ↔
      ShapeOf (beforeComment "  [vpn] \n".toList) k) ∧
    iniParseFile noteDown [] "mtu=9000\n  [vpn] \n\n".toList =
      ⟨.ret true, [.pair "mtu".toList "9000".toList, .header "vpn".toList, .endOfFile]⟩ := by
  have hline : IsLine "mtu=9000\n  [vpn] \n\n".toList "mtu=9000\n".toList "  [vpn] \n".toList
      ['\n'] :=
    ⟨by decide, .inr ⟨"mtu=9000".toList, by decide⟩, "  [vpn] ".toList, by decide, by decide,
      .inl (by decide)⟩
  have hheader : IsHeader "  [vpn] \n".toList := by
    refine ⟨[' ', ' '], "vpn".toList, [' ', '\n'], by decide, ?_, ?_, by decide, by decide⟩
    · exact List.forall_mem_cons.2 ⟨by decide, by simp [isWhitespace]⟩
    · exact List.forall_mem_cons.2 ⟨by decide, by simp [isWhitespace]⟩
  have hcut : cutComment "  [vpn] \n".toList = "  [vpn] \n".toList := by decide
  have hbefore : beforeComment "  [vpn] \n".toList = "  [vpn] \n".toList := by decide
  obtain ⟨hfile, hshape⟩ := classified_iff hline
  refine ⟨hshape.2 ⟨fun _ _ => hcut ▸ hheader, fun hone => ?_, fun k => by rw [hcut, hbefore]⟩, ?_⟩
  · exact absurd (by decide) (hone.1 (by decide))
  · rw [hfile]
    rfl

/-- **Three lines misread.**  A pair with a bracketed value starts a section, text around
the brackets is dropped, and a pair with a single bracket has the file refused. -/
theorem classified_fails :
    (IsAssignment (beforeComment "default_endpoint=[fd00::1]:9000\n".toList) ∧
      iniParseFile noteDown [] "default_endpoint=[fd00::1]:9000\n".toList =
        ⟨.ret true, [.header "fd00::1".toList, .endOfFile]⟩) ∧
    (¬ IsHeader (beforeComment "x]y[z\n".toList) ∧
      iniParseFile noteDown [] "x]y[z\n".toList = ⟨.ret true, [.header "z".toList, .endOfFile]⟩) ∧
    IsAssignment (beforeComment "post_exec=[ -e /x\n".toList) ∧
      iniParseFile noteDown [] "post_exec=[ -e /x\n".toList = ⟨.ret false, []⟩ := by
  refine ⟨⟨⟨by decide, by decide⟩, rfl⟩, ⟨fun h => ?_, rfl⟩, ⟨by decide, by decide⟩, rfl⟩
  exact absurd (firstNonBlank_of_isHeader h) (by decide)

end UdpEthTunnel
