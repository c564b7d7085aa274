/-
# The configuration parser

`ini_parse_file` of `src/ini.c`: the file is read in pieces of at most 2047 characters
by `fgets` (`readLines`), each piece is taken for a line and is a header, a pair, silent
or refused (`parseLine`), and the callback is told of the headers and the pairs
(`iniParseFile`).

Here are the laws of the reader and of the loop.  A line that is short enough is one
piece (`readLines_eq_physicalLines`), and lines are handled one after another
(`iniParseLines_append`).
-/

import Mathlib.Data.List.Basic
import Mathlib.Data.List.DropRight
import UdpEthTunnel.Config.Basic
import UdpEthTunnel.Lib.Pieces

namespace UdpEthTunnel

def nul : Char := Char.ofNat 0

/-- `iswhitespace`. -/
def isWhitespace (c : Char) : Bool := c == ' ' || c == '\t' || c == '\n' || c == '\r'

/-- `trim_whitespace`: the first word of a text. -/
def trimWhitespace (s : CStr) : CStr :=
  (s.dropWhile isWhitespace).takeWhile fun c => !isWhitespace c

/-- What stands in a buffer, as a C string. -/
def cString (s : CStr) : CStr := s.takeWhile (· != nul)

/-- A line without its comment. -/
def cutComment (line : CStr) : CStr := (cString line).takeWhile (· != ';')

/-- What a line is. -/
inductive LineKind where
  | event (e : ConfigEvent)
  | silent
  | refused
deriving DecidableEq, Repr

/-- The body of the loop of `ini_parse_file`.  The brackets are overwritten before the
name is read. -/
def parseLine (line : CStr) : LineKind :=
  let line := cutComment line
  match strchr line '[', strchr line ']' with
  | some openSection, some closeSection =>
    let line := (line.set openSection nul).set closeSection nul
    .event (.header (trimWhitespace (cString (line.drop (openSection + 1)))))
  | none, none =>
    match strchr line '=' with
    | some eq => .event (.pair (trimWhitespace (line.take eq)) (trimWhitespace (line.drop (eq + 1))))
    | none => if line.all isWhitespace then .silent else .refused
  | _, _ => .refused

/-- `fgets(line, sizeof(line), fp)`, until the end of the file; `piece` has been read. -/
def fgetsLoop (piece : CStr) : CStr → List CStr
  | [] => if piece = [] then [] else [piece]
  | c :: text =>
    if c = '\n' ∨ piece.length + 1 = 2047 then (piece ++ [c]) :: fgetsLoop [] text
    else fgetsLoop (piece ++ [c]) text

/-- The pieces in which a file is read. -/
def readLines (text : CStr) : List CStr := fgetsLoop [] text

section Parse

variable {σ : Type} (cb : σ → ConfigEvent → Reply σ)

/-- What is done with a line. -/
def handleLine (s : σ) (line : CStr) : Reply σ :=
  match parseLine line with
  | .event e => cb s e
  | .silent => ⟨.ret true, s⟩
  | .refused => ⟨.ret false, s⟩

/-- The loop over the lines. -/
def iniParseLines (s : σ) : List CStr → Reply σ
  | [] => ⟨.ret true, s⟩
  | line :: lines => (handleLine cb s line).andThen fun s => iniParseLines s lines

/-- **`ini_parse_file`**, of a file that can be opened. -/
def iniParseFile (s : σ) (text : CStr) : Reply σ :=
  (iniParseLines cb s (readLines text)).andThen fun s => cb s .endOfFile

end Parse

/-! ### Lines -/

/-- The lines of a file, however long, each with its newline. -/
def physicalLoop (piece : CStr) : CStr → List CStr
  | [] => if piece = [] then [] else [piece]
  | c :: text =>
    if c = '\n' then (piece ++ [c]) :: physicalLoop [] text else physicalLoop (piece ++ [c]) text

def physicalLines (text : CStr) : List CStr := physicalLoop [] text

/-- How long a line is, without its newline. -/
def lineLength (line : CStr) : ℕ := (line.filter (· != '\n')).length

/-- The reader has room for 2047 characters. -/
theorem fgetsLoop_eq_cut (piece text : CStr) :
    fgetsLoop piece text = Pieces.cut '\n' 2047 piece text := by
  induction text generalizing piece with
  | nil => rfl
  | cons c text ih =>
    unfold fgetsLoop Pieces.cut
    rw [ih, ih]

theorem mem_physicalLoop (piece text : CStr) :
    piece = [] ∨ ∃ rest ∈ physicalLoop piece text, piece <+: rest := by
  induction text generalizing piece with
  | nil =>
    unfold physicalLoop
    split_ifs with h
    · exact .inl h
    · exact .inr ⟨piece, List.mem_cons_self, List.prefix_rfl⟩
  | cons c text ih =>
    unfold physicalLoop
    split_ifs with h
    · exact .inr ⟨_, List.mem_cons_self, List.prefix_append ..⟩
    · obtain hnil | ⟨rest, hrest, hpre⟩ := ih (piece ++ [c])
      · exact absurd hnil (by simp)
      · exact .inr ⟨rest, hrest, (List.prefix_append ..).trans hpre⟩

theorem fgetsLoop_eq_physicalLoop {piece text : CStr} (hpiece : '\n' ∉ piece)
    (h : ∀ line ∈ physicalLoop piece text, lineLength line < 2047) :
    fgetsLoop piece text = physicalLoop piece text := by
  induction text generalizing piece with
  | nil => rfl
  | cons c text ih =>
    unfold fgetsLoop
    unfold physicalLoop at h ⊢
    by_cases hc : c = '\n'
    · rw [if_pos hc] at h
      rw [if_pos (.inl hc), if_pos hc, ih List.not_mem_nil fun line hline =>
        h line (List.mem_cons_of_mem _ hline)]
    · rw [if_neg hc] at h
      -- the piece with its next character starts a short line
      have hlt : (piece ++ [c]).length < 2047 := by
        obtain hnil | ⟨line, hline, hpre⟩ := mem_physicalLoop (piece ++ [c]) text
        · exact absurd hnil (by simp)
        · have hall : (piece ++ [c]).filter (· != '\n') = piece ++ [c] := by
            refine List.filter_eq_self.2 fun x hx => ?_
            rcases List.mem_append.1 hx with hx | hx
            · exact bne_iff_ne.2 fun hn => hpiece (hn ▸ hx)
            · obtain rfl := List.mem_singleton.1 hx
              exact bne_iff_ne.2 hc
          have hle := (hpre.sublist.filter (· != '\n')).length_le
          rw [hall] at hle
          exact Nat.lt_of_le_of_lt hle (h line hline)
      rw [List.length_append, List.length_singleton] at hlt
      rw [if_neg (by rw [not_or]; exact ⟨hc, by omega⟩), if_neg hc]
      refine ih (fun hmem => ?_) h
      rcases List.mem_append.1 hmem with hmem | hmem
      · exact hpiece hmem
      · exact hc (List.mem_singleton.1 hmem).symm

/-- **Short lines are read whole.** -/
theorem readLines_eq_physicalLines {text : CStr}
    (h : ∀ line ∈ physicalLines text, lineLength line < 2047) :
    readLines text = physicalLines text :=
  fgetsLoop_eq_physicalLoop List.not_mem_nil h

theorem fgetsLoop_full {piece run : CStr} (hrun : '\n' ∉ run) (hne : run ≠ [])
    (hlen : piece.length + run.length = 2047) (text : CStr) :
    fgetsLoop piece (run ++ text) = (piece ++ run) :: fgetsLoop [] text := by
  induction run generalizing piece with
  | nil => exact absurd rfl hne
  | cons c run ih =>
    rw [List.mem_cons, not_or] at hrun
    rw [List.length_cons] at hlen
    rw [List.cons_append, fgetsLoop]
    by_cases hfull : piece.length + 1 = 2047
    · obtain rfl : run = [] := List.length_eq_zero_iff.1 (by omega)
      rw [if_pos (.inr hfull)]
      rfl
    · rw [if_neg (by rw [not_or]; exact ⟨Ne.symm hrun.1, hfull⟩), ih hrun.2 ?_ ?_,
        List.append_assoc, List.singleton_append]
      · rintro rfl
        rw [List.length_nil] at hlen
        omega
      · rw [List.length_append, List.length_singleton]
        omega

/-- **Long lines are read in pieces.** -/
theorem readLines_full {run : CStr} (hrun : '\n' ∉ run) (hlen : run.length = 2047) (text : CStr) :
    readLines (run ++ text) = run :: readLines text := by
  refine fgetsLoop_full hrun ?_ (by rw [List.length_nil]; omega) text
  rintro rfl
  rw [List.length_nil] at hlen
  omega

section Parse

variable {σ : Type} {cb : σ → ConfigEvent → Reply σ}

theorem andThen_assoc {r : Reply σ} {f g : σ → Reply σ} :
    (r.andThen f).andThen g = r.andThen fun s => (f s).andThen g := by
  by_cases h : r.ending = .ret true
  · rw [Reply.andThen_of_true h, Reply.andThen_of_true h]
  · rw [Reply.andThen_of_ne h, Reply.andThen_of_ne h, Reply.andThen_of_ne h]

theorem iniParseLines_cons (s : σ) (line : CStr) (lines : List CStr) :
    iniParseLines cb s (line :: lines) =
      (handleLine cb s line).andThen fun s => iniParseLines cb s lines := rfl

/-- Lines are handled one after another. -/
theorem iniParseLines_append (s : σ) (lines lines' : List CStr) :
    iniParseLines cb s (lines ++ lines') =
      (iniParseLines cb s lines).andThen fun s => iniParseLines cb s lines' := by
  induction lines generalizing s with
  | nil => rfl
  | cons line lines ih =>
    rw [List.cons_append, iniParseLines_cons, iniParseLines_cons, andThen_assoc]
    exact congrArg _ (funext ih)

/-- The callback that notes down what it is told. -/
def noteDown (log : List ConfigEvent) (e : ConfigEvent) : Reply (List ConfigEvent) :=
  ⟨.ret true, log ++ [e]⟩

/-- The event of a line. -/
def lineEvent (line : CStr) : List ConfigEvent :=
  match parseLine line with
  | .event e => [e]
  | _ => []

/-- The lines up to the first that is refused. -/
def acceptedLines (lines : List CStr) : List CStr :=
  lines.takeWhile fun line => parseLine line != .refused

/-- What is told of the lines of a file. -/
theorem iniParseLines_noteDown (log : List ConfigEvent) (lines : List CStr) :
    iniParseLines noteDown log lines =
      ⟨.ret (lines.all fun line => parseLine line != .refused),
        log ++ (acceptedLines lines).flatMap lineEvent⟩ := by
  induction lines generalizing log with
  | nil => simp [iniParseLines, acceptedLines]
  | cons line lines ih =>
    unfold acceptedLines at ih ⊢
    rw [iniParseLines_cons, handleLine, List.takeWhile_cons, List.all_cons]
    cases hline : parseLine line with
    | event e => simp [Reply.andThen, noteDown, ih, lineEvent, hline]
    | silent => simp [Reply.andThen, ih, lineEvent, hline]
    | refused => simp [Reply.andThen]

end Parse

end UdpEthTunnel
