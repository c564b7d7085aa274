/-
# Reading in pieces

A reader with room for `room` elements takes a list piece by piece: a piece ends with the
first `stop`, or when the room is full.  Pieces after a `stop` do not depend on what stands
before it (`cut_append_stop`); what holds no `stop` and leaves room is read on
(`cut_append`), and stays in one piece as long as it fits (`mem_cut_append`).
-/

import Mathlib.Data.List.Infix
import Mathlib.Data.Nat.Notation

namespace Pieces

variable {α : Type*} [DecidableEq α]

/-- The pieces of a list; `piece` has been read of the first. -/
def cut (stop : α) (room : ℕ) (piece : List α) : List α → List (List α)
  | [] => if piece = [] then [] else [piece]
  | c :: text =>
    if c = stop ∨ piece.length + 1 = room then (piece ++ [c]) :: cut stop room [] text
    else cut stop room (piece ++ [c]) text

variable {stop : α} {room : ℕ} {piece start : List α}

/-- A `stop` ends what is read. -/
theorem cut_append_stop (room : ℕ) (piece before after : List α) :
    cut stop room piece (before ++ stop :: after) =
      cut stop room piece (before ++ [stop]) ++ cut stop room [] after := by
  induction before generalizing piece with
  | nil =>
    rw [List.nil_append, List.nil_append, cut, cut, if_pos (.inl rfl), if_pos (.inl rfl), cut,
      if_pos rfl]
    rfl
  | cons c before ih =>
    rw [List.cons_append, List.cons_append, cut, cut]
    split_ifs
    · rw [ih, List.cons_append]
    · exact ih _

/-- What holds no `stop` and leaves room is read on. -/
theorem cut_append (piece : List α) (hstop : stop ∉ start) (hlen : piece.length + start.length < room)
    (rest : List α) : cut stop room piece (start ++ rest) = cut stop room (piece ++ start) rest := by
  induction start generalizing piece with
  | nil => rw [List.nil_append, List.append_nil]
  | cons c start ih =>
    rw [List.mem_cons, not_or] at hstop
    rw [List.length_cons] at hlen
    have hgoes : ¬ (c = stop ∨ piece.length + 1 = room) :=
      not_or.2 ⟨Ne.symm hstop.1, by omega⟩
    have hnext : (piece ++ [c]).length + start.length < room := by
      rw [List.length_append, List.length_singleton]
      omega
    rw [List.cons_append, cut, if_neg hgoes, ih _ hstop.2 hnext, List.append_assoc,
      List.singleton_append]

/-- What has been read is the start of a piece. -/
theorem exists_mem_cut (stop : α) (room : ℕ) (hne : piece ≠ []) (text : List α) :
    ∃ more, piece ++ more ∈ cut stop room piece text ∧ more <+: text := by
  induction text generalizing piece with
  | nil =>
    refine ⟨[], ?_, List.prefix_rfl⟩
    rw [cut, if_neg hne, List.append_nil]
    exact List.mem_singleton_self piece
  | cons c text ih =>
    unfold cut
    split_ifs with hend
    · exact ⟨[c], List.mem_cons_self, by simp⟩
    · obtain ⟨more, hmem, hpre⟩ := ih (show piece ++ [c] ≠ [] by simp)
      refine ⟨c :: more, ?_, (List.prefix_cons_inj c).2 hpre⟩
      rwa [List.append_assoc] at hmem

/-- **What fits the room and holds no `stop` is read in one piece.** -/
theorem mem_cut_append (hstop : stop ∉ start) (hne : start ≠ []) (hroom : start.length ≤ room)
    (text : List α) :
    ∃ more, start ++ more ∈ cut stop room [] (start ++ text) ∧ more <+: text := by
  rcases Nat.lt_or_ge start.length room with hlt | hge
  · have hread := cut_append [] hstop (by simpa using hlt) text
    rw [hread, List.nil_append]
    exact exists_mem_cut stop room hne text
  · -- the last element fills the room
    obtain ⟨init, c, rfl⟩ : ∃ init c, start = init ++ [c] :=
      (List.eq_nil_or_concat' start).resolve_left hne
    rw [List.length_append, List.length_singleton] at hroom hge
    have hinit : stop ∉ init := fun h => hstop (List.mem_append_left _ h)
    have hshort : ([] : List α).length + init.length < room := by
      rw [List.length_nil]
      omega
    have hread := cut_append [] hinit hshort (c :: text)
    refine ⟨[], ?_, List.nil_prefix⟩
    rw [List.append_assoc, List.singleton_append, hread, List.nil_append, cut,
      if_pos (.inr (show init.length + 1 = room by omega)), List.append_nil]
    exact List.mem_cons_self

end Pieces
