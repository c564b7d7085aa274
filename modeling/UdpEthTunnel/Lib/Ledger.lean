/-
# A ledger of resources

A program acquires resources, uses them and releases them; its ledger is the list of
what it does, in order.  `held` replays a ledger and refuses it at the first entry that
is wrong: a resource is acquired while it is held, or released or used while it is not.
A ledger is `Balanced` when nothing is wrong in it and nothing is held at the end: every
resource has been released once for each time it was acquired, and not used afterwards.

The rules follow what is held along a ledger (`Holds`).
-/

import Mathlib.Data.Finset.Insert
import Mathlib.Data.Finset.Erase

namespace Ledger

variable {R : Type*}

/-- What is done with a resource. -/
inductive Entry (R : Type*) where
  | acquire (r : R)
  | release (r : R)
  | use (r : R)

variable [DecidableEq R]

/-- What is held after an entry; `none` when the entry is wrong. -/
def Entry.apply (S : Finset R) : Entry R → Option (Finset R)
  | .acquire r => if r ∈ S then none else some (insert r S)
  | .release r => if r ∈ S then some (S.erase r) else none
  | .use r => if r ∈ S then some S else none

/-- What is held after a ledger; `none` when one of its entries is wrong. -/
def held (S : Finset R) : List (Entry R) → Option (Finset R)
  | [] => some S
  | e :: log => (e.apply S).bind fun S => held S log

/-- **Everything is released once, and not used afterwards.** -/
def Balanced (log : List (Entry R)) : Prop := held ∅ log = some ∅

instance (log : List (Entry R)) : Decidable (Balanced log) :=
  inferInstanceAs (Decidable (held ∅ log = some ∅))

/-- After the ledger, the resources that are held are those that satisfy `P`. -/
def Holds (log : List (Entry R)) (P : R → Prop) : Prop :=
  ∃ S : Finset R, held ∅ log = some S ∧ ∀ r, r ∈ S ↔ P r

variable {log log' : List (Entry R)} {P Q : R → Prop} {r : R} {rs : List R}

theorem held_append (S : Finset R) (log log' : List (Entry R)) :
    held S (log ++ log') = (held S log).bind fun S => held S log' := by
  induction log generalizing S with
  | nil => rfl
  | cons e log ih =>
    show (e.apply S).bind _ = ((e.apply S).bind _).bind _
    cases e.apply S with
    | none => rfl
    | some S => exact ih S

theorem Holds.nil : Holds ([] : List (Entry R)) fun _ => False := ⟨∅, rfl, by simp⟩

theorem Holds.congr (h : Holds log P) (hPQ : ∀ r, P r ↔ Q r) : Holds log Q := by
  obtain ⟨S, hS, hmem⟩ := h
  exact ⟨S, hS, fun r => (hmem r).trans (hPQ r)⟩

/-- One more entry, which is not wrong. -/
theorem Holds.snoc {e : Entry R} (h : Holds log P)
    (he : ∀ S : Finset R, (∀ r, r ∈ S ↔ P r) → ∃ S', e.apply S = some S' ∧ ∀ r, r ∈ S' ↔ Q r) :
    Holds (log ++ [e]) Q := by
  obtain ⟨S, hS, hmem⟩ := h
  obtain ⟨S', hS', hmem'⟩ := he S hmem
  refine ⟨S', ?_, hmem'⟩
  rw [held_append, hS]
  show (e.apply S).bind _ = _
  rw [hS']
  rfl

/-- A resource that is not held can be acquired. -/
theorem Holds.acquire (h : Holds log P) (hr : ¬ P r) :
    Holds (log ++ [.acquire r]) fun x => P x ∨ x = r :=
  h.snoc fun S hS => ⟨insert r S, if_neg ((hS r).not.2 hr), fun x => by
    rw [Finset.mem_insert, hS, or_comm]⟩

/-- A resource that is held can be released. -/
theorem Holds.release (h : Holds log P) (hr : P r) :
    Holds (log ++ [.release r]) fun x => P x ∧ x ≠ r :=
  h.snoc fun S hS => ⟨S.erase r, if_pos ((hS r).2 hr), fun x => by
    rw [Finset.mem_erase, hS, and_comm]⟩

/-- A resource that is held can be used. -/
theorem Holds.use (h : Holds log P) (hr : P r) : Holds (log ++ [.use r]) P :=
  h.snoc fun S hS => ⟨S, if_pos ((hS r).2 hr), hS⟩

theorem Holds.useAll (h : Holds log P) (hrs : ∀ r ∈ rs, P r) : Holds (log ++ rs.map .use) P := by
  induction rs generalizing log with
  | nil => rwa [List.map_nil, List.append_nil]
  | cons r rs ih =>
    have hfirst := h.use (hrs r List.mem_cons_self)
    have hrest := ih hfirst fun x hx => hrs x (List.mem_cons_of_mem r hx)
    rwa [List.append_assoc] at hrest

/-- Different resources that are held can be released one after the other. -/
theorem Holds.releaseAll (h : Holds log P) (hnodup : rs.Nodup) (hrs : ∀ r ∈ rs, P r) :
    Holds (log ++ rs.map .release) fun x => P x ∧ x ∉ rs := by
  induction rs generalizing log P with
  | nil =>
    rw [List.map_nil, List.append_nil]
    exact h.congr fun x => by simp
  | cons r rs ih =>
    obtain ⟨hr, hnodup⟩ := List.nodup_cons.1 hnodup
    have hfirst := h.release (hrs r List.mem_cons_self)
    have hrest := ih hfirst hnodup fun x hx =>
      ⟨hrs x (List.mem_cons_of_mem r hx), fun hxr => hr (hxr ▸ hx)⟩
    rw [List.append_assoc] at hrest
    exact hrest.congr fun x => by rw [List.mem_cons, not_or, and_assoc]

/-- **What is held at the end is what is missing.** -/
theorem Holds.balanced_iff (h : Holds log P) : Balanced log ↔ ∀ r, ¬ P r := by
  obtain ⟨S, hS, hmem⟩ := h
  unfold Balanced
  rw [hS, Option.some_inj, Finset.eq_empty_iff_forall_notMem]
  exact forall_congr' fun r => (hmem r).not

/-- **What is not held cannot be used.** -/
theorem Holds.not_balanced_of_use (h : Holds log P) (hr : ¬ P r) :
    ¬ Balanced (log ++ .use r :: log') := by
  obtain ⟨S, hS, hmem⟩ := h
  unfold Balanced
  have hwrong : (Entry.use r).apply S = none := if_neg ((hmem r).not.2 hr)
  rw [held_append, hS]
  show ((Entry.use r).apply S).bind _ ≠ _
  rw [hwrong]
  simp

end Ledger
