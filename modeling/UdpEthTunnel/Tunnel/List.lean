/-
# The list of tunnels

`tunnel_list` of `src/tunnel.c`, an array of pointers that doubles when it is full, and
what `config_parse_event` of `src/main.c` does when a tunnel cannot be added to it.

`tunnel_list_add` counts the tunnel before it knows that there is room for it.  While
every `realloc` succeeds the list holds the tunnels that have been added, in order
(`Represents`).  A `realloc` that fails leaves the count one too high, and the deletion of
the list reads the entry it counts: one that has never been written, or none at all, when
there is no array yet (`rejectTunnel_of_reallocFails`).

What `realloc` decides is part of a call (`AddCall`).  A negative size, to which the
doubling of an `int` comes at last, asks it for more than there is.
-/

import Mathlib.Data.List.Basic
import Mathlib.Order.Nat
import UdpEthTunnel.Config.Basic
import UdpEthTunnel.IpAddr
import UdpEthTunnel.Lib.Runs

namespace UdpEthTunnel

open Runs

/-- `tunnel_list`.  `tunnels` is `none` for `NULL`, and an entry that has not been written
is `none`. -/
structure TunnelList (T : Type) where
  allocSize : Int
  numTunnels : Int
  tunnels : Option (List (Option T))

/-- How a call of `tunnel_list_add` ends. -/
inductive ListAddOutcome (T : Type) where
  /-- a store outside the array, or through `NULL` -/
  | wildStore
  | ret (ok : Bool) (list : TunnelList T)

/-- What `tunnel_list_get` returns. -/
inductive ListGetOutcome (T : Type) where
  | null
  /-- what is read is no tunnel that was stored, or no entry of the array -/
  | wild
  | ret (t : T)
deriving DecidableEq, Repr

/-- What a variable of type `int` holds after it is assigned `n`. -/
def toInt32 (n : Int) : Int := (BitVec.ofInt 32 n).toInt

section Operations

variable {T : Type}

/-- `tunnel_list_create`. -/
def tunnelListCreate : TunnelList T := { allocSize := 1, numTunnels := 0, tunnels := none }

/-- The tunnel in an entry, if one was stored there. -/
def TunnelList.slot (list : TunnelList T) (i : ℕ) : Option T :=
  list.tunnels.bind fun entries => entries[i]?.join

/-- `realloc(list->tunnels, sizeof(tunnel*) * size)`; `ok` is whether there is memory. -/
def reallocTunnels (ok : Bool) (tunnels : Option (List (Option T))) (size : Int) :
    Option (List (Option T)) :=
  if ok = true ∧ 0 ≤ size then
    let entries := tunnels.getD []
    some (entries.take size.toNat ++ List.replicate (size.toNat - entries.length) none)
  else none

/-- `list->tunnels[next_tunnel] = t;` -/
def storeTunnel (list : TunnelList T) (next : Int) (t : T) : ListAddOutcome T :=
  match list.tunnels with
  | none => .wildStore
  | some entries =>
    if 0 ≤ next ∧ next < entries.length then
      .ret true { list with tunnels := some (entries.set next.toNat (some t)) }
    else .wildStore

/-- `tunnel_list_add`; `ok` is what becomes of its `realloc`, if there is one. -/
def tunnelListAdd (ok : Bool) (list : TunnelList T) (t : T) : ListAddOutcome T :=
  let nextTunnel := list.numTunnels
  let list := { list with numTunnels := toInt32 (list.numTunnels + 1) }
  if list.numTunnels ≥ list.allocSize then
    let newSize := toInt32 (list.allocSize * 2)
    match reallocTunnels ok list.tunnels newSize with
    | none => .ret false list
    | some newList => storeTunnel { list with allocSize := newSize, tunnels := some newList } nextTunnel t
  else storeTunnel list nextTunnel t

/-- `tunnel_list_get`. -/
def tunnelListGet (list : TunnelList T) (index : Int) : ListGetOutcome T :=
  if index < 0 ∨ index ≥ list.numTunnels then .null
  else (list.slot index.toNat).elim .wild .ret

/-- `tunnel_list_size`. -/
def tunnelListSize (list : TunnelList T) : U64 := .ofInt 64 list.numTunnels

/-- What a list hands to `tunnel_delete`, entry by entry, when it is deleted. -/
structure ListDelete (T : Type) where
  /-- the entries of the array, in order; one that has never been written is `none` -/
  entries : List (Option T)
  /-- the next read is outside the array, or through `NULL` -/
  wild : Bool

/-- `tunnel_list_delete`, while `tunnel_delete` returns.  The loop runs to the count, however
many entries there are. -/
def tunnelListDelete (list : TunnelList T) : ListDelete T :=
  let size := (list.tunnels.getD []).length
  { entries := (List.range (min list.numTunnels.toNat size)).map list.slot
    wild := size < list.numTunnels.toNat }

/-- What `config_parse_event` deletes when the tunnel `t` has not been added to the list:
the tunnel, and then the list. -/
def rejectTunnel (list : TunnelList T) (t : T) : ListDelete T :=
  { tunnelListDelete list with entries := some t :: (tunnelListDelete list).entries }

/-- A call of `tunnel_list_add`: what it is given, what `realloc` would do, and what it
returns. -/
structure AddCall (T : Type) where
  tunnel : T
  realloc : Bool
  ok : Bool

/-- A call that returns. -/
def AddStep (list : TunnelList T) (call : AddCall T) (list' : TunnelList T) : Prop :=
  tunnelListAdd call.realloc list call.tunnel = .ret call.ok list'

/-- The calls on a list. -/
abbrev ListTrace (T : Type) := List (Event (TunnelList T) (AddCall T))

/-- The tunnels that have been added, in order. -/
def added (tr : ListTrace T) : List T :=
  (tr.filter (·.act.ok)).map (·.act.tunnel)

/-- The call has to make room, and `realloc` does not let it. -/
def ReallocFails (list : TunnelList T) (ok : Bool) : Prop :=
  toInt32 (list.numTunnels + 1) ≥ list.allocSize ∧
    reallocTunnels ok list.tunnels (toInt32 (list.allocSize * 2)) = none

/-- **The list is what it should be** after the calls `tr`, and was after each of them. -/
structure ListSound (tr : ListTrace T) (list : TunnelList T) : Prop where
  size : (tunnelListSize list).toNat = (added tr).length
  get : ∀ index : Int, tunnelListGet list index =
    if 0 ≤ index then (added tr)[index.toNat]?.elim .null .ret else .null
  inside : ∀ ok t, tunnelListAdd ok list t ≠ .wildStore
  failed : ∀ e ∈ tr, e.act.ok = false → e.post = e.pre
  cleanUp : ∀ tr₁ e tr₂, tr = tr₁ ++ e :: tr₂ → e.act.ok = false →
    (rejectTunnel e.post e.act.tunnel).wild = false ∧
      (rejectTunnel e.post e.act.tunnel).entries.Perm ((added tr₁ ++ [e.act.tunnel]).map some)

/-- **The list holds the tunnels `ts`**, in order, and has room for one more or none. -/
structure Represents (list : TunnelList T) (ts : List T) : Prop where
  size : list.numTunnels = ts.length
  room : (ts.length : Int) < list.allocSize
  small : list.allocSize < 2147483648
  array : ∀ entries, list.tunnels = some entries → (entries.length : Int) = list.allocSize
  null : list.tunnels = none ↔ ts = []
  first : ts = [] → list.allocSize = 1
  slots : ∀ i, list.slot i = ts[i]?

end Operations

section Calls

variable {T : Type} {list list' : TunnelList T} {ts : List T} {t : T} {ok : Bool}
  {tr : ListTrace T}

theorem toInt32_of_lt {n : Int} (hlow : -2147483648 ≤ n) (hhigh : n < 2147483648) : toInt32 n = n := by
  unfold toInt32
  rw [BitVec.toInt_ofInt, Int.bmod_eq_of_le (by omega) (by omega)]

/-- Doubling does not overflow where `realloc` can be asked for the result. -/
theorem toInt32_double {n : Int} (hpos : 0 < n) (hlt : n < 2147483648) (hsize : 0 ≤ toInt32 (n * 2)) :
    toInt32 (n * 2) = n * 2 ∧ n * 2 < 2147483648 := by
  by_cases hfits : n * 2 < 2147483648
  · exact ⟨toInt32_of_lt (by omega) hfits, hfits⟩
  · unfold toInt32 at hsize
    rw [BitVec.toInt_ofInt, Int.bmod_def] at hsize
    omega

theorem represents_create : Represents (tunnelListCreate : TunnelList T) [] := by
  refine ⟨rfl, ?_, ?_, by simp [tunnelListCreate], by simp [tunnelListCreate], fun _ => rfl, ?_⟩
  · exact Int.zero_lt_one
  · show (1 : Int) < 2147483648
    omega
  · simp [tunnelListCreate, TunnelList.slot]

/-- A `realloc` that succeeds was not asked for a negative size. -/
theorem nonneg_of_realloc {tunnels : Option (List (Option T))} {entries : List (Option T)}
    {size : Int} (h : reallocTunnels ok tunnels size = some entries) : 0 ≤ size := by
  unfold reallocTunnels at h
  split_ifs at h with hok
  exact hok.2

/-- A `realloc` that makes the array longer keeps its entries. -/
theorem slot_realloc {entries : List (Option T)} {size : Int}
    (h : reallocTunnels ok list.tunnels size = some entries)
    (hlen : (list.tunnels.getD []).length ≤ size.toNat) :
    entries.length = size.toNat ∧ ∀ i, entries[i]?.join = list.slot i := by
  unfold reallocTunnels at h
  split_ifs at h with hok
  obtain rfl := Option.some.inj h
  rw [List.take_of_length_le hlen]
  refine ⟨by simp; omega, fun i => ?_⟩
  have hslot : list.slot i = (list.tunnels.getD [])[i]?.join := by
    unfold TunnelList.slot
    cases list.tunnels <;> simp
  rw [hslot]
  rcases Nat.lt_or_ge i (list.tunnels.getD []).length with hlt | hge
  · rw [List.getElem?_append_left hlt]
  · rw [List.getElem?_append_right hge, List.getElem?_eq_none_iff.2 hge, List.getElem?_replicate]
    split_ifs <;> rfl

/-- Storing the next tunnel where there is room for it. -/
theorem store_of_room {entries : List (Option T)} (htunnels : list.tunnels = some entries)
    (hsize : list.numTunnels = ts.length + 1) (hroom : ts.length < entries.length)
    (hsmall : list.allocSize < 2147483648) (hlen : (entries.length : Int) = list.allocSize)
    (hfree : ((ts.length + 1 : ℕ) : Int) < list.allocSize) (hslots : ∀ i, list.slot i = ts[i]?) :
    ∃ list', storeTunnel list ts.length t = .ret true list' ∧ Represents list' (ts ++ [t]) := by
  refine ⟨{ list with tunnels := some (entries.set ts.length (some t)) }, ?_, ?_⟩
  · unfold storeTunnel
    rw [htunnels]
    exact if_pos ⟨by omega, by omega⟩
  · refine ⟨?_, ?_, hsmall, ?_, by simp, by simp, fun i => ?_⟩
    · simpa using hsize
    · simpa using hfree
    · rintro _ ⟨⟩
      rwa [List.length_set]
    · have hold : entries[i]?.join = ts[i]? := by
        rw [← hslots i, TunnelList.slot, htunnels]
        rfl
      show (entries.set ts.length (some t))[i]?.join = _
      rw [List.getElem?_set]
      split_ifs with heq
      · subst heq
        simp
      · rcases Nat.lt_or_ge i ts.length with hlt | hge
        · rw [hold, List.getElem?_append_left hlt]
        · have hnone : ts[i]? = none := List.getElem?_eq_none_iff.2 hge
          rw [hold, hnone, List.getElem?_append_right hge, eq_comm, List.getElem?_eq_none_iff]
          simp
          omega

/-- **A call whose `realloc` succeeds adds the tunnel.** -/
theorem Represents.add (h : Represents list ts) (t : T) (hok : ¬ ReallocFails list ok) :
    ∃ list', tunnelListAdd ok list t = .ret true list' ∧ Represents list' (ts ++ [t]) := by
  have hroom := h.room
  have hsmall := h.small
  have hcount : toInt32 (list.numTunnels + 1) = ts.length + 1 := by
    rw [h.size]
    exact toInt32_of_lt (by omega) (by omega)
  unfold tunnelListAdd
  dsimp only
  rw [hcount, h.size]
  by_cases hfull : (ts.length : Int) + 1 ≥ list.allocSize
  · rw [if_pos hfull]
    cases hrealloc : reallocTunnels ok list.tunnels (toInt32 (list.allocSize * 2)) with
    | none => exact absurd ⟨by rwa [hcount], hrealloc⟩ hok
    | some entries =>
      obtain ⟨hdouble, hfits⟩ := toInt32_double (by omega) hsmall (nonneg_of_realloc hrealloc)
      have hlen : (list.tunnels.getD []).length ≤ (toInt32 (list.allocSize * 2)).toNat := by
        cases htunnels : list.tunnels with
        | none => exact Nat.zero_le _
        | some old =>
          have := h.array old htunnels
          simp only [Option.getD_some]
          omega
      obtain ⟨hlength, hslots⟩ := slot_realloc hrealloc hlen
      refine store_of_room rfl rfl (by omega) (by show toInt32 _ < _; omega)
        (by show _ = toInt32 _; omega) (by show _ < toInt32 _; omega) fun i => ?_
      rw [← h.slots i, ← hslots i]
      rfl
  · rw [if_neg hfull]
    cases htunnels : list.tunnels with
    | none =>
      obtain rfl := h.null.1 htunnels
      simp [h.first rfl] at hfull
    | some entries =>
      have hlen := h.array entries htunnels
      refine store_of_room rfl rfl (by omega) hsmall hlen (by push_cast; omega) fun i => ?_
      rw [← h.slots i, TunnelList.slot, TunnelList.slot, htunnels]

/-- A call whose `realloc` fails returns `false`, and has counted the tunnel. -/
theorem add_of_reallocFails (h : ReallocFails list ok) (t : T) : tunnelListAdd ok list t =
    .ret false { list with numTunnels := toInt32 (list.numTunnels + 1) } := by
  unfold tunnelListAdd
  dsimp only
  rw [if_pos h.1, h.2]

/-- `tunnel_list_get` on a list that holds `ts`. -/
theorem Represents.get (h : Represents list ts) (index : Int) : tunnelListGet list index =
    if 0 ≤ index then ts[index.toNat]?.elim .null .ret else .null := by
  unfold tunnelListGet
  rw [h.slots, h.size]
  by_cases hneg : index < 0
  · rw [if_pos (.inl hneg), if_neg (by omega)]
  · rw [if_pos (by omega : 0 ≤ index)]
    rcases Nat.lt_or_ge index.toNat ts.length with hlt | hge
    · rw [if_neg (by omega), List.getElem?_eq_getElem hlt]
      rfl
    · rw [if_pos (.inr (by omega)), List.getElem?_eq_none_iff.2 hge]
      rfl

/-- `tunnel_list_size` of a list that holds `ts`. -/
theorem Represents.toNat_size (h : Represents list ts) : (tunnelListSize list).toNat = ts.length := by
  have hroom := h.room
  have hsmall := h.small
  unfold tunnelListSize
  rw [h.size, BitVec.toNat_ofInt]
  omega

/-- The entries of a list that holds `ts`. -/
theorem Represents.map_slot (h : Represents list ts) :
    (List.range ts.length).map list.slot = ts.map some := by
  refine List.ext_getElem? fun i => ?_
  rw [List.getElem?_map, List.getElem?_map]
  rcases Nat.lt_or_ge i ts.length with hlt | hge
  · rw [List.getElem?_range hlt, Option.map_some, h.slots, List.getElem?_eq_getElem hlt]
    rfl
  · rw [List.getElem?_eq_none_iff.2 hge, List.getElem?_eq_none_iff.2 (by simpa using hge)]
    rfl

/-- The size of the array of a list that holds `ts`. -/
theorem Represents.length_tunnels (h : Represents list ts) (hne : ts ≠ []) :
    ((list.tunnels.getD []).length : Int) = list.allocSize := by
  cases htunnels : list.tunnels with
  | none => exact absurd (h.null.1 htunnels) hne
  | some entries => exact h.array entries htunnels

/-- **A list that holds `ts` deletes each of them**, and nothing else. -/
theorem Represents.delete (h : Represents list ts) :
    tunnelListDelete list = ⟨ts.map some, false⟩ := by
  have hsize : list.numTunnels.toNat = ts.length := by rw [h.size, Int.toNat_natCast]
  have hroom : ts.length ≤ (list.tunnels.getD []).length := by
    by_cases hnil : ts = []
    · rw [hnil]
      exact Nat.zero_le _
    · have := h.length_tunnels hnil
      have := h.room
      omega
  unfold tunnelListDelete
  dsimp only
  rw [hsize, Nat.min_eq_left hroom, h.map_slot, decide_eq_false (Nat.not_lt.2 hroom)]

/-- **What is deleted when the list has no room**: the tunnel, the tunnels of the list,
and what the entry after them holds, which has never been written.  When there is no tunnel
in the list there is no array, and what is read as its first entry is nowhere. -/
theorem Represents.rejectTunnel_of_reallocFails (h : Represents list ts) (t : T)
    (hfails : ReallocFails list ok) : ∃ list', tunnelListAdd ok list t = .ret false list' ∧
      list'.numTunnels = list.numTunnels + 1 ∧
      (ts = [] → rejectTunnel list' t = ⟨[some t], true⟩) ∧
      (ts ≠ [] → rejectTunnel list' t = ⟨(t :: ts).map some ++ [none], false⟩) := by
  have hroom := h.room
  have hsmall := h.small
  have hcount : toInt32 (list.numTunnels + 1) = list.numTunnels + 1 := by
    rw [h.size]
    exact toInt32_of_lt (by omega) (by omega)
  refine ⟨_, add_of_reallocFails hfails t, hcount, ?_⟩
  unfold rejectTunnel tunnelListDelete
  dsimp only
  rw [hcount, h.size, show ((ts.length : Int) + 1).toNat = ts.length + 1 by omega]
  constructor
  · rintro rfl
    rw [h.null.2 rfl]
    rfl
  · intro hne
    have hlen := h.length_tunnels hne
    have hlast : list.slot ts.length = none := by
      rw [h.slots, List.getElem?_eq_none_iff.2 le_rfl]
    rw [Nat.min_eq_left (by omega), decide_eq_false (by omega), List.range_succ,
      List.map_append]
    show ListDelete.mk (some t :: ((List.range ts.length).map list.slot ++ [list.slot ts.length])) false = _
    rw [h.map_slot, hlast]
    rfl

/-- **The list that the callback keeps is the one in the array**, when what it hears from
`tunnel_list_add` is what becomes of the call. -/
theorem Represents.commit {create : ℕ → TunnelParams → CreateOutcome T} {listAdd : ℕ → Bool}
    {s : ConfigParseState T} (h : Represents list ts) (hlist : s.tunnelList = some ts)
    (hseen : s.seenValues = true)
    (hcreate : create s.calls.length (withName s.params) = .created t)
    (hadd : tunnelListAdd ok list t = .ret (listAdd s.calls.length) list') :
    (commitTunnel create listAdd s).ending = .ret (listAdd s.calls.length) ∧
      ∀ ts', (commitTunnel create listAdd s).state.tunnelList = some ts' →
        Represents list' ts' := by
  unfold commitTunnel
  rw [if_pos hseen]
  dsimp only
  rw [hcreate]
  dsimp only
  cases hok : listAdd s.calls.length with
  | false =>
    rw [if_neg (by simp)]
    exact ⟨rfl, fun ts' hnone => by cases hnone⟩
  | true =>
    rw [hok] at hadd
    have hfits : ¬ ReallocFails list ok := by
      intro hfails
      rw [add_of_reallocFails hfails] at hadd
      cases hadd
    obtain ⟨list₁, hret, hlist₁⟩ := h.add t hfits
    rw [hret] at hadd
    injection hadd with _ hsame
    rw [if_pos rfl]
    refine ⟨rfl, fun ts' hsome => ?_⟩
    have hts : ts ++ [t] = ts' := by simpa [hlist] using hsome
    rw [← hsame, ← hts]
    exact hlist₁

theorem ok_of_storeTunnel {next : Int} (h : storeTunnel list next t = .ret ok list') :
    ok = true := by
  unfold storeTunnel at h
  split at h
  · cases h
  · split_ifs at h
    injection h with hok
    exact hok.symm

/-- A call fails exactly when its `realloc` does. -/
theorem ok_eq_false_iff {call : AddCall T} (h : AddStep list call list') :
    call.ok = false ↔ ReallocFails list call.realloc := by
  constructor
  · intro hfalse
    by_contra hok
    have htrue : call.ok = true := by
      unfold AddStep tunnelListAdd at h
      dsimp only at h
      split_ifs at h with hfull
      · cases hrealloc : reallocTunnels call.realloc list.tunnels (toInt32 (list.allocSize * 2)) with
        | none => exact absurd ⟨hfull, hrealloc⟩ hok
        | some entries =>
          rw [hrealloc] at h
          exact ok_of_storeTunnel h
      · exact ok_of_storeTunnel h
    rw [hfalse] at htrue
    cases htrue
  · intro hfails
    have hret := (add_of_reallocFails hfails call.tunnel).symm.trans h
    injection hret with hok
    exact hok.symm

theorem added_snoc (tr : ListTrace T) (e : Event (TunnelList T) (AddCall T)) :
    added (tr ++ [e]) = added tr ++ if e.act.ok then [e.act.tunnel] else [] := by
  unfold added
  rw [List.filter_append, List.map_append]
  cases hok : e.act.ok <;> simp [hok]

/-- **While no `realloc` fails the list holds what has been added.** -/
theorem represents_of_run (hrun : Run AddStep tunnelListCreate tr list)
    (hok : ∀ e ∈ tr, ¬ ReallocFails e.pre e.act.realloc) : Represents list (added tr) := by
  induction hrun with
  | nil => exact represents_create
  | @snoc u v tr call hrun hstep ih =>
    have hu := ih fun e he => hok e (List.mem_append_left _ he)
    have hlast := hok ⟨u, call, v⟩ (List.mem_append_right _ (List.mem_singleton.2 rfl))
    obtain ⟨list', hadd, hlist'⟩ := hu.add call.tunnel hlast
    have hret := hadd.symm.trans hstep
    injection hret with hcall hv
    rw [added_snoc, ← hv]
    show Represents list' (added tr ++ if call.ok then [call.tunnel] else [])
    rwa [← hcall]

/-- **A failed call changes the list.** -/
theorem numTunnels_of_reallocFails {call : AddCall T} (h : AddStep list call list')
    (hfails : ReallocFails list call.realloc) : list'.numTunnels = toInt32 (list.numTunnels + 1) := by
  have hret := (add_of_reallocFails hfails call.tunnel).symm.trans h
  injection hret with _ hlist
  rw [← hlist]

theorem toInt32_succ_ne (n : Int) : toInt32 (n + 1) ≠ n := by
  unfold toInt32
  rw [BitVec.toInt_ofInt, Int.bmod_def]
  omega

end Calls

/-- **The list is what it should be exactly when no `realloc` has failed**, for any calls
of `tunnel_list_add` on a new list.  The first that fails leaves the list with a tunnel
too many, and what is then deleted ends with an entry that was never written; or the entry
is read through `NULL`, when nothing has been added before. -/
theorem listSound_iff {T : Type} (tr : ListTrace T) (list : TunnelList T)
    (hrun : Run AddStep tunnelListCreate tr list) :
    (ListSound tr list ↔ ∀ e ∈ tr, ¬ ReallocFails e.pre e.act.realloc) ∧
    ((∀ e ∈ tr, ¬ ReallocFails e.pre e.act.realloc) → ∀ ok t, ReallocFails list ok →
      ∃ list', tunnelListAdd ok list t = .ret false list' ∧
        list'.numTunnels = list.numTunnels + 1 ∧
        (added tr = [] → rejectTunnel list' t = ⟨[some t], true⟩) ∧
        (added tr ≠ [] → rejectTunnel list' t = ⟨(t :: added tr).map some ++ [none], false⟩)) := by
  refine ⟨⟨fun hsound e he hfails => ?_, fun hok => ?_⟩, fun hok ok t hfails =>
    (represents_of_run hrun hok).rejectTunnel_of_reallocFails t hfails⟩
  · obtain ⟨tr₁, tr₂, rfl⟩ := List.append_of_mem he
    obtain ⟨-, hstep, -⟩ := hrun.cut
    have hsame := hsound.failed e he ((ok_eq_false_iff hstep).2 hfails)
    have hcount := numTunnels_of_reallocFails hstep hfails
    rw [hsame] at hcount
    exact toInt32_succ_ne _ hcount.symm
  · have hlist := represents_of_run hrun hok
    have hnever : ∀ e ∈ tr, e.act.ok ≠ false := by
      intro e he hfalse
      obtain ⟨tr₁, tr₂, rfl⟩ := List.append_of_mem he
      obtain ⟨-, hstep, -⟩ := hrun.cut
      exact hok e he ((ok_eq_false_iff hstep).1 hfalse)
    refine ⟨hlist.toNat_size, hlist.get, fun ok t hwild => ?_,
      fun e he hfalse => absurd hfalse (hnever e he), ?_⟩
    · by_cases hfails : ReallocFails list ok
      · rw [add_of_reallocFails hfails] at hwild
        cases hwild
      · obtain ⟨list', hadd, -⟩ := hlist.add t hfails
        rw [hadd] at hwild
        cases hwild
    · rintro tr₁ e tr₂ rfl hfalse
      exact absurd hfalse (hnever e (by simp))

/-- One tunnel is added; when a second cannot be, both are deleted, and so is what the
second entry of the array holds. -/
theorem listSound_iff_one : ∃ (tr : ListTrace ℕ) (list : TunnelList ℕ),
    Run AddStep tunnelListCreate tr list ∧ added tr = [7] ∧ ListSound tr list ∧
      ∃ list', tunnelListAdd false list 8 = .ret false list' ∧
        rejectTunnel list' 8 = ⟨[some 8, some 7, none], false⟩ := by
  have hstep : AddStep tunnelListCreate ⟨7, true, true⟩
      { allocSize := 2, numTunnels := 1, tunnels := some [some 7, none] } := rfl
  have hrun := Run.single hstep
  have hok : ∀ e ∈ [(⟨tunnelListCreate, ⟨7, true, true⟩,
      { allocSize := 2, numTunnels := 1, tunnels := some [some 7, none] }⟩ :
        Event (TunnelList ℕ) (AddCall ℕ))], ¬ ReallocFails e.pre e.act.realloc := by
    rintro e he ⟨-, hnone⟩
    obtain rfl := List.mem_singleton.1 he
    cases hnone
  obtain ⟨hiff, hrest⟩ := listSound_iff _ _ hrun
  obtain ⟨list', hadd, -, -, hdelete⟩ := hrest hok false 8 ⟨by decide, rfl⟩
  exact ⟨_, _, hrun, rfl, hiff.2 hok, list', hadd, hdelete (by simp [added])⟩

/-- **A tunnel that was not added is counted**: memory runs out at the first call. -/
theorem listSound_fails : ¬ ∀ (tr : ListTrace ℕ) (list : TunnelList ℕ),
    Run AddStep tunnelListCreate tr list → ListSound tr list := by
  intro h
  have hstep : AddStep tunnelListCreate ⟨7, false, false⟩
      { allocSize := 1, numTunnels := 1, tunnels := none } := rfl
  have hsize := (h _ _ (Run.single hstep)).size
  exact absurd hsize (by decide)

end UdpEthTunnel
