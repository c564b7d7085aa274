/-
# Starting up

`main` of `src/main.c` as far as it can fail: it reads the configuration with
`config_parse_event`, which keeps the tunnels in a `tunnel_list`, and gives up with all of
them when the configuration is refused (`mainStart`).  Then it waits for the tunnels of the
list and deletes it (`mainWaits`).

The callback with the array is the callback over a list, with an answer of `tunnel_list_add`
that depends on the number of tunnels alone (`listAdds`): the array doubles.  So starting up
is all or nothing (`startup`): every tunnel is in the list and none has been deleted, or each
has been deleted once, with an entry that was never written if the list could not grow.  And
when it could not grow for the first tunnel there is no entry to delete, and the process dies.

What becomes of a call of `tunnel_delete` is left open (`DeleteEnd`): it may be given an entry
that was never written, and a tunnel whose workers have been running.
-/

import Mathlib.Data.List.Perm.Subperm
import UdpEthTunnel.Config.Ini
import UdpEthTunnel.Tunnel.List

namespace UdpEthTunnel

/-! ### What main does -/

/-- `config_parse_state`, with the list of tunnels as it is in memory; `none` is `NULL`.
`deleted` is what `tunnel_delete` has been called for. -/
structure StartState (T : Type) where
  defaultNumQueues : Int
  seenValues : Bool := false
  params : TunnelParams := {}
  tunnelList : Option (TunnelList T) := some tunnelListCreate
  calls : List TunnelParams := []
  deleted : List (Option T) := []

/-- How a call of `tunnel_delete` ends. -/
inductive DeleteEnd where
  | returns
  /-- the process dies of memory that is not there, or that is not a tunnel's -/
  | dies
  /-- a worker is waited for that does not end -/
  | hangs
deriving DecidableEq, Repr

/-- What the process comes to in a call that does not return. -/
def DeleteEnd.death : DeleteEnd → Option Ending
  | .returns => none
  | .dies => some (.crash .wildAccess)
  | .hangs => some .stuck

/-- What the process comes to in a call of `tunnel_create` that does not return. -/
def CreateOutcome.death {T : Type} : CreateOutcome T → Option Ending
  | .crash c => some (.crash c)
  | .stuck => some .stuck
  | _ => none

section Start

variable {T : Type} (create : ℕ → TunnelParams → CreateOutcome T) (realloc : ℕ → Bool)
  (deletes : ℕ → DeleteEnd)

/-- `tunnel_delete` is called for one entry after another; `deletes` is how each call ends. -/
def deleteEntries (s : StartState T) : List (Option T) → Reply (StartState T)
  | [] => ⟨.ret true, s⟩
  | entry :: entries =>
    let called := { s with deleted := s.deleted ++ [entry] }
    match (deletes s.deleted.length).death with
    | none => deleteEntries called entries
    | some death => ⟨death, called⟩

/-- A list is deleted, and the configuration refused. -/
def deleteList (s : StartState T) (list : ListDelete T) : Reply (StartState T) :=
  (deleteEntries deletes s list.entries).andThen fun s =>
    ⟨if list.wild then .crash .wildAccess else .ret false, { s with tunnelList := none }⟩

/-- `config_parse_event`, when a section ends: the tunnel is created and added to the list. -/
def commitToList (s : StartState T) : Reply (StartState T) :=
  if s.seenValues then
    let params := withName s.params
    let called := { s with params := params, calls := s.calls ++ [params] }
    match create s.calls.length params with
    | .crash c => ⟨.crash c, called⟩
    | .stuck => ⟨.stuck, called⟩
    | .null => ⟨.ret false, { called with params := {} }⟩
    | .created t =>
      match s.tunnelList with
      -- `tunnel_list_add` counts the tunnel through `NULL`
      | none => ⟨.crash .wildAccess, { called with params := {} }⟩
      | some list =>
        match tunnelListAdd (realloc s.calls.length) list t with
        | .wildStore => ⟨.crash .wildAccess, { called with params := {} }⟩
        | .ret true list => ⟨.ret true, { called with params := {}, tunnelList := some list }⟩
        | .ret false list =>
          deleteList deletes { called with params := {}, tunnelList := some list }
            (rejectTunnel list t)
  else ⟨.ret true, s⟩

/-- The parameters of a new section. -/
def StartState.startSection (s : StartState T) (name : CStr) : StartState T :=
  { s with params := { s.params with numQueues := s.defaultNumQueues, tunnelName := some name } }

/-- `config_parse_event`, with the list of tunnels as it is in memory. -/
def configParseToList (s : StartState T) : ConfigEvent → Reply (StartState T)
  | .pair key value =>
    let (params, ok) := setParam s.params key value
    ⟨.ret ok, { s with seenValues := true, params := params }⟩
  | .header name =>
    (commitToList create realloc deletes s).andThen fun s => ⟨.ret true, s.startSection name⟩
  | .endOfFile => commitToList create realloc deletes s

/-- What `main` does with what `ini_parse_file` answers: it deletes the list when the
configuration was refused. -/
def giveUp (r : Reply (StartState T)) : Reply (StartState T) :=
  match r.ending, r.state.tunnelList with
  | .ret false, some list => deleteList deletes r.state (tunnelListDelete list)
  | _, _ => r

/-- `main`, up to the signal handlers: what it has when the configuration has been read, or
when it returns 1. -/
def mainStart (nprocs : Int) (text : CStr) : Reply (StartState T) :=
  giveUp deletes
    (iniParseFile (configParseToList create realloc deletes) { defaultNumQueues := nprocs } text)

end Start

/-- The tunnels that `main` waits for: those it gets from the list. -/
def mainWaits {T : Type} (list : TunnelList T) : List T :=
  (List.range (tunnelListSize list).toNat).filterMap fun i : ℕ =>
    match tunnelListGet list i with
    | .ret t => some t
    | _ => none

/-- The tunnels that the calls of `tunnel_create` have created, in order. -/
def createdTunnels {T : Type} (create : ℕ → TunnelParams → CreateOutcome T)
    (calls : List TunnelParams) : List T :=
  (calls.mapIdx create).filterMap CreateOutcome.toOption

/-! ### The room in the list -/

/-- The size of the array of a list that holds `n` tunnels. -/
def listRoom : ℕ → Int
  | 0 => 1
  | n + 1 => if (n : Int) + 1 ≥ listRoom n then listRoom n * 2 else listRoom n

/-- What `tunnel_list_add` answers when the list holds `k` tunnels. -/
def listAdds (realloc : ℕ → Bool) (k : ℕ) : Bool :=
  (k : Int) + 1 < listRoom k || (realloc k && listRoom k * 2 < 2147483648)

section Room

variable {T : Type} {list list' : TunnelList T} {ts : List T} {t : T} {ok : Bool}
  {realloc : ℕ → Bool}

/-- The list has no room exactly when `realloc` does not give any. -/
theorem reallocFails_iff (h : Represents list ts) (hroom : list.allocSize = listRoom ts.length) :
    ReallocFails list (realloc ts.length) ↔ listAdds realloc ts.length = false := by
  have hfree := h.room
  have hsmall := h.small
  have hcount : toInt32 (list.numTunnels + 1) = ts.length + 1 := by
    rw [h.size]
    exact toInt32_of_lt (by omega) (by omega)
  have hfits : 0 ≤ toInt32 (list.allocSize * 2) ↔ list.allocSize * 2 < 2147483648 := by
    constructor
    · exact fun hpos => (toInt32_double (by omega) hsmall hpos).2
    · intro hlt
      rw [toInt32_of_lt (by omega) hlt]
      omega
  have hnone : reallocTunnels (realloc ts.length) list.tunnels (toInt32 (list.allocSize * 2)) = none ↔
      ¬ (realloc ts.length = true ∧ list.allocSize * 2 < 2147483648) := by
    unfold reallocTunnels
    rw [← hfits]
    split_ifs with hok
    · simp [hok]
    · simp only [hok, not_false_eq_true]
  unfold ReallocFails listAdds
  rw [hcount, hnone, ← hroom, Bool.or_eq_false_iff, decide_eq_false_iff_not, Int.not_lt,
    Bool.and_eq_false_iff, decide_eq_false_iff_not, not_and_or, Bool.not_eq_true]

/-- The size of the array after a call that adds. -/
theorem allocSize_of_add (h : Represents list ts) (hadd : tunnelListAdd ok list t = .ret true list') :
    list'.allocSize =
      if (ts.length : Int) + 1 ≥ list.allocSize then list.allocSize * 2 else list.allocSize := by
  have hfree := h.room
  have hsmall := h.small
  have hcount : toInt32 (list.numTunnels + 1) = ts.length + 1 := by
    rw [h.size]
    exact toInt32_of_lt (by omega) (by omega)
  have hstore : ∀ {l : TunnelList T} {next}, storeTunnel l next t = .ret true list' →
      list'.allocSize = l.allocSize := by
    intro l next hstore
    unfold storeTunnel at hstore
    split at hstore
    · cases hstore
    · split_ifs at hstore
      injection hstore with _ hlist
      rw [← hlist]
  unfold tunnelListAdd at hadd
  dsimp only at hadd
  rw [hcount] at hadd
  split_ifs at hadd ⊢ with hfull
  · cases hrealloc : reallocTunnels ok list.tunnels (toInt32 (list.allocSize * 2)) with
    | none =>
      rw [hrealloc] at hadd
      cases hadd
    | some entries =>
      rw [hrealloc] at hadd
      rw [hstore hadd]
      exact (toInt32_double (by omega) hsmall (nonneg_of_realloc hrealloc)).1
  · exact (hstore hadd).trans rfl

/-- **A call of `tunnel_list_add`** on a list that holds `ts`. -/
theorem Represents.add_cases (h : Represents list ts) (hroom : list.allocSize = listRoom ts.length)
    (realloc : ℕ → Bool) (t : T) :
    (listAdds realloc ts.length = true ∧ ∃ list',
      tunnelListAdd (realloc ts.length) list t = .ret true list' ∧ Represents list' (ts ++ [t]) ∧
        list'.allocSize = listRoom (ts ++ [t]).length) ∨
    listAdds realloc ts.length = false ∧ ∃ list',
      tunnelListAdd (realloc ts.length) list t = .ret false list' ∧
        (ts = [] → rejectTunnel list' t = ⟨[some t], true⟩) ∧
        (ts ≠ [] → rejectTunnel list' t = ⟨(t :: ts).map some ++ [none], false⟩) := by
  by_cases hfails : ReallocFails list (realloc ts.length)
  · obtain ⟨list', hadd, -, hreject⟩ := h.rejectTunnel_of_reallocFails t hfails
    exact .inr ⟨(reallocFails_iff h hroom).1 hfails, list', hadd, hreject⟩
  · obtain ⟨list', hadd, hlist'⟩ := h.add t hfails
    refine .inl ⟨?_, list', hadd, hlist', ?_⟩
    · rw [← Bool.not_eq_false, ← reallocFails_iff h hroom]
      exact hfails
    · rw [allocSize_of_add h hadd, hroom, List.length_append, List.length_singleton]
      rfl

end Room

/-! ### Deleting what there is -/

section Delete

variable {T : Type} {deletes : ℕ → DeleteEnd} {s : StartState T} {entries : List (Option T)}
  {r : Reply (StartState T)}

theorem DeleteEnd.death_ne_ret {e : DeleteEnd} {death : Ending} (h : e.death = some death)
    (ok : Bool) : death ≠ .ret ok := by
  cases e <;> cases h <;> nofun

/-- **The process has come to its end in a call of `tunnel_delete`** for one of the entries. -/
structure DiesDeleting (deletes : ℕ → DeleteEnd) (s : StartState T) (entries : List (Option T))
    (r : Reply (StartState T)) : Prop where
  calls : r.state.calls = s.calls
  deleted : r.state.deleted <+: s.deleted ++ entries
  last : ∃ k, r.state.deleted.length = k + 1 ∧ (deletes k).death = some r.ending

theorem DiesDeleting.ending_ne (h : DiesDeleting deletes s entries r) (ok : Bool) :
    r.ending ≠ .ret ok := by
  obtain ⟨k, -, hdeath⟩ := h.last
  exact DeleteEnd.death_ne_ret hdeath ok

theorem DiesDeleting.deleted_ne (h : DiesDeleting deletes s entries r) : r.state.deleted ≠ [] := by
  obtain ⟨k, hlen, -⟩ := h.last
  exact List.ne_nil_of_length_eq_add_one hlen

/-- Each entry is handed to `tunnel_delete`, or the process ends before. -/
theorem deleteEntries_cases (deletes : ℕ → DeleteEnd) (s : StartState T)
    (entries : List (Option T)) :
    deleteEntries deletes s entries = ⟨.ret true, { s with deleted := s.deleted ++ entries }⟩ ∨
      DiesDeleting deletes s entries (deleteEntries deletes s entries) := by
  induction entries generalizing s with
  | nil =>
    rw [List.append_nil]
    exact .inl rfl
  | cons entry entries ih =>
    unfold deleteEntries
    dsimp only
    have hnext : s.deleted ++ entry :: entries = (s.deleted ++ [entry]) ++ entries :=
      List.append_cons _ _ _
    cases hdeath : (deletes s.deleted.length).death with
    | some death =>
      rw [hnext]
      exact .inr ⟨rfl, hnext ▸ List.prefix_append _ _, _, List.length_append, hdeath⟩
    | none =>
      rw [hnext]
      rcases ih { s with deleted := s.deleted ++ [entry] } with hall | ⟨hcalls, hfront, hlast⟩
      · exact .inl hall
      · exact .inr ⟨hcalls, hnext ▸ hfront, hlast⟩

/-- **A list is deleted entry by entry**, to the end of what can be read, or the process ends
before. -/
theorem deleteList_cases (deletes : ℕ → DeleteEnd) (s : StartState T) (list : ListDelete T) :
    deleteList deletes s list = ⟨if list.wild then .crash .wildAccess else .ret false,
        { s with tunnelList := none, deleted := s.deleted ++ list.entries }⟩ ∨
      DiesDeleting deletes s list.entries (deleteList deletes s list) := by
  unfold deleteList
  rcases deleteEntries_cases deletes s list.entries with hall | hdies
  · rw [hall]
    exact .inl rfl
  · rw [Reply.andThen_of_ne (hdies.ending_ne true)]
    exact .inr hdies

theorem calls_deleteList (deletes : ℕ → DeleteEnd) (s : StartState T) (list : ListDelete T) :
    (deleteList deletes s list).state.calls = s.calls := by
  rcases deleteList_cases deletes s list with hall | hdies
  · rw [hall]
  · exact hdies.calls

theorem calls_giveUp (deletes : ℕ → DeleteEnd) (r : Reply (StartState T)) :
    (giveUp deletes r).state.calls = r.state.calls := by
  unfold giveUp
  split
  · exact calls_deleteList _ _ _
  · rfl

end Delete

/-! ### The callback with the array -/

/-- Two callbacks that go on together: `R` holds of the states while they do, and `Q` of what
they answer where they do not. -/
structure Alike {σ τ : Type} (R : σ → τ → Prop) (Q : Reply σ → Reply τ → Prop) (r : Reply σ)
    (r' : Reply τ) : Prop where
  ending : r'.ending = .ret true ↔ r.ending = .ret true
  going : r.ending = .ret true → R r.state r'.state
  ended : r.ending ≠ .ret true → Q r r'

section Alike

variable {σ τ : Type} {R : σ → τ → Prop} {Q : Reply σ → Reply τ → Prop}

theorem Alike.goesOn {s : σ} {c : τ} (h : R s c) : Alike R Q ⟨.ret true, s⟩ ⟨.ret true, c⟩ :=
  ⟨Iff.rfl, fun _ => h, fun hne => absurd rfl hne⟩

theorem Alike.ends {r : Reply σ} {r' : Reply τ} (hr : r.ending ≠ .ret true)
    (hr' : r'.ending ≠ .ret true) (h : Q r r') : Alike R Q r r' :=
  ⟨iff_of_false hr' hr, fun htrue => absurd htrue hr, fun _ => h⟩

theorem Alike.andThen {r : Reply σ} {r' : Reply τ} {f : σ → Reply σ} {g : τ → Reply τ}
    (h : Alike R Q r r') (hfg : ∀ s c, R s c → Alike R Q (f s) (g c)) :
    Alike R Q (r.andThen f) (r'.andThen g) := by
  by_cases htrue : r.ending = .ret true
  · rw [Reply.andThen_of_true htrue, Reply.andThen_of_true (h.ending.2 htrue)]
    exact hfg _ _ (h.going htrue)
  · rw [Reply.andThen_of_ne htrue, Reply.andThen_of_ne (mt h.ending.1 htrue)]
    exact h

theorem Alike.iniParseLines {cb : σ → ConfigEvent → Reply σ} {cb' : τ → ConfigEvent → Reply τ}
    (hcb : ∀ s c e, R s c → Alike R Q (cb s e) (cb' c e))
    (hstop : ∀ s c, R s c → Q ⟨.ret false, s⟩ ⟨.ret false, c⟩) (lines : List CStr) {s : σ} {c : τ}
    (h : R s c) :
    Alike R Q (UdpEthTunnel.iniParseLines cb s lines) (UdpEthTunnel.iniParseLines cb' c lines) := by
  induction lines generalizing s c with
  | nil => exact .goesOn h
  | cons line lines ih =>
    rw [iniParseLines_cons, iniParseLines_cons]
    refine Alike.andThen ?_ fun s c h => ih h
    unfold handleLine
    cases parseLine line with
    | event e => exact hcb s c e h
    | silent => exact .goesOn h
    | refused => exact .ends nofun nofun (hstop s c h)

/-- **Callbacks that answer alike are told the same.** -/
theorem Alike.iniParseFile {cb : σ → ConfigEvent → Reply σ} {cb' : τ → ConfigEvent → Reply τ}
    (hcb : ∀ s c e, R s c → Alike R Q (cb s e) (cb' c e))
    (hstop : ∀ s c, R s c → Q ⟨.ret false, s⟩ ⟨.ret false, c⟩) {s : σ} {c : τ} (h : R s c) (text : CStr) :
    Alike R Q (UdpEthTunnel.iniParseFile cb s text) (UdpEthTunnel.iniParseFile cb' c text) :=
  (Alike.iniParseLines hcb hstop (readLines text) h).andThen fun s c h => hcb s c .endOfFile h

end Alike

section Tracks

variable {T : Type} {create : ℕ → TunnelParams → CreateOutcome T} {realloc : ℕ → Bool}
  {deletes : ℕ → DeleteEnd} {s : StartState T} {c : ConfigParseState T}

theorem createdTunnels_snoc (create : ℕ → TunnelParams → CreateOutcome T) (calls : List TunnelParams)
    (params : TunnelParams) : createdTunnels create (calls ++ [params]) =
      createdTunnels create calls ++ (create calls.length params).toOption.toList := by
  unfold createdTunnels
  rw [List.mapIdx_append, List.filterMap_append]
  congr 1
  show [create (0 + calls.length) params].filterMap _ = _
  rw [Nat.zero_add]
  cases create calls.length params <;> rfl

theorem createdTunnels_created {calls : List TunnelParams} {params : TunnelParams} {t : T}
    (h : create calls.length params = .created t) :
    createdTunnels create (calls ++ [params]) = createdTunnels create calls ++ [t] := by
  rw [createdTunnels_snoc, h]
  rfl

theorem createdTunnels_null {calls : List TunnelParams} {params : TunnelParams}
    (h : create calls.length params = .null) :
    createdTunnels create (calls ++ [params]) = createdTunnels create calls := by
  rw [createdTunnels_snoc, h]
  exact List.append_nil _

/-- Each call has created a tunnel. -/
def AllCreated (create : ℕ → TunnelParams → CreateOutcome T) (calls : List TunnelParams) : Prop :=
  (createdTunnels create calls).length = calls.length

theorem length_createdTunnels_le (create : ℕ → TunnelParams → CreateOutcome T)
    (calls : List TunnelParams) : (createdTunnels create calls).length ≤ calls.length := by
  unfold createdTunnels
  exact (List.length_filterMap_le _ _).trans List.length_mapIdx.le

theorem AllCreated.init {calls : List TunnelParams} {params : TunnelParams}
    (h : AllCreated create (calls ++ [params])) : AllCreated create calls := by
  unfold AllCreated at h ⊢
  rw [createdTunnels_snoc, List.length_append, List.length_append, List.length_singleton] at h
  have hold := length_createdTunnels_le create calls
  have hlast : (create calls.length params).toOption.toList.length ≤ 1 := by
    cases create calls.length params <;> simp [CreateOutcome.toOption]
  omega

theorem AllCreated.created {calls : List TunnelParams} {params : TunnelParams} {t : T}
    (h : AllCreated create calls) (hcreate : create calls.length params = .created t) :
    AllCreated create (calls ++ [params]) := by
  unfold AllCreated at h ⊢
  rw [createdTunnels_created hcreate, List.length_append, List.length_append, h]
  rfl

theorem AllCreated.dropLast {calls : List TunnelParams} (h : AllCreated create calls) :
    AllCreated create calls.dropLast := by
  rcases List.eq_nil_or_concat calls with rfl | ⟨init, last, rfl⟩
  · exact h
  · rw [List.concat_eq_append] at h ⊢
    rw [List.dropLast_concat]
    exact h.init

/-- **The tunnels are where their calls are**, when each call before the last has created one. -/
theorem getElem?_createdTunnels {calls : List TunnelParams} (h : AllCreated create calls.dropLast)
    (k : ℕ) : (createdTunnels create calls)[k]? =
      calls[k]?.bind fun params => (create k params).toOption := by
  induction calls using List.reverseRecOn with
  | nil => rfl
  | append_singleton calls params ih =>
    rw [List.dropLast_concat] at h
    have hlen : (createdTunnels create calls).length = calls.length := h
    rw [createdTunnels_snoc]
    rcases lt_trichotomy k calls.length with hlt | rfl | hgt
    · rw [List.getElem?_append_left (hlen ▸ hlt), List.getElem?_append_left hlt, ih h.dropLast]
    · rw [List.getElem?_append_right hlen.le, List.getElem?_concat_length, hlen, Nat.sub_self,
        Option.bind_some]
      cases create calls.length params <;> rfl
    · have hout : (calls ++ [params])[k]? = none := by simp; omega
      have hnone : (createdTunnels create calls ++
          (create calls.length params).toOption.toList)[k]? = none := by
        rw [List.getElem?_append_right (by omega)]
        refine List.getElem?_eq_none ?_
        cases create calls.length params with
        | created t =>
          show 1 ≤ _
          omega
        | _ => exact Nat.zero_le _
      rw [hout, hnone]
      rfl

/-- **The array holds the tunnels of the list**, which are those created, and none has been
deleted. -/
structure Tracks (create : ℕ → TunnelParams → CreateOutcome T) (s : StartState T)
    (c : ConfigParseState T) : Prop where
  same : c.defaultNumQueues = s.defaultNumQueues ∧ c.seenValues = s.seenValues ∧
    c.params = s.params ∧ c.calls = s.calls
  list : ∃ list, s.tunnelList = some list ∧ Represents list (createdTunnels create s.calls) ∧
    list.allocSize = listRoom (createdTunnels create s.calls).length
  all : AllCreated create s.calls
  deleted : s.deleted = []

/-- **What is there when the configuration is refused**: all tunnels in the list, or none in
it, and all deleted, because it could not grow. -/
def StartRefused (create : ℕ → TunnelParams → CreateOutcome T) (realloc : ℕ → Bool)
    (s : StartState T) : Prop :=
  (∃ list, s.tunnelList = some list ∧ Represents list (createdTunnels create s.calls) ∧
    s.deleted = []) ∨
    s.tunnelList = none ∧ s.deleted.Perm ((createdTunnels create s.calls).map some ++ [none]) ∧
      ∃ k, k + 1 = s.calls.length ∧ 0 < k ∧ listAdds realloc k = false

/-- **Where the process can come to its end**: in a call of `tunnel_create`, in the clean-up
after the first tunnel when there was no array for it, or in a call of `tunnel_delete`. -/
def StartDies (create : ℕ → TunnelParams → CreateOutcome T) (realloc : ℕ → Bool)
    (deletes : ℕ → DeleteEnd) (r : Reply (StartState T)) : Prop :=
  (∃ k params, r.state.calls[k]? = some params ∧ (create k params).death = some r.ending) ∨
  (r.ending = .crash .wildAccess ∧ r.state.calls.length = 1 ∧ listAdds realloc 0 = false) ∨
  ∃ k, r.state.deleted.length = k + 1 ∧ (deletes k).death = some r.ending

/-- **How the callback ends when it does not go on**, and how the one over a list does. -/
structure Ended (create : ℕ → TunnelParams → CreateOutcome T) (realloc : ℕ → Bool)
    (deletes : ℕ → DeleteEnd) (r : Reply (StartState T)) (r' : Reply (ConfigParseState T)) :
    Prop where
  calls : r'.state.calls = r.state.calls
  before : AllCreated create r.state.calls.dropLast
  same : r'.ending = r.ending ∨ r'.ending = .ret false ∧ r.state.deleted ≠ []
  refused : r.ending = .ret false → StartRefused create realloc r.state
  dies : (∀ ok, r.ending ≠ .ret ok) → StartDies create realloc deletes r
  once : r.state.deleted.Subperm ((createdTunnels create r.state.calls).map some ++ [none])

theorem Tracks.ended (h : Tracks create s c) :
    Ended create realloc deletes ⟨.ret false, s⟩ ⟨.ret false, c⟩ := by
  obtain ⟨list, hlist, hrep, -⟩ := h.list
  exact
    { calls := h.same.2.2.2
      before := h.all.dropLast
      same := .inl rfl
      refused := fun _ => .inl ⟨list, hlist, hrep, h.deleted⟩
      dies := fun hne => absurd rfl (hne false)
      once := h.deleted ▸ List.nil_subperm }

/-- A call of `tunnel_create` that does not return. -/
theorem ended_of_death {params : TunnelParams} {e : Ending} {s' : StartState T}
    {c' : ConfigParseState T} (hall : AllCreated create s.calls) (hdeleted : s'.deleted = [])
    (hcalls : s'.calls = s.calls ++ [params]) (hcalls' : c'.calls = s'.calls)
    (hdeath : (create s.calls.length params).death = some e) (hne : e ≠ .ret false) :
    Ended create realloc deletes ⟨e, s'⟩ ⟨e, c'⟩ :=
  { calls := hcalls'
    before := by
      show AllCreated create s'.calls.dropLast
      rwa [hcalls, List.dropLast_concat]
    same := .inl rfl
    refused := fun h => absurd h hne
    dies := fun _ => .inl ⟨s.calls.length, params,
      (congrArg (·[s.calls.length]?) hcalls).trans List.getElem?_concat_length, hdeath⟩
    once := by
      show s'.deleted.Subperm _
      rw [hdeleted]
      exact List.nil_subperm }

/-- A clean-up in which the process ends. -/
theorem DiesDeleting.ended {entries : List (Option T)} {r : Reply (StartState T)}
    {r' : Reply (ConfigParseState T)} (h : DiesDeleting deletes s entries r)
    (hdeleted : s.deleted = []) (hbefore : AllCreated create s.calls.dropLast)
    (hentries : entries.Subperm ((createdTunnels create s.calls).map some ++ [none]))
    (hcalls : r'.state.calls = s.calls) (hending : r'.ending = .ret false) :
    Ended create realloc deletes r r' :=
  { calls := hcalls.trans h.calls.symm
    before := h.calls ▸ hbefore
    same := .inr ⟨hending, h.deleted_ne⟩
    refused := fun hfalse => absurd hfalse (h.ending_ne false)
    dies := fun _ => .inr (.inr h.last)
    once := by
      have hfront := h.deleted
      rw [hdeleted, List.nil_append] at hfront
      rw [h.calls]
      exact hfront.sublist.subperm.trans hentries }

/-- **The end of a section.**  The list grows as the answer over a list says, or it could not,
and all its tunnels are handed to `tunnel_delete`. -/
theorem Tracks.commit (h : Tracks create s c) :
    Alike (Tracks create) (Ended create realloc deletes) (commitToList create realloc deletes s)
      (commitTunnel create (listAdds realloc) c) := by
  have ⟨⟨hnum, hseen, hparams, hcalls⟩, ⟨list, hlist, hrep, hroom⟩, hall, hdeleted⟩ := h
  unfold commitToList commitTunnel
  rw [hseen, hparams, hcalls, hlist]
  by_cases hvalues : s.seenValues = true
  swap
  · rw [if_neg hvalues, if_neg hvalues]
    exact .goesOn h
  rw [if_pos hvalues, if_pos hvalues]
  dsimp only
  have hbefore : AllCreated create (s.calls ++ [withName s.params]).dropLast := by
    rwa [List.dropLast_concat]
  cases hcreate : create s.calls.length (withName s.params) with
  | crash crash =>
    have hdeath : (create s.calls.length (withName s.params)).death = some (.crash crash) := by
      rw [hcreate]
      rfl
    exact .ends nofun nofun (ended_of_death hall hdeleted rfl rfl hdeath nofun)
  | stuck =>
    have hdeath : (create s.calls.length (withName s.params)).death = some .stuck := by
      rw [hcreate]
      rfl
    exact .ends nofun nofun (ended_of_death hall hdeleted rfl rfl hdeath nofun)
  | null =>
    have hsame := createdTunnels_null hcreate
    refine .ends nofun nofun ⟨rfl, hbefore, .inl rfl,
      fun _ => .inl ⟨list, rfl, hsame.symm ▸ hrep, hdeleted⟩, fun hne => absurd rfl (hne false), ?_⟩
    show s.deleted.Subperm _
    rw [hdeleted]
    exact List.nil_subperm
  | created t =>
    dsimp only
    have hmade := createdTunnels_created hcreate
    have hlen : (createdTunnels create s.calls).length = s.calls.length := hall
    rcases hrep.add_cases hroom realloc t with ⟨hadds, list', hadd, hrep', hroom'⟩ |
      ⟨hadds, list', hadd, hnull, hfull⟩ <;> rw [hlen] at hadd hadds <;> rw [hadd, hadds]
    · exact .goesOn ⟨⟨hnum, rfl, rfl, rfl⟩, ⟨list', rfl, hmade.symm ▸ hrep', hmade.symm ▸ hroom'⟩,
        hall.created hcreate, hdeleted⟩
    · dsimp only
      generalize hstate : ({ s with
        params := {}, calls := s.calls ++ [withName s.params], tunnelList := some list' } :
          StartState T) = s'
      obtain ⟨hdeleted', hcalls'⟩ : s'.deleted = [] ∧ s'.calls = s.calls ++ [withName s.params] := by
        rw [← hstate]
        exact ⟨hdeleted, rfl⟩
      rw [← hcalls'] at hmade hbefore
      have hcount : s.calls.length + 1 = s'.calls.length := by simp [hcalls']
      have hmoved : (t :: createdTunnels create s.calls).Perm (createdTunnels create s'.calls) := by
        rw [hmade]
        exact (List.perm_append_singleton t _).symm
      rw [if_neg Bool.false_ne_true]
      by_cases hnil : createdTunnels create s.calls = []
      · -- there is no array, and its first entry is read
        have hzero : s.calls.length = 0 := by rw [← hlen, hnil, List.length_nil]
        have hsub : [some t].Subperm ((createdTunnels create s'.calls).map some ++ [none]) := by
          rw [hmade, hnil]
          exact (List.sublist_append_left [some t] [none]).subperm
        rw [hnull hnil, ← hcalls']
        rcases deleteList_cases deletes s' ⟨[some t], true⟩ with hread | hdied
        · rw [hread]
          refine .ends nofun nofun ⟨rfl, hbefore, .inr ⟨rfl, ?_⟩, nofun,
            fun _ => .inr (.inl ⟨rfl, by rw [← hcount, hzero], hzero ▸ hadds⟩), ?_⟩
          · show s'.deleted ++ [some t] ≠ []
            simp
          · show (s'.deleted ++ [some t]).Subperm _
            rwa [hdeleted', List.nil_append]
        · exact .ends (hdied.ending_ne true) nofun (hdied.ended hdeleted' hbefore hsub rfl rfl)
      · -- the tunnels of the list are deleted, and one entry more
        have hperm : ((t :: createdTunnels create s.calls).map some ++ [none]).Perm
            ((createdTunnels create s'.calls).map some ++ [none]) :=
          (hmoved.map some).append_right [none]
        rw [hfull hnil, ← hcalls']
        rcases deleteList_cases deletes s'
          ⟨(t :: createdTunnels create s.calls).map some ++ [none], false⟩ with hread | hdied
        · rw [hread]
          have hpos : 0 < s.calls.length := hlen ▸ List.length_pos_iff.2 hnil
          have hgone : (s'.deleted ++ ((t :: createdTunnels create s.calls).map some ++ [none])).Perm
              ((createdTunnels create s'.calls).map some ++ [none]) := by
            rwa [hdeleted', List.nil_append]
          exact .ends nofun nofun ⟨rfl, hbefore, .inl rfl,
            fun _ => .inr ⟨rfl, hgone, _, hcount, hpos, hadds⟩, fun hne => absurd rfl (hne false),
            hgone.subperm⟩
        · exact .ends (hdied.ending_ne true) nofun
            (hdied.ended hdeleted' hbefore hperm.subperm rfl rfl)

/-- **The callback with the array answers as the one over a list.** -/
theorem Tracks.event (h : Tracks create s c) (e : ConfigEvent) :
    Alike (Tracks create) (Ended create realloc deletes)
      (configParseToList create realloc deletes s e)
      (configParseEvent create (listAdds realloc) c e) := by
  cases e with
  | pair key value =>
    obtain ⟨⟨hnum, hseen, hparams, hcalls⟩, hlist, hall, hdeleted⟩ := h
    unfold configParseToList configParseEvent
    rw [hparams]
    dsimp only
    have htracks : ∀ params, Tracks create { s with seenValues := true, params := params }
        { c with seenValues := true, params := params } := fun params =>
      ⟨⟨hnum, rfl, rfl, hcalls⟩, hlist, hall, hdeleted⟩
    cases (setParam s.params key value).2 with
    | true => exact .goesOn (htracks _)
    | false => exact .ends nofun nofun (htracks _).ended
  | header name =>
    have hstart : ∀ (s : StartState T) (c : ConfigParseState T), Tracks create s c →
        Alike (Tracks create) (Ended create realloc deletes) ⟨.ret true, s.startSection name⟩
          ⟨.ret true, c.startSection name⟩ := by
      rintro s c ⟨⟨hnum, hseen, hparams, hcalls⟩, hlist, hall, hdeleted⟩
      refine .goesOn ⟨⟨hnum, hseen, ?_, hcalls⟩, hlist, hall, hdeleted⟩
      unfold ConfigParseState.startSection StartState.startSection
      rw [hparams, hnum]
    exact h.commit.andThen hstart
  | endOfFile => exact h.commit

end Tracks

theorem filterMap_range_getElem? {T : Type} (ts : List T) :
    (List.range ts.length).filterMap (fun i => ts[i]?) = ts := by
  induction ts using List.reverseRecOn with
  | nil => rfl
  | append_singleton ts t ih =>
    have hold : ∀ i ∈ List.range ts.length, (ts ++ [t])[i]? = ts[i]? := fun i hi =>
      List.getElem?_append_left (List.mem_range.1 hi)
    rw [List.length_append, List.length_singleton, List.range_succ, List.filterMap_append,
      List.filterMap_congr hold, ih]
    simp

theorem mainWaits_of_represents {T : Type} {list : TunnelList T} {ts : List T}
    (h : Represents list ts) : mainWaits list = ts := by
  unfold mainWaits
  rw [h.toNat_size]
  refine (List.filterMap_congr fun i hi => ?_).trans (filterMap_range_getElem? ts)
  rw [h.get, if_pos (Int.natCast_nonneg i), Int.toNat_natCast,
    List.getElem?_eq_getElem (List.mem_range.1 hi)]
  rfl

section Main

variable {T : Type} (create : ℕ → TunnelParams → CreateOutcome T) (realloc : ℕ → Bool)
  (deletes : ℕ → DeleteEnd)

/-- The parser with the callback over the array, and with the one over the list. -/
theorem alike_main (nprocs : Int) (text : CStr) :
    Alike (Tracks create) (Ended create realloc deletes)
      (iniParseFile (configParseToList create realloc deletes) { defaultNumQueues := nprocs } text)
      (iniParseFile (configParseEvent create (listAdds realloc)) { defaultNumQueues := nprocs }
        text) := by
  have hinit : Tracks create ({ defaultNumQueues := nprocs } : StartState T)
      { defaultNumQueues := nprocs } :=
    ⟨⟨rfl, rfl, rfl, rfl⟩, ⟨tunnelListCreate, rfl, represents_create, rfl⟩, rfl, rfl⟩
  have hevent : ∀ s c e, Tracks create s c → Alike (Tracks create) (Ended create realloc deletes)
      (configParseToList create realloc deletes s e)
        (configParseEvent create (listAdds realloc) c e) :=
    fun _ _ e h => h.event e
  exact Alike.iniParseFile hevent (fun _ _ h => h.ended) hinit text

/-- **Starting up is all or nothing.**  `r` is how it ends, and `r'` how the parser ends with
the callback over a list. -/
structure StartsUp (r : Reply (StartState T)) (r' : Reply (ConfigParseState T)) : Prop where
  calls : r'.state.calls = r.state.calls
  before : AllCreated create r.state.calls.dropLast
  same : r'.ending = r.ending ∨ r'.ending = .ret false ∧ r.state.deleted ≠ []
  up : r.ending = .ret true → AllCreated create r.state.calls ∧ r.state.deleted = [] ∧
    ∃ list, r.state.tunnelList = some list ∧ mainWaits list = createdTunnels create r.state.calls ∧
      tunnelListDelete list = ⟨(createdTunnels create r.state.calls).map some, false⟩
  refused : r.ending = .ret false →
    r.state.deleted.Perm ((createdTunnels create r.state.calls).map some) ∨
      r.state.deleted.Perm ((createdTunnels create r.state.calls).map some ++ [none]) ∧
        ∃ k, k + 1 = r.state.calls.length ∧ 0 < k ∧ listAdds realloc k = false
  dies : (∀ ok, r.ending ≠ .ret ok) → StartDies create realloc deletes r
  once : r.state.deleted.Subperm ((createdTunnels create r.state.calls).map some ++ [none])

variable {create realloc deletes} {r : Reply (StartState T)} {r' : Reply (ConfigParseState T)}

theorem startsUp_of_tracks (h : Tracks create r.state r'.state) (htrue : r.ending = .ret true)
    (htrue' : r'.ending = .ret true) : StartsUp create realloc deletes r r' := by
  obtain ⟨list, hlist, hrep, -⟩ := h.list
  exact
    { calls := h.same.2.2.2
      before := h.all.dropLast
      same := .inl (htrue'.trans htrue.symm)
      up := fun _ => ⟨h.all, h.deleted, list, hlist, mainWaits_of_represents hrep, hrep.delete⟩
      refused := fun hfalse => nomatch htrue.symm.trans hfalse
      dies := fun hne => absurd htrue (hne true)
      once := h.deleted ▸ List.nil_subperm }

/-- Where `main` has nothing to delete. -/
theorem Ended.startsUp (h : Ended create realloc deletes r r') (hne : r.ending ≠ .ret true)
    (hgone : r.ending = .ret false → r.state.tunnelList = none) :
    StartsUp create realloc deletes r r' :=
  { calls := h.calls
    before := h.before
    same := h.same
    up := fun htrue => absurd htrue hne
    refused := fun hfalse => by
      rcases h.refused hfalse with ⟨list, hlist, -⟩ | ⟨-, hrest⟩
      · cases (hgone hfalse).symm.trans hlist
      · exact .inr hrest
    dies := h.dies
    once := h.once }

/-- **`main` gives up** with the tunnels that are in the list. -/
theorem Ended.giveUp (h : Ended create realloc deletes r r') (hne : r.ending ≠ .ret true) :
    StartsUp create realloc deletes (giveUp deletes r) r' := by
  obtain ⟨ending, s⟩ := r
  rcases ending with ⟨_ | _⟩ | crash | _
  · rcases h.refused rfl with ⟨list, hlist, hrep, hnil⟩ | ⟨hnone, -⟩
    · have hgive : UdpEthTunnel.giveUp deletes ⟨.ret false, s⟩ =
          deleteList deletes s ⟨(createdTunnels create s.calls).map some, false⟩ := by
        unfold UdpEthTunnel.giveUp
        rw [hlist, ← hrep.delete]
      have hfalse : r'.ending = .ret false := h.same.elim id (·.1)
      have hsub : ((createdTunnels create s.calls).map some).Subperm
          ((createdTunnels create s.calls).map some ++ [none]) :=
        (List.sublist_append_left _ _).subperm
      rw [hgive]
      rcases deleteList_cases deletes s
        ⟨(createdTunnels create s.calls).map some, false⟩ with hread | hdied
      · rw [hread, hnil, List.nil_append]
        exact ⟨h.calls, h.before, .inl hfalse, nofun, fun _ => .inl (List.Perm.refl _),
          fun hne => absurd rfl (hne false), hsub⟩
      · exact (hdied.ended hnil h.before hsub h.calls hfalse).startsUp (hdied.ending_ne true)
          fun hret => absurd hret (hdied.ending_ne false)
    · have hgive : UdpEthTunnel.giveUp deletes ⟨.ret false, s⟩ = ⟨.ret false, s⟩ := by
        unfold UdpEthTunnel.giveUp
        rw [show s.tunnelList = none from hnone]
      rw [hgive]
      exact h.startsUp hne fun _ => hnone
  · exact absurd rfl hne
  · exact h.startsUp hne nofun
  · exact h.startsUp hne nofun

end Main

/-- **Starting up is all or nothing**, for every configuration and every outcome of the calls
of `tunnel_create`, of the reallocations of the list and of the calls of `tunnel_delete`.

When the configuration has been read, each call of `tunnel_create` has created a tunnel, none
has been deleted, and `main` waits for each of them once, in order, and then deletes each of
them once.  When it is refused, each tunnel that was created has been deleted once, and nothing
else; or the list could not grow for the last of them, which was not the first, and one entry
that was never written has been deleted too.  The process comes to its end in a call of
`tunnel_create` that was made, in a call of `tunnel_delete`, or after the first tunnel, when
there was no memory for the array and `tunnel_list_delete` reads it.  However it ends no tunnel
has been deleted twice.

The calls of `tunnel_create` are those that the parser makes with its callback over a list, and
it ends the same way, unless the process comes to its end when something is deleted. -/
theorem startup {T : Type} (create : ℕ → TunnelParams → CreateOutcome T) (realloc : ℕ → Bool)
    (deletes : ℕ → DeleteEnd) (nprocs : Int) (text : CStr) :
    StartsUp create realloc deletes (mainStart create realloc deletes nprocs text)
      (iniParseFile (configParseEvent create (listAdds realloc)) { defaultNumQueues := nprocs }
        text) := by
  have halike := alike_main create realloc deletes nprocs text
  unfold mainStart
  generalize iniParseFile (configParseToList create realloc deletes)
    ({ defaultNumQueues := nprocs } : StartState T) text = r at halike ⊢
  by_cases htrue : r.ending = .ret true
  · have hkeep : giveUp deletes r = r := by
      obtain ⟨ending, s⟩ := r
      obtain rfl : ending = .ret true := htrue
      rfl
    rw [hkeep]
    exact startsUp_of_tracks (halike.going htrue) htrue (halike.ending.2 htrue)
  · exact (halike.ended htrue).giveUp htrue

/-- **The calls that starting up makes** are those that the callback over a list makes, and
each before the last has created a tunnel. -/
theorem calls_mainStart {T : Type} (create : ℕ → TunnelParams → CreateOutcome T)
    (realloc : ℕ → Bool) (deletes : ℕ → DeleteEnd) (nprocs : Int) (text : CStr) :
    (mainStart create realloc deletes nprocs text).state.calls =
        (iniParseFile (configParseEvent create (listAdds realloc)) { defaultNumQueues := nprocs }
          text).state.calls ∧
      AllCreated create (mainStart create realloc deletes nprocs text).state.calls.dropLast := by
  obtain ⟨-, hgoing, hended⟩ := alike_main create realloc deletes nprocs text
  unfold mainStart
  rw [calls_giveUp]
  generalize iniParseFile (configParseToList create realloc deletes)
    ({ defaultNumQueues := nprocs } : StartState T) text = r at hgoing hended ⊢
  by_cases htrue : r.ending = .ret true
  · have htracks := hgoing htrue
    exact ⟨htracks.same.2.2.2.symm, htracks.all.dropLast⟩
  · exact ⟨(hended htrue).calls.symm, (hended htrue).before⟩

end UdpEthTunnel
