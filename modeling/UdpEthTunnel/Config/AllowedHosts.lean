/-
# `allowed_remote_hosts`

`tunnel_create` hands the configured text to `ip_addr_cidr_list_create_from_str`
(`Address.List`), and fails where that returns `NULL`; the first item that is refused ends
the call with `NULL`.

What makes an item refused is its prefix length alone (`fromStr_item`).  An item that is not
an address gets an entry all the same (`refusesMalformed_iff`).  One of 46 characters or more
overruns the copy of `ip_addr_cidr_from_str`, which has room for the text of an address but
not for a prefix length behind a long one; only a refused item keeps the call from it
(`copyFits_iff`).
-/

import UdpEthTunnel.Address.List
import UdpEthTunnel.Config.Ini

namespace UdpEthTunnel

/-! ### Items -/

/-- The prefix length that is read from an item with a slash. -/
def prefixLenOf (t : CStr) : Option Int :=
  (strchr t '/').map fun slash => atoi (t.drop (slash + 1))

/-- The item and its terminator do not fit 46 bytes. -/
def TooLong (t : CStr) : Prop := inet6AddrStrLen < t.length + 1

/-- The prefix length is out of range. -/
def BadPrefix (t : CStr) : Prop := ∃ n ∈ prefixLenOf t, n < 0 ∨ n > 128

/-- The item is read without an error. -/
def ItemOk (t : CStr) : Prop := ¬ TooLong t ∧ ¬ BadPrefix t ∧ prefixLenOf t ≠ some 0

instance (t : CStr) : Decidable (TooLong t) := inferInstanceAs (Decidable (_ < _))

instance (t : CStr) : Decidable (BadPrefix t) :=
  inferInstanceAs (Decidable (∃ n ∈ prefixLenOf t, n < 0 ∨ n > 128))

instance (t : CStr) : Decidable (ItemOk t) := inferInstanceAs (Decidable (_ ∧ _ ∧ _))

/-- The first item that is not accepted. -/
def firstStop (s : CStr) : Option CStr := (items s).find? fun t => decide (¬ ItemOk t)

/-- The first item at which a program that goes on after undefined shifts leaves the loop, or
overruns the copy. -/
def firstEnd (s : CStr) : Option CStr := (items s).find? fun t => decide (TooLong t ∨ BadPrefix t)

/-- An item that stands for a network: a valid address of one of the families, alone or with
a slash and a decimal number of at most the bits of the family. -/
def ValidItem (pton4 : CStr → Option U32) (pton : Pton) (t : CStr) : Prop :=
  ∃ host bits, ((pton4 host).isSome = true ∧ bits = 32 ∨ (pton host).isSome = true ∧ bits = 128) ∧
    (t = host ∨ ∃ digits, t = host ++ '/' :: digits ∧ digits ≠ [] ∧
      (∀ c ∈ digits, c.isDigit = true) ∧ leadingDigits digits ≤ bits)

section Loop

variable {pton : Pton} {entries : List IpAddrCidr} {i : ℕ} {t : CStr} {ts : List CStr}

/-- **What decides about an item**: its length, and its prefix length. -/
theorem fromStr_item (pton : Pton) (t : CStr) (out : IpAddrCidr) :
    (TooLong t ∧ ipAddrCidrFromStr pton t out = .overflow) ∨
      (¬ TooLong t ∧ BadPrefix t ∧ ipAddrCidrFromStr pton t out = .ret false out) ∨
      (¬ TooLong t ∧ prefixLenOf t = some 0 ∧ ipAddrCidrFromStr pton t out = .badShift) ∨
      ItemOk t ∧ ∃ c, ipAddrCidrFromStr pton t out = .ret true c := by
  have hmask : ∀ tmp mask, ∃ c, cidrWithMask pton tmp mask out = .ret true c := by
    intro tmp mask
    unfold cidrWithMask
    rw [ipAddrFromStr_eq]
    exact ⟨_, rfl⟩
  unfold ipAddrCidrFromStr
  by_cases hlong : TooLong t
  · exact .inl ⟨hlong, if_pos hlong⟩
  have hfits : ¬ inet6AddrStrLen < t.length + 1 := hlong
  rw [if_neg hfits]
  refine .inr ?_
  cases hslash : strchr t '/' with
  | none =>
    have hread : prefixLenOf t = none := by rw [prefixLenOf, hslash]; rfl
    refine .inr (.inr ⟨⟨hlong, ?_, by simp [hread]⟩, hmask _ _⟩)
    rintro ⟨n, hn, -⟩
    rw [hread] at hn
    cases hn
  | some slash =>
    have hread : prefixLenOf t = some (atoi (t.drop (slash + 1))) := by
      rw [prefixLenOf, hslash]
      rfl
    dsimp only
    by_cases hbad : atoi (t.drop (slash + 1)) < 0 ∨ atoi (t.drop (slash + 1)) > 128
    · exact .inl ⟨hlong, ⟨_, hread, hbad⟩, if_pos hbad⟩
    rw [if_neg hbad]
    refine .inr ?_
    by_cases hzero : atoi (t.drop (slash + 1)) = 0
    · exact .inl ⟨hlong, hread.trans (congrArg some hzero), if_pos hzero⟩
    · rw [if_neg hzero]
      refine .inr ⟨⟨hlong, ?_, ?_⟩, hmask _ _⟩
      · rintro ⟨n, hn, hrange⟩
        obtain rfl := Option.some.inj (hread.symm.trans hn)
        exact hbad hrange
      · rw [hread]
        exact fun heq => hzero (Option.some.inj heq)

/-- **How the loop ends**: with the first item that is not accepted, if there is one. -/
theorem cidrListLoop_cases (env : CidrListEnv) (pton : Pton) (entries : List IpAddrCidr) (i : ℕ)
    (ts : List CStr) :
    ((ts.find? fun t => decide (¬ ItemOk t)) = none ∧
        ∃ l, cidrListLoop env pton entries i ts = .list l) ∨
      ∃ t, (ts.find? fun t => decide (¬ ItemOk t)) = some t ∧
        (TooLong t ∧ cidrListLoop env pton entries i ts = .overflow ∨
          ¬ TooLong t ∧ BadPrefix t ∧ cidrListLoop env pton entries i ts = .null ∨
          ¬ TooLong t ∧ ¬ BadPrefix t ∧
            ∃ rest, cidrListLoop env pton entries i ts = .badShift rest) := by
  induction ts generalizing entries i with
  | nil => exact .inl ⟨rfl, _, rfl⟩
  | cons t ts ih =>
    have hstop : ¬ ItemOk t →
        ((t :: ts).find? fun t => decide (¬ ItemOk t)) = some t :=
      fun hno => List.find?_cons_of_pos (decide_eq_true hno)
    unfold cidrListLoop
    rcases fromStr_item pton t (entries.getD i zeroCidr) with
      ⟨hlong, hcall⟩ | ⟨hlong, hbad, hcall⟩ | ⟨hlong, hzero, hcall⟩ | ⟨hok, c, hcall⟩
    · rw [hcall]
      exact .inr ⟨t, hstop fun hok => hok.1 hlong, .inl ⟨hlong, rfl⟩⟩
    · rw [hcall]
      exact .inr ⟨t, hstop fun hok => hok.2.1 hbad, .inr (.inl ⟨hlong, hbad, rfl⟩)⟩
    · have hnot : ¬ BadPrefix t := by
        rintro ⟨n, hn, hrange⟩
        obtain rfl := Option.some.inj (hzero.symm.trans hn)
        omega
      rw [hcall]
      exact .inr ⟨t, hstop fun hok => hok.2.2 hzero, .inr (.inr ⟨hlong, hnot, _, rfl⟩)⟩
    · rw [hcall, List.find?_cons_of_neg (by simpa using hok)]
      exact ih _ _

/-- **Which loops overrun a copy**: those whose first item that is too long or refused is too
long. -/
theorem cidrListLoop_overflows (env : CidrListEnv) (pton : Pton) (entries : List IpAddrCidr)
    (i : ℕ) (ts : List CStr) : (cidrListLoop env pton entries i ts).overflows = false ↔
      ∀ t, (ts.find? fun t => decide (TooLong t ∨ BadPrefix t)) = some t → ¬ TooLong t := by
  induction ts generalizing entries i with
  | nil => simp [cidrListLoop, CidrListOutcome.overflows]
  | cons t ts ih =>
    have hend : TooLong t ∨ BadPrefix t →
        ((t :: ts).find? fun t => decide (TooLong t ∨ BadPrefix t)) = some t :=
      fun h => List.find?_cons_of_pos (decide_eq_true h)
    unfold cidrListLoop
    rcases fromStr_item pton t (entries.getD i zeroCidr) with
      ⟨hlong, hcall⟩ | ⟨hlong, hbad, hcall⟩ | ⟨hlong, hzero, hcall⟩ | ⟨hok, c, hcall⟩ <;> rw [hcall]
    · rw [hend (.inl hlong)]
      simp [CidrListOutcome.overflows, hlong]
    · rw [hend (.inr hbad)]
      simp [CidrListOutcome.overflows, hlong]
    · -- the program goes on
      have hnot : ¬ BadPrefix t := by
        rintro ⟨n, hn, hrange⟩
        obtain rfl := Option.some.inj (hzero.symm.trans hn)
        omega
      rw [List.find?_cons_of_neg (by simp [hlong, hnot])]
      exact ih _ _
    · rw [List.find?_cons_of_neg (by simp [hok.1, hok.2.1])]
      exact ih _ _

end Loop

/-! ### `tunnel_create` -/

namespace CreateOutcome

variable {α β : Type}

/-- A call that either fails or creates something. -/
def Plain (x : CreateOutcome α) : Prop := x = null ∨ ∃ a, x = created a

theorem plain_pure (a : α) : (pure a : CreateOutcome α).Plain := .inr ⟨a, rfl⟩

theorem plain_check (ok : Bool) : (check ok).Plain := by
  cases ok
  · exact .inl rfl
  · exact .inr ⟨(), rfl⟩

theorem plain_ofOption (x : Option α) : (ofOption x).Plain := by
  cases x with
  | none => exact .inl rfl
  | some a => exact .inr ⟨a, rfl⟩

theorem plain_readStr {s : Option CStr} (h : s ≠ none) : (readStr s).Plain := by
  cases s with
  | none => exact absurd rfl h
  | some text => exact .inr ⟨(), rfl⟩

theorem Plain.bind {x : CreateOutcome α} {f : α → CreateOutcome β} (hx : x.Plain)
    (hf : ∀ a, (f a).Plain) : (x >>= f).Plain := by
  rcases hx with rfl | ⟨a, rfl⟩
  · exact .inl rfl
  · exact hf a

theorem Plain.bind_null {x : CreateOutcome α} {f : α → CreateOutcome β} (hx : x.Plain)
    (hf : ∀ a, f a = null) : (x >>= f) = null := by
  rcases hx with rfl | ⟨a, rfl⟩
  · rfl
  · exact hf a

theorem plain_mapM {f : α → CreateOutcome β} (hf : ∀ a, (f a).Plain) (xs : List α) :
    (xs.mapM f).Plain := by
  induction xs with
  | nil => exact plain_pure []
  | cons x xs ih =>
    rw [List.mapM_cons]
    exact (hf x).bind fun y => ih.bind fun ys => plain_pure (y :: ys)

end CreateOutcome

open CreateOutcome

/-- Without the list it is configured with, a tunnel is not created. -/
theorem tunnelCreate_noList {M E : Type} {ops : MapOps M E} {env : CreateEnv E}
    {params : TunnelParams} {text : CStr} (htext : params.allowedRemoteHosts = some text)
    (hlist : env.cidrList text = none) (s : Sys M) : tunnelCreate ops env params ≠ .created s := by
  intro hcreate
  obtain ⟨-, -, t, hbare, -⟩ := tunnelCreate_created hcreate
  have hallowed := hbare.allowed
  rw [htext] at hallowed
  exact hallowed.2 (hallowed.1.trans hlist)

/-- With a name and an interface, the call returns `NULL`. -/
theorem tunnelCreate_null_of_noList {M E : Type} {ops : MapOps M E} {env : CreateEnv E}
    {params : TunnelParams} {text : CStr} (htext : params.allowedRemoteHosts = some text)
    (hlist : env.cidrList text = none) (hname : params.tunnelName ≠ none)
    (hiface : params.bindIface ≠ none) : tunnelCreate ops env params = .null := by
  have hepoll : ∀ n, (setupEpollFds env n).Plain := fun n =>
    (plain_check _).bind fun _ => plain_mapM (fun i => (plain_ofOption _).bind fun fd =>
      (plain_check _).bind fun _ => (plain_check _).bind fun _ => plain_pure fd) _
  have hallowed : createAllowed env params = .null := by
    unfold createAllowed
    rw [htext]
    dsimp only
    rw [hlist]
    rfl
  unfold tunnelCreate
  refine (plain_check _).bind_null fun _ => (plain_readStr hname).bind_null fun _ =>
    (plain_check _).bind_null fun _ => (plain_readStr hiface).bind_null fun _ =>
    (plain_ofOption _).bind_null fun fds => (hepoll _).bind_null fun epollFds =>
    (plain_check _).bind_null fun _ => ?_
  rw [hallowed]
  rfl

/-- **A malformed list is refused**: no list is made of a text with an item that is not a
network, and no tunnel that is configured with it is created; `tunnel_create` returns `NULL`,
if it gets as far (without a name or an interface it reads through `NULL` before). -/
def RefusesMalformed (env : CidrListEnv) (pton4 : CStr → Option U32) (pton : Pton) (s : CStr) :
    Prop :=
  (∃ t ∈ items s, ¬ ValidItem pton4 pton t) →
    ipAddrCidrListCreateFromStr env pton s = .null ∧
      ∀ {M E : Type} (ops : MapOps M E) (createEnv : CreateEnv E) (params : TunnelParams)
        (undefined : Option IpAddrCidrList), params.allowedRemoteHosts = some s →
        createEnv.cidrList s = (ipAddrCidrListCreateFromStr env pton s).ret undefined →
        (∀ t, tunnelCreate ops createEnv params ≠ .created t) ∧
          (params.tunnelName ≠ none → params.bindIface ≠ none →
            tunnelCreate ops createEnv params = .null)

section AllowedHosts

variable (env : CidrListEnv) (pton : Pton) (s : CStr)

/-- **How a call ends.** -/
theorem createFromStr_cases :
    (env.malloc = false ∧ ipAddrCidrListCreateFromStr env pton s = .null) ∨
      (env.malloc = true ∧ env.strdup = false ∧
        ipAddrCidrListCreateFromStr env pton s = .badStrtok) ∨
      env.malloc = true ∧ env.strdup = true ∧
        ((firstStop s = none ∧ ∃ l, ipAddrCidrListCreateFromStr env pton s = .list l) ∨
          ∃ t, firstStop s = some t ∧
            (TooLong t ∧ ipAddrCidrListCreateFromStr env pton s = .overflow ∨
              ¬ TooLong t ∧ BadPrefix t ∧ ipAddrCidrListCreateFromStr env pton s = .null ∨
              ¬ TooLong t ∧ ¬ BadPrefix t ∧
                ∃ rest, ipAddrCidrListCreateFromStr env pton s = .badShift rest)) := by
  unfold ipAddrCidrListCreateFromStr
  cases env.malloc with
  | false => exact .inl ⟨rfl, rfl⟩
  | true =>
    cases env.strdup with
    | false => exact .inr (.inl ⟨rfl, rfl, rfl⟩)
    | true => exact .inr (.inr ⟨rfl, rfl, cidrListLoop_cases env pton _ 0 (items s)⟩)

/-- When the call returns `NULL`. -/
theorem createFromStr_eq_null_iff : ipAddrCidrListCreateFromStr env pton s = .null ↔
    env.malloc = false ∨
      env.strdup = true ∧ ∃ t, firstStop s = some t ∧ ¬ TooLong t ∧ BadPrefix t := by
  rcases createFromStr_cases env pton s with ⟨hmalloc, hl⟩ | ⟨hmalloc, hstrdup, hl⟩ |
    ⟨hmalloc, hstrdup, ⟨hnone, l, hl⟩ | ⟨t, ht, ⟨hlong, hl⟩ | ⟨hfits, hbad, hl⟩ |
      ⟨hfits, hbad, rest, hl⟩⟩⟩
  · simp [hl, hmalloc]
  · simp [hl, hmalloc, hstrdup]
  · simp [hl, hmalloc, hnone]
  · simp [hl, hmalloc, ht, hlong]
  · simp [hl, hstrdup, ht, hfits, hbad]
  · simp [hl, hmalloc, ht, hbad]

/-- **When a malformed list is refused.**  `ip_addr_cidr_from_str` looks at the prefix length of
an item and takes the answer 0 of `inet_pton` for a success.  So where the memory for the list
is there, only a prefix length out of range has a list refused, in an item that fits the copy
and that comes after items without an error. -/
theorem refusesMalformed_iff (pton4 : CStr → Option U32) :
    RefusesMalformed env pton4 pton s ↔
      ((∃ t ∈ items s, ¬ ValidItem pton4 pton t) → env.malloc = false ∨
        env.strdup = true ∧ ∃ t, firstStop s = some t ∧ ¬ TooLong t ∧ BadPrefix t) := by
  refine imp_congr_right fun _ => ?_
  rw [createFromStr_eq_null_iff]
  refine and_iff_left_of_imp fun hnull M E ops createEnv params undefined htext hlist => ?_
  have hnone : createEnv.cidrList s = none := by
    rw [hlist, (createFromStr_eq_null_iff env pton s).2 hnull]
    rfl
  exact ⟨tunnelCreate_noList htext hnone, tunnelCreate_null_of_noList htext hnone⟩

/-- **When the copies fit their array.**  `ip_addr_cidr_from_str` copies each token that the
loop of `ip_addr_cidr_list_create_from_str` cuts into an array of 46 bytes, before it looks at
it.  The loop ends early at a token that is refused, for a prefix length out of range.  So for
any text no token of 46 characters or more is copied exactly when, if the call gets its
memory, no such token stands before the first one that is refused; a token with a prefix
length of 0 does not end the loop. -/
theorem copyFits_iff : (ipAddrCidrListCreateFromStr env pton s).overflows = false ↔
    (env.malloc = true → env.strdup = true → ∀ t, firstEnd s = some t → ¬ TooLong t) := by
  unfold ipAddrCidrListCreateFromStr
  cases env.malloc with
  | false => simp [CidrListOutcome.overflows]
  | true =>
    cases env.strdup with
    | false => simp [CidrListOutcome.overflows]
    | true =>
      simp only [if_true, true_imp_iff]
      exact cidrListLoop_overflows env pton _ 0 (items s)

/-- Without undefined behaviour the call returns `NULL` or a list. -/
theorem createFromStr_of_defined (pton : Pton) {env : CidrListEnv} {s : CStr}
    (hstrdup : env.strdup = true) (hitems : ∀ t ∈ items s, ¬ TooLong t ∧ prefixLenOf t ≠ some 0) :
    ipAddrCidrListCreateFromStr env pton s = .null ∨
      ∃ l, ipAddrCidrListCreateFromStr env pton s = .list l := by
  rcases createFromStr_cases env pton s with ⟨-, hl⟩ | ⟨-, hno, -⟩ |
    ⟨-, -, ⟨-, hl⟩ | ⟨t, ht, ⟨hlong, -⟩ | ⟨-, -, hl⟩ | ⟨hfits, hbad, -⟩⟩⟩
  · exact .inl hl
  · rw [hstrdup] at hno
    cases hno
  · exact .inr hl
  · exact absurd hlong (hitems t (List.mem_of_find?_eq_some ht)).1
  · exact .inl hl
  · have hno : ¬ ItemOk t := by simpa using List.find?_some ht
    exact absurd ⟨hfits, hbad, (hitems t (List.mem_of_find?_eq_some ht)).2⟩ hno

end AllowedHosts

/-- The name of a host makes a list with the entry `::/128`. -/
theorem refusesMalformed_fails :
    ipAddrCidrListCreateFromStr plentyEnv (fun _ => none) "localhost".toList =
        .list ⟨[⟨⟨BitVec.allOnes 128⟩, ⟨0⟩⟩]⟩ ∧
      ¬ RefusesMalformed plentyEnv (fun _ => none) (fun _ => none) "localhost".toList := by
  have hcall : ipAddrCidrListCreateFromStr plentyEnv (fun _ => none) "localhost".toList =
      .list ⟨[⟨⟨BitVec.allOnes 128⟩, ⟨0⟩⟩]⟩ := by decide +kernel
  refine ⟨hcall, fun h => ?_⟩
  have hnull := (h ⟨"localhost".toList, by decide, ?_⟩).1
  · rw [hcall] at hnull
    cases hnull
  · rintro ⟨host, bits, ⟨hv4, -⟩ | ⟨hv6, -⟩, -⟩
    · cases hv4
    · cases hv6

/-- `ffff:ffff:ffff:ffff:ffff:ffff:255.255.255.255/128`. -/
def longestItem : CStr := "ffff:ffff:ffff:ffff:ffff:ffff:255.255.255.255/128".toList

/-- **A valid entry that does not fit.**  A file with one line configures a list of one
network, an address of 45 characters with its prefix length; the copy is overrun. -/
theorem copyFits_fails :
    iniParseFile noteDown [] ("allowed_remote_hosts=".toList ++ longestItem ++ ['\n']) =
        ⟨.ret true, [.pair "allowed_remote_hosts".toList longestItem, .endOfFile]⟩ ∧
      ValidItem (fun _ => none) (ptonOf (longestItem.take 45) ⟨BitVec.allOnes 128⟩) longestItem ∧
      (ipAddrCidrListCreateFromStr plentyEnv (ptonOf (longestItem.take 45) ⟨BitVec.allOnes 128⟩)
        longestItem).overflows = true := by
  refine ⟨rfl, ?_, by decide +kernel⟩
  exact ⟨longestItem.take 45, 128, .inr ⟨by decide, rfl⟩,
    .inr ⟨['1', '2', '8'], rfl, by simp, by simp, by decide⟩⟩

end UdpEthTunnel
