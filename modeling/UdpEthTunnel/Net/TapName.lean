/-
# The name of a new tap device

`net_create_tap_mq_fds` of `src/net.c` reads `/proc/net/dev` in pieces of at most 255
characters, looks for the base name in each, and takes the number behind its first
occurrence; the new name has the next number.

The first occurrence in the piece of a device is at the start of its name, if the name
starts with the base name: only blanks stand before it (`strstr_blanks`).  So the number of
each listed name that could be taken has been found (`numberFound_of_listed`), and the new
one is greater (`tapName_new`).  The kernel makes an interface of a name that none has, so the
queues of the new device are those of the call.
-/

import Mathlib.Logic.Function.Basic
import UdpEthTunnel.Lib.Pieces
import UdpEthTunnel.Net.Tap

namespace UdpEthTunnel

/-- What `fgets` reads into `line[256]`. -/
def netDevRoom : ℕ := 255

/-- A line of `/proc/net/dev`: of its header, or of a device, with blanks before the name and
the counters behind it. -/
inductive NetDevLine where
  | header (text : CStr)
  | device (blanks : ℕ) (name counters : CStr)

namespace NetDevLine

def text : NetDevLine → CStr
  | header text => text ++ ['\n']
  | device blanks name counters => List.replicate blanks ' ' ++ name ++ ':' :: (counters ++ ['\n'])

def name? : NetDevLine → Option CStr
  | header _ => none
  | device _ name _ => some name

/-- The name of a device has at most 15 characters, none of them a blank or a colon. -/
def Valid : NetDevLine → Prop
  | header _ => True
  | device _ name _ => name.length ≤ 15 ∧ ∀ c ∈ name, isSpace c = false ∧ c ≠ ':'

/-- The name of a device stands in the first piece of the line.  The kernel pads a name to a
column of six characters, and the piece has 255; only a name behind more than 240 blanks could
be cut. -/
def InPiece : NetDevLine → Prop
  | header _ => True
  | device blanks name _ => blanks + name.length ≤ netDevRoom

end NetDevLine

/-- The text of `/proc/net/dev`. -/
def netDevText (lines : List NetDevLine) : CStr := lines.flatMap NetDevLine.text

/-- What `fgets(line, sizeof(line), fp)` reads of it, piece by piece. -/
def netDevPieces (lines : List NetDevLine) : List CStr :=
  Pieces.cut '\n' netDevRoom [] (netDevText lines)

/-- The names that are listed. -/
def netDevNames (lines : List NetDevLine) : List CStr := lines.filterMap NetDevLine.name?

/-- The numbers that are found behind a base name. -/
def numbersFound (dev : CStr) (pieces : List CStr) : List Int :=
  pieces.filterMap fun line => (strstr line dev).map fun name => atoi (name.drop dev.length)

/-- `INT_MAX`. -/
def intMax : Int := 2 ^ 31 - 1

/-- The number at the end of a name. -/
def numericSuffix (name : CStr) : ℕ := leadingDigits (name.reverse.takeWhile Char.isDigit).reverse

/-- Numbers are below `INT_MAX`: all that are found, or those at the ends of the names. -/
def SuffixesFit (dev : CStr) (lines : List NetDevLine) : Prop :=
  (∀ n ∈ numbersFound dev (netDevPieces lines), n < intMax) ∨
    ∀ name ∈ netDevNames lines, numericSuffix name < intMax

/-- `ioctl(TUNSETIFF)`: the descriptor becomes a queue of the interface of this name, which is
made if there is none. -/
def attachQueue (attached : CStr → List ℕ) (name : CStr) (fd : ℕ) : CStr → List ℕ :=
  Function.update attached name (attached name ++ [fd])

/-- The queues of each interface after the loop of `net_create_tap_mq_fds`. -/
def TapMqResult.attach (r : TapMqResult) (attached : CStr → List ℕ) : CStr → List ℕ :=
  match r.name with
  | none => attached
  | some name => r.fds.foldl (fun attached fd => attachQueue attached name fd) attached

/-! ### The numbers -/

section Numbers

variable {dev name rest counters : CStr} {lines : List NetDevLine} {l : NetDevLine} {blanks n : ℕ}
  {pieces : List CStr}

/-- A line ends with a newline. -/
theorem NetDevLine.exists_text_eq (l : NetDevLine) : ∃ body, l.text = body ++ ['\n'] := by
  cases l with
  | header text => exact ⟨text, rfl⟩
  | device blanks name counters =>
    exact ⟨List.replicate blanks ' ' ++ name ++ ':' :: counters, by simp [NetDevLine.text]⟩

/-- Lines are read one after the other. -/
theorem netDevPieces_cons (l : NetDevLine) (lines : List NetDevLine) :
    netDevPieces (l :: lines) = Pieces.cut '\n' netDevRoom [] l.text ++ netDevPieces lines := by
  obtain ⟨body, hbody⟩ := l.exists_text_eq
  have htext : netDevText (l :: lines) = body ++ '\n' :: netDevText lines := by
    unfold netDevText
    rw [List.flatMap_cons, hbody, List.append_assoc, List.singleton_append]
  unfold netDevPieces
  rw [htext, hbody, Pieces.cut_append_stop]

/-- **The name of a listed device stands in one piece**, behind its blanks and before the
colon. -/
theorem exists_piece (hmem : .device blanks name counters ∈ lines) (hne : name ≠ [])
    (hvalid : (NetDevLine.device blanks name counters).Valid)
    (hpiece : (NetDevLine.device blanks name counters).InPiece) :
    ∃ more, List.replicate blanks ' ' ++ name ++ more ∈ netDevPieces lines ∧
      ∀ c ∈ more.head?, c.isDigit = false := by
  induction lines with
  | nil => exact absurd hmem List.not_mem_nil
  | cons l lines ih =>
    rw [netDevPieces_cons]
    rcases List.mem_cons.1 hmem with rfl | hmem
    · have hnewline : '\n' ∉ List.replicate blanks ' ' ++ name := by
        rw [List.mem_append, not_or]
        refine ⟨fun h => absurd (List.eq_of_mem_replicate h) (by decide), fun h => ?_⟩
        exact absurd (hvalid.2 _ h).1 (by decide)
      have hlen : (List.replicate blanks ' ' ++ name).length ≤ netDevRoom := by
        rw [List.length_append, List.length_replicate]
        exact hpiece
      obtain ⟨more, hmore, hpre⟩ := Pieces.mem_cut_append hnewline (by simp [hne]) hlen
        (':' :: (counters ++ ['\n']))
      refine ⟨more, List.mem_append_left _ hmore, fun c hc => ?_⟩
      cases more with
      | nil => cases hc
      | cons x more =>
        obtain rfl := Option.some.inj hc
        obtain rfl : x = ':' := (List.cons_prefix_cons.1 hpre).1
        decide
    · obtain ⟨more, hmore, hhead⟩ := ih hmem
      exact ⟨more, List.mem_append_right _ hmore, hhead⟩

theorem strstr_append (dev rest : CStr) : strstr (dev ++ rest) dev = some (dev ++ rest) := by
  have hprefix : dev.isPrefixOf (dev ++ rest) = true :=
    List.isPrefixOf_iff_prefix.2 (List.prefix_append ..)
  cases hs : dev ++ rest with
  | nil =>
    rw [hs] at hprefix
    rw [strstr, if_pos hprefix]
  | cons c s =>
    rw [hs] at hprefix
    rw [strstr, if_pos hprefix]

/-- **Only blanks stand before the first occurrence**: a base name starts with none. -/
theorem strstr_blanks (hne : dev ≠ []) (hblank : ' ' ∉ dev) (blanks : ℕ) (rest : CStr) :
    strstr (List.replicate blanks ' ' ++ (dev ++ rest)) dev = some (dev ++ rest) := by
  induction blanks with
  | zero => exact strstr_append dev rest
  | succ blanks ih =>
    have hnot : ¬ dev.isPrefixOf (' ' :: (List.replicate blanks ' ' ++ (dev ++ rest))) = true := by
      rw [List.isPrefixOf_iff_prefix]
      cases dev with
      | nil => exact absurd rfl hne
      | cons c dev =>
        intro hprefix
        obtain rfl := (List.cons_prefix_cons.1 hprefix).1
        exact hblank List.mem_cons_self
    rw [List.replicate_succ, List.cons_append, strstr, if_neg hnot, ih]

theorem atoi_blanks (blanks : ℕ) (s : CStr) : atoi (List.replicate blanks ' ' ++ s) = atoi s := by
  induction blanks with
  | zero => rfl
  | succ blanks ih => rw [List.replicate_succ, List.cons_append, atoi_blank, ih]

theorem atoi_decimal_append (hn : n < 2 ^ 31) (hrest : ∀ c ∈ rest.head?, c.isDigit = false) :
    atoi (decimal n ++ rest) = n := by
  have hlead := leadingDigits_decimal_append n hrest
  obtain ⟨c, s, hs⟩ := List.exists_cons_of_ne_nil (show decimal n ≠ [] from Nat.toDigits_ne_nil)
  have hdigit : c.isDigit = true := isDigit_of_mem_decimal (hs ▸ List.mem_cons_self)
  rw [hs, List.cons_append] at hlead ⊢
  rw [atoi_cons_digit hdigit (by omega), hlead]

/-- **The number of a listed name is found.** -/
theorem numberFound_of_listed (hblank : ' ' ∉ dev) (hn : n < 2 ^ 31)
    (hlines : ∀ l ∈ lines, l.Valid ∧ l.InPiece) (hlisted : dev ++ decimal n ∈ netDevNames lines) :
    (n : Int) ∈ numbersFound dev (netDevPieces lines) := by
  obtain ⟨l, hl, hname⟩ := List.mem_filterMap.1 hlisted
  cases l with
  | header text => cases hname
  | device blanks name counters =>
    obtain rfl := Option.some.inj hname
    obtain ⟨hvalid, hpiece⟩ := hlines _ hl
    have hne : dev ++ decimal n ≠ [] := by
      intro hnil
      exact Nat.toDigits_ne_nil (List.append_eq_nil_iff.1 hnil).2
    obtain ⟨more, hmore, hhead⟩ := exists_piece hl hne hvalid hpiece
    refine List.mem_filterMap.2 ⟨_, hmore, ?_⟩
    rw [List.append_assoc, List.append_assoc]
    by_cases hdev : dev = []
    · -- the whole piece is behind the empty name
      subst hdev
      have hfirst : ∀ s : CStr, strstr s [] = some s := fun s => strstr_append [] s
      rw [hfirst, Option.map_some, List.length_nil, List.drop_zero, List.nil_append, atoi_blanks,
        atoi_decimal_append hn hhead]
    · rw [strstr_blanks hdev hblank, Option.map_some, List.drop_left, atoi_decimal_append hn hhead]

/-! ### The highest number -/

/-- A maximum is one of the numbers, and none of them is greater. -/
theorem foldl_max_spec (ns : List Int) (first : Int) :
    (ns.foldl max first = first ∨ ns.foldl max first ∈ ns) ∧ first ≤ ns.foldl max first ∧
      ∀ n ∈ ns, n ≤ ns.foldl max first := by
  induction ns generalizing first with
  | nil => exact ⟨.inl rfl, Int.le_refl first, by simp⟩
  | cons n ns ih =>
    obtain ⟨hone, hfirst, hall⟩ := ih (max first n)
    rw [List.foldl_cons]
    refine ⟨?_, by omega, fun m hm => ?_⟩
    · rcases hone with hone | hone
      · rcases Int.le_total first n with hle | hle
        · exact .inr (by rw [hone, Int.max_eq_right hle]; exact List.mem_cons_self)
        · exact .inl (by rw [hone, Int.max_eq_left hle])
      · exact .inr (List.mem_cons_of_mem n hone)
    · rcases List.mem_cons.1 hm with rfl | hm
      · omega
      · exact hall m hm

/-- `highest_tap_num` is the maximum of -1 and the numbers that are found. -/
theorem highestTapNum_eq (dev : CStr) (pieces : List CStr) :
    highestTapNum dev pieces = (numbersFound dev pieces).foldl max (-1) := by
  unfold highestTapNum
  generalize (-1 : Int) = highest
  induction pieces generalizing highest with
  | nil => rfl
  | cons line pieces ih =>
    unfold numbersFound at ih ⊢
    rw [List.foldl_cons, ih]
    cases hfound : strstr line dev with
    | none => rw [List.filterMap_cons_none (by rw [hfound]; rfl)]
    | some name =>
      rw [List.filterMap_cons_some (by rw [hfound]; rfl), List.foldl_cons]
      dsimp only
      congr 1
      split_ifs <;> omega

theorem atoi_bounds (s : CStr) : -2 ^ 31 ≤ atoi s ∧ atoi s ≤ intMax := by
  have hlow := BitVec.le_toInt (BitVec.ofInt 32 (strtol s))
  have hhigh := BitVec.toInt_lt (x := BitVec.ofInt 32 (strtol s))
  unfold atoi intMax
  omega

theorem numbersFound_le {n : Int} (h : n ∈ numbersFound dev pieces) : n ≤ intMax := by
  obtain ⟨line, -, hline⟩ := List.mem_filterMap.1 h
  obtain ⟨name, -, rfl⟩ := Option.map_eq_some_iff.1 hline
  exact (atoi_bounds _).2

/-- **The number of the new name**: the next one, or the least `int` after the greatest. -/
theorem nextNum_cases (dev : CStr) (pieces : List CStr) :
    (∃ n : ℕ, n < 2 ^ 31 ∧ (n : Int) = highestTapNum dev pieces + 1 ∧
        (BitVec.ofInt 32 (highestTapNum dev pieces + 1)).toInt = n) ∨
      intMax ∈ numbersFound dev pieces ∧
        (BitVec.ofInt 32 (highestTapNum dev pieces + 1)).toInt = -2 ^ 31 := by
  obtain ⟨hone, hfirst, -⟩ := foldl_max_spec (numbersFound dev pieces) (-1)
  rw [← highestTapNum_eq] at hone hfirst
  have hmax : highestTapNum dev pieces ≤ intMax := by
    rcases hone with hone | hone
    · rw [hone]
      decide
    · exact numbersFound_le hone
  unfold intMax at hmax ⊢
  by_cases hlt : highestTapNum dev pieces < 2 ^ 31 - 1
  · obtain ⟨n, hn⟩ := Int.eq_ofNat_of_zero_le (show 0 ≤ highestTapNum dev pieces + 1 by omega)
    refine .inl ⟨n, by omega, hn.symm, ?_⟩
    rw [BitVec.toInt_ofInt, Int.bmod_eq_of_le (by omega) (by omega), hn]
  · have heq : highestTapNum dev pieces = 2 ^ 31 - 1 := by omega
    rw [heq] at hone ⊢
    exact .inr ⟨hone.resolve_left (by decide), by decide⟩

/-- A name that ends with a number after a sign. -/
theorem numericSuffix_append (dev : CStr) (n : ℕ) : numericSuffix (dev ++ '-' :: decimal n) = n := by
  have htake : (dev ++ '-' :: decimal n).reverse.takeWhile Char.isDigit = (decimal n).reverse := by
    rw [List.reverse_append, List.reverse_cons, List.append_assoc,
      List.takeWhile_append_of_pos fun c hc => isDigit_of_mem_decimal (List.mem_reverse.1 hc),
      List.singleton_append, List.takeWhile_cons_of_neg (by decide), List.append_nil]
  unfold numericSuffix
  rw [htake, List.reverse_reverse, leadingDigits_decimal]

/-- The name of the device, where the call gets past its length checks. -/
theorem netCreateTapMqFds_name {env : TapMqEnv} {baseTapDev bridge : Option CStr} {queues : ℕ}
    {mtu : Int} (h : (netCreateTapMqFds env baseTapDev queues mtu bridge).name = some name) :
    tapName env baseTapDev = name := by
  obtain ⟨r, hr, ⟨-, -, hnone, -⟩ | ⟨-, hsome, -⟩⟩ :=
    netCreateTapMqFds_exits env baseTapDev queues mtu bridge
  · rw [hr, hnone] at h
    cases h
  · rw [hr, hsome] at h
    exact Option.some.inj h

/-- **The next name is not listed.** -/
theorem next_not_listed (hblank : ' ' ∉ dev) (hlines : ∀ l ∈ lines, l.Valid ∧ l.InPiece)
    (hfit : SuffixesFit dev lines) :
    dev ++ decimalInt (BitVec.ofInt 32 (highestTapNum dev (netDevPieces lines) + 1)).toInt ∉
      netDevNames lines := by
  intro hlisted
  obtain ⟨-, -, hall⟩ := foldl_max_spec (numbersFound dev (netDevPieces lines)) (-1)
  rw [← highestTapNum_eq] at hall
  rcases nextNum_cases dev (netDevPieces lines) with ⟨n, hn, hnext, heq⟩ | ⟨hmax, heq⟩
  · -- the number of the name has been found, and is greater than all that are
    have hdecimal : decimalInt n = decimal n := by simp [decimalInt]
    rw [heq, hdecimal] at hlisted
    have hle := hall n (numberFound_of_listed hblank hn hlines hlisted)
    omega
  · -- after the greatest number comes one whose digits do not fit
    have hdecimal : decimalInt (-2 ^ 31) = '-' :: decimal (2 ^ 31) := rfl
    rw [heq, hdecimal] at hlisted
    rcases hfit with hfound | hsuffix
    · exact absurd (hfound _ hmax) (Int.lt_irrefl intMax)
    · have hlt := hsuffix _ hlisted
      rw [numericSuffix_append] at hlt
      exact absurd hlt (by decide)

end Numbers

/-- The descriptors are attached one after the other, to one interface. -/
theorem foldl_attachQueue (attached : CStr → List ℕ) (name : CStr) (fds : List ℕ) :
    fds.foldl (fun attached fd => attachQueue attached name fd) attached =
      Function.update attached name (attached name ++ fds) := by
  induction fds generalizing attached with
  | nil => rw [List.foldl_nil, List.append_nil, Function.update_eq_self]
  | cons fd fds ih =>
    rw [List.foldl_cons, ih, attachQueue, Function.update_self, Function.update_idem,
      List.append_assoc, List.singleton_append]

/-- **The name of a new device is new.**  `net_create_tap_mq_fds` takes the base name and one
more than the highest number it finds in `/proc/net/dev`.  Where the listing has every
interface, each name in the first piece of its line, and numbers are below `INT_MAX`: for every
base name without blanks, a call that gets past its length checks takes a name that is not
listed.  So no descriptor becomes a further queue of an interface that is there: the new
interface has those of this call, and every other one has the queues it had. -/
theorem tapName_new (env : TapMqEnv) (baseTapDev : Option CStr) (queues : ℕ) (mtu : Int)
    (bridge : Option CStr) (lines : List NetDevLine) (fd : ℕ)
    (hproc : env.procNetDev = some (fd, netDevPieces lines))
    (hvalid : ∀ l ∈ lines, l.Valid) (hpiece : ∀ l ∈ lines, l.InPiece)
    (hblank : ' ' ∉ baseTapDev.getD ['t', 'a', 'p'])
    (hfit : SuffixesFit (baseTapDev.getD ['t', 'a', 'p']) lines) (name : CStr)
    (hname : (netCreateTapMqFds env baseTapDev queues mtu bridge).name = some name) :
    name ∉ netDevNames lines ∧
      ∀ attached : CStr → List ℕ, (∀ other, attached other ≠ [] → other ∈ netDevNames lines) →
        (netCreateTapMqFds env baseTapDev queues mtu bridge).attach attached name =
            (netCreateTapMqFds env baseTapDev queues mtu bridge).fds ∧
          ∀ other, other ≠ name →
            (netCreateTapMqFds env baseTapDev queues mtu bridge).attach attached other =
              attached other := by
  have hnext := next_not_listed hblank (fun l hl => ⟨hvalid l hl, hpiece l hl⟩) hfit
  have htap := netCreateTapMqFds_name hname
  unfold tapName at htap
  rw [hproc] at htap
  have hnew : name ∉ netDevNames lines := by
    rw [← htap]
    exact hnext
  refine ⟨hnew, fun attached hlisted => ?_⟩
  -- nothing has been attached to an interface that is not there
  have hnone : attached name = [] := by
    by_contra hne
    exact hnew (hlisted name hne)
  unfold TapMqResult.attach
  rw [hname]
  dsimp only
  rw [foldl_attachQueue, hnone, List.nil_append]
  exact ⟨Function.update_self .., fun other hne => Function.update_of_ne hne ..⟩

/-- A kernel that lists these devices and does what it is asked. -/
def listingEnv (lines : List NetDevLine) : TapMqEnv :=
  { procNetDev := some (3, netDevPieces lines),
    openTun := fun q => some (4 + q), tunSetIff := fun _ => true, ctlSocket := some 9,
    ifIndex := fun _ => true, setIfMtu := fun _ => true, bridgeIndex := .found, addBridge := true,
    getBridgeFlags := true, setBridgeFlags := true, getBridgeMtu := true, addToBridge := true,
    getIfFlags := fun _ => true, setIfFlags := fun _ => true }

/-- A line of the header, a device and two taps. -/
def tapListing : List NetDevLine :=
  [.header "Inter-|   Receive".toList, .device 2 "eth0".toList " 10 0".toList,
    .device 2 "tap0".toList " 0 0".toList, .device 1 "tap10".toList " 0 0".toList]

/-- The descriptor 20 is a queue of `tap0`. -/
def tapAttached : CStr → List ℕ := fun name => if name = "tap0".toList then [20] else []

/-- After `tap0` and `tap10` comes `tap11`, and `tap0` keeps its one queue. -/
theorem tapName_new_tap : "tap11".toList ∉ netDevNames tapListing ∧
    (netCreateTapMqFds (listingEnv tapListing) none 2 1400 none).attach tapAttached
      "tap0".toList = [20] := by
  obtain ⟨hnew, hattach⟩ := tapName_new (listingEnv tapListing) none 2 1400 none tapListing 3 rfl
    (by simp [tapListing, NetDevLine.Valid, isSpace])
    (by simp [tapListing, NetDevLine.InPiece, netDevRoom]) (by decide) (.inl (by decide +kernel))
    "tap11".toList (by decide +kernel)
  refine ⟨hnew, ?_⟩
  rw [(hattach tapAttached fun other hne => ?_).2 _ (by decide)]
  · rfl
  · unfold tapAttached at hne
    split_ifs at hne with heq
    · rw [heq]
      decide
    · exact absurd rfl hne

end UdpEthTunnel
