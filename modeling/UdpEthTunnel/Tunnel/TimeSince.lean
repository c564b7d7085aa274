/-
# How long ago

`time_since_human_str` of `src/tunnel.c`, which `tunnel_print_stats` calls with a buffer of
2048 bytes.

A unit is taken off only where more than one of it is left.  What is printed always adds up
to the elapsed time (`shown_sum`), so different times never print alike.  But exactly one
day is printed as 24 hours, and an hour or a minute that is left over exactly, as 60 of the
next unit; everywhere else the amounts are in range (`printsNormalForm_iff`).
-/

import UdpEthTunnel.Net.Tap

namespace UdpEthTunnel

/-- What `snprintf` leaves of a text in an array of `size` bytes. -/
def snprintf (size : ℕ) (text : CStr) : CStr := text.take (size - 1)

/-- `strlcat`. -/
def strlcat (dst src : CStr) (size : ℕ) : CStr := dst ++ src.take (size - 1 - dst.length)

def dayWord : CStr := "day(s)".toList

def hourWord : CStr := "hour(s)".toList

def minuteWord : CStr := "minute(s)".toList

def secondWord : CStr := "second(s)".toList

/-- An amount with its unit is appended, by way of `tmp`. -/
def appendAmount (buf : CStr) (len : ℕ) (n : Int) (word : CStr) : CStr :=
  strlcat buf (snprintf 128 (decimalInt n ++ ' ' :: (word ++ [' ']))) len

/-- The branch of a unit of more than a second: what is in `buf`, and what is left of
`diff`. -/
def takeUnit (len : ℕ) (unit : Int) (word : CStr) (st : CStr × Int) : CStr × Int :=
  if st.2 > unit then (appendAmount st.1 len (st.2.tdiv unit) word, st.2.tmod unit) else st

/-- `time_since_human_str`: what it leaves in `buf`, when `time` answers `now`. -/
def timeSinceHumanStr (now : Int) (len : ℕ) (diff : Int) : CStr :=
  if now - diff < 3600 * 24 then snprintf len "never".toList
  else
    let st := takeUnit len (3600 * 24) dayWord ([], diff)
    let st := takeUnit len 3600 hourWord st
    let st := takeUnit len 60 minuteWord st
    let buf := if st.2 > 0 then appendAmount st.1 len st.2 secondWord else st.1
    if buf = [] then snprintf len "now ( < 1 second)".toList else buf

/-- The size of `since_last_buf` in `tunnel_print_stats`. -/
def sinceLastBufLen : ℕ := 2048

/-- The elapsed time is a `time_t`, and the event is at least a day after the epoch. -/
def PrintsTime (now diff : Int) : Prop := 0 ≤ diff ∧ diff < 2 ^ 63 ∧ 3600 * 24 ≤ now - diff

/-! ### Reading a text -/

/-- The number before a word, in a text of numbers and words; 0 where the word is missing. -/
def amountOf (word : CStr) : List CStr → ℕ
  | n :: w :: rest => if w = word then leadingDigits n else amountOf word rest
  | _ => 0

/-- The amount of a unit that a text shows. -/
def shown (word text : CStr) : ℕ := amountOf word (text.splitOn ' ')

/-- The amounts are the normal form of a time. -/
structure NormalForm (days hours minutes seconds : ℕ) (diff : Int) : Prop where
  sum : days * 86400 + hours * 3600 + minutes * 60 + seconds = diff
  hours_lt : hours < 24
  minutes_lt : minutes < 60
  seconds_lt : seconds < 60

/-- **The text is the normal form of the elapsed time**, and that of no other. -/
structure PrintsNormalForm (now diff : Int) : Prop where
  normal : NormalForm (shown dayWord (timeSinceHumanStr now sinceLastBufLen diff))
    (shown hourWord (timeSinceHumanStr now sinceLastBufLen diff))
    (shown minuteWord (timeSinceHumanStr now sinceLastBufLen diff))
    (shown secondWord (timeSinceHumanStr now sinceLastBufLen diff)) diff
  unique : ∀ days hours minutes seconds, NormalForm days hours minutes seconds diff →
    days = shown dayWord (timeSinceHumanStr now sinceLastBufLen diff) ∧
      hours = shown hourWord (timeSinceHumanStr now sinceLastBufLen diff) ∧
      minutes = shown minuteWord (timeSinceHumanStr now sinceLastBufLen diff) ∧
      seconds = shown secondWord (timeSinceHumanStr now sinceLastBufLen diff)
  distinct : ∀ now' diff', PrintsTime now' diff' →
    timeSinceHumanStr now' sinceLastBufLen diff' = timeSinceHumanStr now sinceLastBufLen diff →
      diff' = diff

/-! ### The units -/

/-- How many whole units are taken off. -/
def taken (unit n : ℕ) : ℕ := if n > unit then n / unit else 0

/-- What is left then. -/
def left (unit n : ℕ) : ℕ := if n > unit then n % unit else n

/-- What is printed of an amount. -/
def amountText (n : ℕ) (word : CStr) : CStr :=
  if n = 0 then [] else decimal n ++ ' ' :: (word ++ [' '])

/-- What is printed of four amounts. -/
def amountsText (days hours minutes seconds : ℕ) : CStr :=
  let text := amountText days dayWord ++ (amountText hours hourWord ++
    (amountText minutes minuteWord ++ amountText seconds secondWord))
  if text = [] then "now ( < 1 second)".toList else text

section Units

variable {unit n len k : ℕ} {word w text buf : CStr} {now diff : Int}

theorem taken_mul_add_left (unit n : ℕ) : taken unit n * unit + left unit n = n := by
  unfold taken left
  split_ifs
  · rw [Nat.mul_comm]
    exact Nat.div_add_mod n unit
  · omega

theorem left_le (unit n : ℕ) : left unit n ≤ n := by
  have := taken_mul_add_left unit n
  omega

theorem taken_le (hunit : 0 < unit) (n : ℕ) : taken unit n ≤ n := by
  have hsum := taken_mul_add_left unit n
  have := Nat.le_mul_of_pos_right (taken unit n) hunit
  omega

/-- A number below `2 ^ 63` has at most 19 digits. -/
theorem length_decimal_le (hn : n < 2 ^ 63) : (decimal n).length ≤ 19 :=
  (Nat.length_toDigits_le_iff (by omega) (by omega)).2 (by omega)

theorem length_amountText_le (hn : n < 2 ^ 63) (hword : word.length ≤ 9) :
    (amountText n word).length ≤ 30 := by
  have hdigits := length_decimal_le hn
  unfold amountText
  split_ifs
  · simp
  · simp only [List.length_append, List.length_cons, List.length_nil]
    omega

/-- **An amount is appended** as it is, where there is room for it. -/
theorem appendAmount_eq (hpos : 0 < n) (hn : n < 2 ^ 63) (hword : word.length ≤ 9)
    (hroom : buf.length + 30 < len) : appendAmount buf len n word = buf ++ amountText n word := by
  have hlen := length_amountText_le hn hword
  have hdecimal : decimalInt n = decimal n := by simp [decimalInt]
  unfold amountText at hlen ⊢
  rw [if_neg (by omega)] at hlen ⊢
  unfold appendAmount strlcat snprintf
  rw [hdecimal, List.take_of_length_le (show _ ≤ 128 - 1 by omega),
    List.take_of_length_le (by omega)]

/-- **A unit is taken off.** -/
theorem takeUnit_eq (buf word : CStr) (len n : ℕ) {unit : ℕ} (hunit : 0 < unit) (hn : n < 2 ^ 63)
    (hword : word.length ≤ 9) (hroom : buf.length + 30 < len) : takeUnit len unit word (buf, n) =
      (buf ++ amountText (taken unit n) word, (left unit n : Int)) := by
  have hle := taken_le hunit n
  unfold takeUnit taken left at *
  by_cases hmore : n > unit
  · have hcast : (n : Int) > unit := by omega
    have hpos : 0 < n / unit := Nat.div_pos (by omega) hunit
    rw [if_pos hmore] at hle
    rw [if_pos hcast, if_pos hmore, if_pos hmore, ← Int.ofNat_tdiv, ← Int.ofNat_tmod,
      appendAmount_eq hpos (by omega) hword hroom]
  · have hcast : ¬ (n : Int) > unit := by omega
    rw [if_neg hcast, if_neg hmore, if_neg hmore]
    simp [amountText]

/-- The branch of the seconds. -/
theorem appendSeconds_eq (buf : CStr) (len n : ℕ) (hn : n < 2 ^ 63) (hroom : buf.length + 30 < len) :
    (if (n : Int) > 0 then appendAmount buf len n secondWord else buf) =
      buf ++ amountText n secondWord := by
  rcases Nat.eq_zero_or_pos n with rfl | hpos
  · simp [amountText]
  · rw [if_pos (by omega), appendAmount_eq hpos hn (by decide) hroom]

/-- **What is printed** of an elapsed time. -/
theorem timeSinceHumanStr_eq (h : PrintsTime now n) :
    timeSinceHumanStr now sinceLastBufLen n =
      amountsText (taken 86400 n) (taken 3600 (left 86400 n))
        (taken 60 (left 3600 (left 86400 n))) (left 60 (left 3600 (left 86400 n))) := by
  obtain ⟨-, hmax, hpast⟩ := h
  have hn : n < 2 ^ 63 := by omega
  have h₁ := left_le 86400 n
  have h₂ := left_le 3600 (left 86400 n)
  have h₃ := left_le 60 (left 3600 (left 86400 n))
  have hdays : (amountText (taken 86400 n) dayWord).length ≤ 30 :=
    length_amountText_le ((taken_le (by omega) _).trans_lt hn) (by decide)
  have hhours : (amountText (taken 3600 (left 86400 n)) hourWord).length ≤ 30 :=
    length_amountText_le ((taken_le (by omega) _).trans_lt (by omega)) (by decide)
  have hminutes : (amountText (taken 60 (left 3600 (left 86400 n))) minuteWord).length ≤ 30 :=
    length_amountText_le ((taken_le (by omega) _).trans_lt (by omega)) (by decide)
  -- the three units, one after the other, and the seconds
  have hday : takeUnit sinceLastBufLen (3600 * 24) dayWord ([], n) = _ :=
    takeUnit_eq [] dayWord _ n (show 0 < 86400 by omega) hn (by decide) (by decide)
  rw [List.nil_append] at hday
  have hhour : takeUnit sinceLastBufLen 3600 hourWord
      (amountText (taken 86400 n) dayWord, (left 86400 n : Int)) = _ :=
    takeUnit_eq _ hourWord _ _ (show 0 < 3600 by omega) (by omega) (by decide)
      (by unfold sinceLastBufLen; omega)
  have hminute : takeUnit sinceLastBufLen 60 minuteWord
      (amountText (taken 86400 n) dayWord ++ amountText (taken 3600 (left 86400 n)) hourWord,
        (left 3600 (left 86400 n) : Int)) = _ :=
    takeUnit_eq _ minuteWord _ _ (show 0 < 60 by omega) (by omega) (by decide)
      (by rw [List.length_append]; unfold sinceLastBufLen; omega)
  unfold timeSinceHumanStr
  rw [if_neg (by omega)]
  dsimp only
  rw [hday, hhour, hminute]
  dsimp only
  rw [appendSeconds_eq _ _ _ (by omega) (by
    rw [List.length_append, List.length_append]; unfold sinceLastBufLen; omega)]
  unfold amountsText
  rw [List.append_assoc, List.append_assoc]
  rfl

/-! ### What a text shows -/

/-- The words of the units, none of which has a blank in it. -/
def unitWords : List CStr := [dayWord, hourWord, minuteWord, secondWord]

theorem splitOn_amountText (hw : w ∈ unitWords) (hn : n ≠ 0) (text : CStr) :
    (amountText n w ++ text).splitOn ' ' = decimal n :: w :: text.splitOn ' ' := by
  have hblank : ' ' ∉ decimal n := by
    intro hmem
    exact absurd (isDigit_of_mem_decimal hmem) (by decide)
  have hword : ∀ w ∈ unitWords, ' ' ∉ w := by decide +kernel
  unfold amountText
  rw [if_neg hn, List.append_assoc, List.cons_append, List.append_assoc,
    List.splitOn_append_cons_self_of_not_mem hblank, List.singleton_append,
    List.splitOn_append_cons_self_of_not_mem (hword w hw)]

/-- An amount of another unit is passed over. -/
theorem shown_other (hw : w ∈ unitWords) (hne : w ≠ word) (n : ℕ) (text : CStr) :
    shown word (amountText n w ++ text) = shown word text := by
  by_cases hn : n = 0
  · subst hn
    rfl
  · unfold shown
    rw [splitOn_amountText hw hn, amountOf, if_neg hne]

/-- An amount is read where its unit stands. -/
theorem shown_same (hw : w ∈ unitWords) (n : ℕ) (hrest : shown w text = 0) :
    shown w (amountText n w ++ text) = n := by
  by_cases hn : n = 0
  · subst hn
    exact hrest
  · unfold shown
    rw [splitOn_amountText hw hn, amountOf, if_pos rfl, leadingDigits_decimal]

/-- **The amounts are read back from their text.** -/
theorem shown_amountsText (days hours minutes seconds : ℕ) :
    shown dayWord (amountsText days hours minutes seconds) = days ∧
      shown hourWord (amountsText days hours minutes seconds) = hours ∧
      shown minuteWord (amountsText days hours minutes seconds) = minutes ∧
      shown secondWord (amountsText days hours minutes seconds) = seconds := by
  have hday : dayWord ∈ unitWords := by decide
  have hhour : hourWord ∈ unitWords := by decide
  have hminute : minuteWord ∈ unitWords := by decide
  have hsecond : secondWord ∈ unitWords := by decide
  -- the text of `now` shows no amount, as the empty one
  have hnow : ∀ word ∈ unitWords, ∀ body : CStr,
      shown word (if body = [] then "now ( < 1 second)".toList else body) = shown word body := by
    intro word hword body
    by_cases hnil : body = []
    · subst hnil
      revert word
      decide +kernel
    · rw [if_neg hnil]
  have hlast : amountText seconds secondWord = amountText seconds secondWord ++ [] := by simp
  unfold amountsText
  dsimp only
  rw [hnow _ hday, hnow _ hhour, hnow _ hminute, hnow _ hsecond, hlast]
  refine ⟨?_, ?_, ?_, ?_⟩
  · refine shown_same hday days ?_
    rw [shown_other hhour (by decide), shown_other hminute (by decide),
      shown_other hsecond (by decide)]
    rfl
  · rw [shown_other hday (by decide)]
    refine shown_same hhour hours ?_
    rw [shown_other hminute (by decide), shown_other hsecond (by decide)]
    rfl
  · rw [shown_other hday (by decide), shown_other hhour (by decide)]
    refine shown_same hminute minutes ?_
    rw [shown_other hsecond (by decide)]
    rfl
  · rw [shown_other hday (by decide), shown_other hhour (by decide),
      shown_other hminute (by decide)]
    exact shown_same hsecond seconds rfl

/-- What the text of an elapsed time shows: what is taken off for each unit. -/
theorem shown_timeSince (h : PrintsTime now n) :
    shown dayWord (timeSinceHumanStr now sinceLastBufLen n) = taken 86400 n ∧
      shown hourWord (timeSinceHumanStr now sinceLastBufLen n) = taken 3600 (left 86400 n) ∧
      shown minuteWord (timeSinceHumanStr now sinceLastBufLen n) =
        taken 60 (left 3600 (left 86400 n)) ∧
      shown secondWord (timeSinceHumanStr now sinceLastBufLen n) =
        left 60 (left 3600 (left 86400 n)) := by
  rw [timeSinceHumanStr_eq h]
  exact shown_amountsText _ _ _ _

/-- **The amounts add up** to the elapsed time, whatever their ranges. -/
theorem shown_sum (h : PrintsTime now diff) :
    (shown dayWord (timeSinceHumanStr now sinceLastBufLen diff) * 86400 +
      shown hourWord (timeSinceHumanStr now sinceLastBufLen diff) * 3600 +
      shown minuteWord (timeSinceHumanStr now sinceLastBufLen diff) * 60 +
      shown secondWord (timeSinceHumanStr now sinceLastBufLen diff) : Int) = diff := by
  obtain ⟨n, rfl⟩ := Int.eq_ofNat_of_zero_le h.1
  obtain ⟨hdays, hhours, hminutes, hseconds⟩ := shown_timeSince h
  have h₁ := taken_mul_add_left 86400 n
  have h₂ := taken_mul_add_left 3600 (left 86400 n)
  have h₃ := taken_mul_add_left 60 (left 3600 (left 86400 n))
  rw [hdays, hhours, hminutes, hseconds]
  omega

/-- **The ranges** are kept but for a unit that is left over exactly. -/
theorem taken_ranges (n : ℕ) :
    (taken 3600 (left 86400 n) < 24 ∧ taken 60 (left 3600 (left 86400 n)) < 60 ∧
      left 60 (left 3600 (left 86400 n)) < 60) ↔
    n ≠ 86400 ∧ n % 86400 ≠ 3600 ∧ n % 3600 ≠ 60 := by
  unfold taken left
  split_ifs <;> omega

/-- **When the text is the normal form.**  `time_since_human_str` takes a unit off only where more
than one of it is left, so exactly one of it stays in the next smaller unit.  For every elapsed
time that is printed, each amount is in range where the time is not exactly a day, and neither
an hour is left over after the days nor a minute after the hours. -/
theorem printsNormalForm_iff (now diff : Int) (h : PrintsTime now diff) :
    PrintsNormalForm now diff ↔ diff ≠ 86400 ∧ diff % 86400 ≠ 3600 ∧ diff % 3600 ≠ 60 := by
  have hsum := shown_sum h
  obtain ⟨n, rfl⟩ := Int.eq_ofNat_of_zero_le h.1
  obtain ⟨hdays, hhours, hminutes, hseconds⟩ := shown_timeSince h
  have hranges := taken_ranges n
  rw [← hhours, ← hminutes, ← hseconds] at hranges
  constructor
  · intro hprints
    have hgood := hranges.1 ⟨hprints.normal.hours_lt, hprints.normal.minutes_lt,
      hprints.normal.seconds_lt⟩
    omega
  · intro hgood
    obtain ⟨hhour, hminute, hsecond⟩ := hranges.2 (by omega)
    refine ⟨⟨hsum, hhour, hminute, hsecond⟩, ?_, ?_⟩
    · intro days hours minutes seconds hnormal
      obtain ⟨hsum', hhour', hminute', hsecond'⟩ := hnormal
      omega
    · intro now' diff' hprints htext
      have hsum' := shown_sum hprints
      rw [htext, hsum] at hsum'
      exact hsum'.symm

end Units

/-- A day, an hour, a minute and a second. -/
theorem printsNormalForm_each : PrintsNormalForm 1000000 90061 :=
  (printsNormalForm_iff _ _ ⟨by decide, by decide, by decide⟩).2 (by decide)

/-- A day is printed as 24 hours, an hour as 60 minutes and a minute as 60 seconds. -/
theorem printsNormalForm_fails :
    timeSinceHumanStr 1000000 sinceLastBufLen 86400 = "24 hour(s) ".toList ∧
      ¬ PrintsNormalForm 1000000 86400 ∧
      timeSinceHumanStr 1000000 sinceLastBufLen 3600 = "60 minute(s) ".toList ∧
      ¬ PrintsNormalForm 1000000 3600 ∧
      timeSinceHumanStr 1000000 sinceLastBufLen 60 = "60 second(s) ".toList ∧
      ¬ PrintsNormalForm 1000000 60 := by
  refine ⟨by decide +kernel, fun h => ?_, by decide +kernel, fun h => ?_, by decide +kernel,
    fun h => ?_⟩
  · have hhours := h.normal.hours_lt
    revert hhours
    decide +kernel
  · have hminutes := h.normal.minutes_lt
    revert hminutes
    decide +kernel
  · have hseconds := h.normal.seconds_lt
    revert hseconds
    decide +kernel

end UdpEthTunnel
