/-
# Strings of the C library

`strchr`, `strstr`, `strtol` and `atoi`, as `src/main.c`, `src/ip_addr.c` and
`src/net.c` use them.  A number is read back from its decimal text (`atoi_decimal`).
-/

import Mathlib.Algebra.Group.Int.Defs
import Mathlib.Algebra.Group.Nat.Defs
import Mathlib.Data.List.TakeWhile
import Mathlib.Data.Nat.Notation

namespace UdpEthTunnel

/-- A C string, without the byte that ends it. -/
abbrev CStr := List Char

/-- `strchr`: where the character first stands. -/
def strchr (s : CStr) (c : Char) : Option ℕ := s.findIdx? (· == c)

/-- `strstr`: the text from the first occurrence on. -/
def strstr : CStr → CStr → Option CStr
  | [], pattern => if pattern.isPrefixOf [] then some [] else none
  | c :: s, pattern => if pattern.isPrefixOf (c :: s) then some (c :: s) else strstr s pattern

/-- Where a character stands, and what stands around it. -/
theorem strchr_cases (s : CStr) (c : Char) :
    (c ∉ s ∧ strchr s c = none) ∨
      c ∈ s ∧ ∃ i, strchr s c = some i ∧ s.take i = s.takeWhile (· != c) ∧
        s.drop (i + 1) = (s.dropWhile (· != c)).tail := by
  unfold strchr
  induction s with
  | nil => exact .inl ⟨List.not_mem_nil, rfl⟩
  | cons x s ih =>
    rw [List.findIdx?_cons]
    by_cases hx : x = c
    · refine .inr ⟨hx ▸ List.mem_cons_self, 0, ?_, ?_, ?_⟩
      · simp [hx]
      · simp [hx]
      · simp [hx]
    · rcases ih with ⟨hnot, hnone⟩ | ⟨hmem, i, hsome, htake, hdrop⟩
      · refine .inl ⟨?_, ?_⟩
        · simp [Ne.symm hx, hnot]
        · simp [hx, hnone]
      · refine .inr ⟨List.mem_cons_of_mem _ hmem, i + 1, ?_, ?_, ?_⟩
        · simp [hx, hsome]
        · simp [hx, htake]
        · simp [hx, hdrop]

/-- `isspace` in the C locale. -/
def isSpace (c : Char) : Bool := c == ' ' || (9 ≤ c.toNat && c.toNat ≤ 13)

/-- The value of the digits a text starts with. -/
def leadingDigits (s : CStr) : ℕ :=
  (s.takeWhile Char.isDigit).foldl (fun n c => 10 * n + (c.toNat - 48)) 0

/-- `strtol(s, NULL, 10)`: a `long`, saturated. -/
def strtol (s : CStr) : Int :=
  match s.dropWhile isSpace with
  | '-' :: s => max (-2 ^ 63) (-leadingDigits s)
  | '+' :: s => min (leadingDigits s) (2 ^ 63 - 1)
  | s => min (leadingDigits s) (2 ^ 63 - 1)

/-- `atoi`: `strtol` cast to `int`. -/
def atoi (s : CStr) : Int := (BitVec.ofInt 32 (strtol s)).toInt

/-- The decimal text of a number. -/
def decimal (n : ℕ) : CStr := Nat.toDigits 10 n

/-- A decimal text is made of digits. -/
theorem isDigit_of_mem_decimal {n : ℕ} {c : Char} (h : c ∈ decimal n) : c.isDigit = true :=
  Nat.isDigit_of_mem_toDigits (by omega) (by omega) h

theorem toNat_of_isDigit {c : Char} (h : c.isDigit = true) : 48 ≤ c.toNat ∧ c.toNat ≤ 57 := by
  simpa [Char.isDigit, UInt32.le_iff_toNat_le] using h

/-- A digit is neither blank nor a sign. -/
theorem isSpace_of_isDigit {c : Char} (h : c.isDigit = true) :
    isSpace c = false ∧ c ≠ '-' ∧ c ≠ '+' := by
  obtain ⟨hlow, hhigh⟩ := toNat_of_isDigit h
  have hne : ∀ d : Char, d.toNat < 48 → c ≠ d := by
    rintro d hd rfl
    omega
  refine ⟨?_, hne _ (by decide), hne _ (by decide)⟩
  unfold isSpace
  rw [Bool.or_eq_false_iff, beq_eq_false_iff_ne]
  refine ⟨hne _ (by decide), ?_⟩
  simp
  omega

theorem leadingDigits_decimal (n : ℕ) : leadingDigits (decimal n) = n := by
  have hall : (decimal n).takeWhile Char.isDigit = decimal n :=
    List.takeWhile_eq_self_iff.2 fun c hc => isDigit_of_mem_decimal hc
  unfold leadingDigits
  rw [hall]
  exact Nat.ofDigitChars_ten_toDigits

/-- Blanks before a number are skipped. -/
theorem atoi_blank (s : CStr) : atoi (' ' :: s) = atoi s := by
  unfold atoi strtol
  rw [List.dropWhile_cons_of_pos (by decide)]

/-- **A text that starts with a digit is read as the value of its leading digits**, if that
fits an `int`. -/
theorem atoi_cons_digit {c : Char} {s : CStr} (hdigit : c.isDigit = true)
    (hlt : leadingDigits (c :: s) < 2 ^ 31) : atoi (c :: s) = leadingDigits (c :: s) := by
  have hstrtol : strtol (c :: s) = leadingDigits (c :: s) := by
    obtain ⟨hblank, hminus, hplus⟩ := isSpace_of_isDigit hdigit
    unfold strtol
    rw [List.dropWhile_cons_of_neg (by rw [hblank]; decide)]
    split
    case h_1 heq => exact absurd (List.cons.inj heq).1 hminus
    case h_2 heq => exact absurd (List.cons.inj heq).1 hplus
    case h_3 => omega
  unfold atoi
  rw [hstrtol, BitVec.toInt_ofInt, Int.bmod_eq_of_le (by omega) (by omega)]

/-- **A text of digits is read as its value**, if that fits an `int`. -/
theorem atoi_digits {s : CStr} (hne : s ≠ []) (hdigit : ∀ c ∈ s, c.isDigit = true)
    (hlt : leadingDigits s < 2 ^ 31) : atoi s = leadingDigits s := by
  cases s with
  | nil => exact absurd rfl hne
  | cons c cs => exact atoi_cons_digit (hdigit c List.mem_cons_self) hlt

/-- The leading digits end where something else begins. -/
theorem leadingDigits_decimal_append (n : ℕ) {more : CStr}
    (hmore : ∀ c ∈ more.head?, c.isDigit = false) : leadingDigits (decimal n ++ more) = n := by
  have htake : (decimal n ++ more).takeWhile Char.isDigit = decimal n := by
    rw [List.takeWhile_append_of_pos fun c hc => isDigit_of_mem_decimal hc]
    cases more with
    | nil => rw [List.takeWhile_nil, List.append_nil]
    | cons c more =>
      rw [List.takeWhile_cons_of_neg (by rw [hmore c rfl]; decide), List.append_nil]
  unfold leadingDigits
  rw [htake]
  exact Nat.ofDigitChars_ten_toDigits

/-- **A number is read back from its decimal text**, if it fits an `int`. -/
theorem atoi_decimal {n : ℕ} (hn : n < 2 ^ 31) : atoi (decimal n) = n := by
  have hlead := leadingDigits_decimal n
  have hne : decimal n ≠ [] := Nat.toDigits_ne_nil
  rw [atoi_digits hne (fun c hc => isDigit_of_mem_decimal hc) (by omega), hlead]

end UdpEthTunnel
