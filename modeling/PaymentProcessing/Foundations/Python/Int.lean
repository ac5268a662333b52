import Mathlib.Tactic.IntervalCases
import PaymentProcessing.Foundations.Python.Str

/-!
# Python integers

`int.__repr__`, and `int(…)` of a string: surrounding white space, one sign, decimal digits of any
script with single underscores between them, and the limit on the number of digits. Unicode data
are those of version 15.0.
-/

namespace Python

open Str

/-! ## From integers to text -/

/-- `int.__repr__` of a natural number. -/
def natText (n : ℕ) : Str := (Nat.toDigits 10 n).map CodePoint.ofChar

/-- `int.__repr__`. -/
def intText : ℤ → Str
  | .ofNat n => natText n
  | .negSucc n => 0x2D :: natText (n + 1)

theorem natText_injective : Function.Injective natText := fun m n h => by
  have := List.map_injective_iff.mpr CodePoint.ofChar_injective h
  rw [← Nat.ofDigitChars_ten_toDigits (n := m), this, Nat.ofDigitChars_ten_toDigits]

theorem mem_natText {n : ℕ} {p : CodePoint} (h : p ∈ natText n) : p ∈ ofString "0123456789" := by
  have digit (k : ℕ) (hk : k < 10) : CodePoint.ofChar (Nat.digitChar k) ∈ ofString "0123456789" := by
    interval_cases k <;> decide
  induction n using Nat.strongRecOn with
  | ind n ih =>
    rw [natText, Nat.toDigits_eq_if (by omega)] at h
    split at h
    · rename_i hn
      rw [List.map_singleton, List.mem_singleton] at h
      exact h ▸ digit n hn
    · rename_i hn
      rw [List.map_append, List.mem_append, List.map_singleton, List.mem_singleton] at h
      rcases h with h | h
      · exact ih (n / 10) (by omega) h
      · exact h ▸ digit _ (by omega)

theorem natText_ne_nil (n : ℕ) : natText n ≠ [] := by
  simp [natText]

theorem minus_notMem_natText (n : ℕ) : (0x2D : CodePoint) ∉ natText n := fun h =>
  absurd (mem_natText h) (by decide)

theorem intText_injective : Function.Injective intText := by
  intro m n h
  cases m with
  | ofNat m =>
    cases n with
    | ofNat n => rw [@natText_injective m n h]
    | negSucc n =>
      refine absurd ?_ (minus_notMem_natText m)
      rw [show natText m = 0x2D :: natText (n + 1) from h]
      exact List.mem_cons_self
  | negSucc m =>
    cases n with
    | ofNat n =>
      refine absurd ?_ (minus_notMem_natText n)
      rw [← show 0x2D :: natText (m + 1) = natText n from h]
      exact List.mem_cons_self
    | negSucc n =>
      have := natText_injective (List.cons.inj h).2
      rw [Nat.succ.inj this]

/-- A hexadecimal digit. -/
def hexDigit (n : ℕ) : CodePoint := CodePoint.ofChar (Nat.digitChar n)

/-! ## From text to integers -/

/-- The zeros of the decimal digits; the digits of a script follow its zero. -/
def decimalZeros : List ℕ :=
  [0x30, 0x660, 0x6F0, 0x7C0, 0x966, 0x9E6, 0xA66, 0xAE6, 0xB66, 0xBE6, 0xC66, 0xCE6, 0xD66, 0xDE6,
    0xE50, 0xED0, 0xF20, 0x1040, 0x1090, 0x17E0, 0x1810, 0x1946, 0x19D0, 0x1A80, 0x1A90, 0x1B50,
    0x1BB0, 0x1C40, 0x1C50, 0xA620, 0xA8D0, 0xA900, 0xA9D0, 0xA9F0, 0xAA50, 0xABF0, 0xFF10,
    0x104A0, 0x10D30, 0x11066, 0x110F0, 0x11136, 0x111D0, 0x112F0, 0x11450, 0x114D0, 0x11650,
    0x116C0, 0x11730, 0x118E0, 0x11950, 0x11C50, 0x11D50, 0x11DA0, 0x11F50, 0x16A60, 0x16AC0,
    0x16B50, 0x1D7CE, 0x1D7D8, 0x1D7E2, 0x1D7EC, 0x1D7F6, 0x1E140, 0x1E2F0, 0x1E4F0, 0x1E950,
    0x1FBF0]

/-- What a character of a `str` counts as in a numeral: decimal digits count as ASCII digits, white
space outside ASCII as a blank, and every other character outside ASCII as no part of one. -/
def toNumeral (p : CodePoint) : ℕ :=
  if p.val < 127 then p.val
  else if p.val ∈ wideSpaces then 0x20
  else match decimalZeros.find? fun z => z ≤ p.val ∧ p.val < z + 10 with
    | some z => 0x30 + (p.val - z)
    | none => 0x3F

/-- The digits of a numeral, with single underscores between them. -/
def numeralDigits : List ℕ → Option (List ℕ)
  | [] => none
  | [c] => if 0x30 ≤ c ∧ c ≤ 0x39 then some [c - 0x30] else none
  | c :: c' :: s =>
    if 0x30 ≤ c ∧ c ≤ 0x39 then
      if c' = 0x5F then (numeralDigits s).map ((c - 0x30) :: ·)
      else (numeralDigits (c' :: s)).map ((c - 0x30) :: ·)
    else none

/-- `sys.get_int_max_str_digits()`. -/
def maxStrDigits : ℕ := 4300

/-- The number a run of digits stands for. -/
def ofNumeralDigits (s : List ℕ) : Option ℕ :=
  match numeralDigits s with
  | none => none
  | some ds => if ds.length ≤ maxStrDigits then some (ds.foldl (10 * · + ·) 0) else none

/-- ASCII white space. -/
def isSpace (c : ℕ) : Bool := c = 0x20 || (0x09 ≤ c && c ≤ 0x0D)

/-- `int(…)` of the bytes of a numeral; `none` is a `ValueError`. -/
def intOfAscii (s : List ℕ) : Option ℤ :=
  match ((s.dropWhile isSpace).reverse.dropWhile isSpace).reverse with
  | 0x2D :: s => (ofNumeralDigits s).map fun n => -(n : ℤ)
  | 0x2B :: s => (ofNumeralDigits s).map fun n => (n : ℤ)
  | s => (ofNumeralDigits s).map fun n => (n : ℤ)

/-- `int(…)` of a `str`. -/
def intOfStr (s : Str) : Option ℤ := intOfAscii (s.map toNumeral)

/-- `int(…)` of `bytes`. -/
def intOfBytes (b : List UInt8) : Option ℤ := intOfAscii (b.map UInt8.toNat)

/-- The exceptions `int(…)` raises. -/
inductive IntError
  | typeError
  | valueError
  | overflowError
  deriving DecidableEq

/-- An IEEE 754 double. -/
inductive Double
  | nan
  | infinity (negative : Bool)
  | finite (negative : Bool) (mantissa : ℕ) (exponent : ℤ)
  deriving DecidableEq

/-- `int(…)` of a `float`: it drops the fraction. -/
def Double.toInt : Double → Except IntError ℤ
  | .nan => .error .valueError
  | .infinity _ => .error .overflowError
  | .finite negative m e =>
    let n : ℕ := if 0 ≤ e then m * 2 ^ e.toNat else m / 2 ^ (-e).toNat
    .ok (if negative then -n else n)

example : intOfStr (ofString " +1_000\n") = some 1000 := by decide +kernel

example : intOfStr (ofString "1__0") = none := by decide +kernel

end Python
