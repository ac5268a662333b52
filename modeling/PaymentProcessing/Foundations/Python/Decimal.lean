import Mathlib.Algebra.Order.Field.Power
import Mathlib.Data.Rat.Cast.Order
import Mathlib.Tactic.FieldSimp
import Mathlib.Tactic.Linarith
import Mathlib.Tactic.NormNum
import Mathlib.Tactic.Ring
import PaymentProcessing.Foundations.Python.Int

/-!
# Decimals

Finite values of `decimal.Decimal` under the default context: a sign, a coefficient of any length
and an exponent. Two decimals may denote the same number (`1.5` and `1.50`); `value` is the number.

`quantize` gives a number that has an exact representation with the asked exponent exactly that
representation (`quantize_of_value`), and the text of a decimal with two fraction digits is plain
(`str_cents`) and determines its coefficient (`centsText_injective`).
-/

namespace Python

open Str

/-- A finite `decimal.Decimal`. -/
structure Decimal where
  sign : Bool
  coeff : ℕ
  exp : ℤ
  deriving DecidableEq

/-- `decimal.InvalidOperation`. -/
inductive InvalidOperation
  | invalidOperation
  deriving DecidableEq

namespace Decimal

/-- The number a decimal denotes. -/
def value (d : Decimal) : ℚ := (if d.sign then -1 else 1) * (d.coeff * 10 ^ d.exp)

/-- The precision of the default context. -/
def prec : ℕ := 28

/-- The number of decimal digits. -/
def digits (n : ℕ) : ℕ := (Nat.toDigits 10 n).length

/-- `n / 10 ^ k` rounded to the nearest integer, ties to the even one. -/
def halfEven (n k : ℕ) : ℕ :=
  if 2 * (n % 10 ^ k) < 10 ^ k ∨ (2 * (n % 10 ^ k) = 10 ^ k ∧ n / 10 ^ k % 2 = 0) then n / 10 ^ k
  else n / 10 ^ k + 1

/-- The decimal with exponent `e` closest to `d`. -/
def rescale (d : Decimal) (e : ℤ) : Decimal :=
  if e ≤ d.exp then ⟨d.sign, d.coeff * 10 ^ (d.exp - e).toNat, e⟩
  else ⟨d.sign, halfEven d.coeff (e - d.exp).toNat, e⟩

/-- `Decimal.quantize` to an exponent `e` within the limits of the default context. -/
def quantize (d : Decimal) (e : ℤ) : Except InvalidOperation Decimal :=
  if d.coeff = 0 then .ok ⟨d.sign, 0, e⟩
  else if prec < d.exp + digits d.coeff - e then .error .invalidOperation
  else if prec < digits (d.rescale e).coeff then .error .invalidOperation
  else .ok (d.rescale e)

/-- `n` zeros. -/
def zeros (n : ℤ) : Str := List.replicate n.toNat 0x30

/-- The text of an exponent, with its sign. -/
def expText (n : ℤ) : Str := if 0 ≤ n then ofString "E+" ++ intText n else ofString "E" ++ intText n

/-- The text of a decimal with the digits `int`. -/
def layout (sign : Bool) (int : Str) (exp : ℤ) : Str :=
  let leftDigits := exp + int.length
  let dotPlace := if exp ≤ 0 ∧ -6 < leftDigits then leftDigits else 1
  let intPart :=
    if dotPlace ≤ 0 then ofString "0"
    else if int.length ≤ dotPlace then int ++ zeros (dotPlace - int.length)
    else int.take dotPlace.toNat
  let fracPart :=
    if dotPlace ≤ 0 then ofString "." ++ zeros (-dotPlace) ++ int
    else if int.length ≤ dotPlace then []
    else ofString "." ++ int.drop dotPlace.toNat
  let exp := if leftDigits = dotPlace then [] else expText (leftDigits - dotPlace)
  (if sign then ofString "-" else []) ++ intPart ++ fracPart ++ exp

/-- `Decimal.__str__`. -/
def str (d : Decimal) : Str := layout d.sign (natText d.coeff) d.exp

/-- `int(…)` of a decimal: it drops the fraction. -/
def toInt (d : Decimal) : ℤ :=
  let n : ℕ := if 0 ≤ d.exp then d.coeff * 10 ^ d.exp.toNat else d.coeff / 10 ^ (-d.exp).toNat
  if d.sign then -n else n

/-- `Decimal(…)` of an integer. -/
def ofInt (n : ℤ) : Decimal := ⟨decide (n < 0), n.natAbs, 0⟩

theorem value_ofInt (n : ℤ) : (ofInt n).value = n := by
  unfold ofInt value
  rcases lt_or_ge n 0 with h | h
  · have habs : ((n.natAbs : ℤ) : ℚ) = -n := by
      rw [Int.ofNat_natAbs_of_nonpos h.le]
      push_cast
      rfl
    push_cast at habs
    simp [h, habs]
  · have habs : ((n.natAbs : ℤ) : ℚ) = n := by rw [Int.natAbs_of_nonneg h]
    push_cast at habs
    simp [h.not_gt, habs]

/-! ## Exact quantization -/

theorem digits_le_iff {n k : ℕ} (hk : 0 < k) : digits n ≤ k ↔ n < 10 ^ k :=
  Nat.length_toDigits_le_iff (by omega) hk

theorem halfEven_mul (n k : ℕ) : halfEven (n * 10 ^ k) k = n := by
  have hpos : 0 < 10 ^ k := by positivity
  simp [halfEven, Nat.mul_div_cancel _ hpos, hpos]

theorem sign_of_value_pos {d : Decimal} (h : 0 < d.value) : d.sign = false := by
  cases hs : d.sign with
  | false => rfl
  | true =>
    have : (0 : ℚ) ≤ d.coeff * 10 ^ d.exp := by positivity
    simp only [value, hs, if_true] at h
    linarith

theorem coeff_of_value {d : Decimal} {k : ℕ} {e : ℤ} (hk : 0 < k) (h : d.value = k * 10 ^ e) :
    d.sign = false ∧ (d.coeff : ℚ) * 10 ^ (d.exp - e) = k := by
  have hpos : 0 < d.value := by rw [h]; positivity
  have hs := sign_of_value_pos hpos
  refine ⟨hs, ?_⟩
  simp only [value, hs, Bool.false_eq_true, if_false, one_mul] at h
  rw [zpow_sub₀ (by norm_num : (10 : ℚ) ≠ 0), ← mul_div_assoc, h,
    mul_div_cancel_right₀ _ (by positivity)]

theorem coeff_mul_of_le {d : Decimal} {k : ℕ} {e : ℤ} (h : (d.coeff : ℚ) * 10 ^ (d.exp - e) = k)
    (he : e ≤ d.exp) : d.coeff * 10 ^ (d.exp - e).toNat = k := by
  obtain ⟨m, hm⟩ := Int.eq_ofNat_of_zero_le (Int.sub_nonneg.mpr he)
  rw [hm, zpow_natCast] at h
  rw [hm, Int.toNat_natCast]
  exact_mod_cast h

theorem coeff_of_lt {d : Decimal} {k : ℕ} {e : ℤ} (h : (d.coeff : ℚ) * 10 ^ (d.exp - e) = k)
    (he : d.exp < e) : d.coeff = k * 10 ^ (e - d.exp).toNat := by
  obtain ⟨m, hm⟩ := Int.eq_ofNat_of_zero_le (Int.sub_nonneg.mpr he.le)
  have hneg : d.exp - e = -(m : ℤ) := by omega
  rw [hneg, zpow_neg, zpow_natCast, ← div_eq_mul_inv, div_eq_iff (by positivity)] at h
  rw [hm, Int.toNat_natCast]
  exact_mod_cast h

/-- The digits to the left of the last place asked for, of a number with an exact representation. -/
theorem leftDigits_le {d : Decimal} {k : ℕ} {e : ℤ} (hk : 0 < k) (hlt : k < 10 ^ prec)
    (h : (d.coeff : ℚ) * 10 ^ (d.exp - e) = k) : d.exp + digits d.coeff - e ≤ prec := by
  rcases le_or_gt e d.exp with he | he
  · obtain ⟨m, hm⟩ := Int.eq_ofNat_of_zero_le (Int.sub_nonneg.mpr he)
    have hc := coeff_mul_of_le h he
    rw [hm, Int.toNat_natCast] at hc
    have hcoeff : 0 < d.coeff := Nat.pos_of_ne_zero (by rintro h0; simp [h0] at hc; omega)
    have hmp : m < prec := by
      refine (Nat.pow_lt_pow_iff_right (a := 10) (by omega)).mp (lt_of_le_of_lt ?_ hlt)
      rw [← hc]
      exact Nat.le_mul_of_pos_left _ hcoeff
    have hd : digits d.coeff ≤ prec - m := by
      rw [digits_le_iff (by omega)]
      refine lt_of_mul_lt_mul_right (a := 10 ^ m) ?_ (Nat.zero_le _)
      rw [hc, ← pow_add, Nat.sub_add_cancel hmp.le]
      exact hlt
    omega
  · obtain ⟨m, hm⟩ := Int.eq_ofNat_of_zero_le (Int.sub_nonneg.mpr he.le)
    have hc := coeff_of_lt h he
    rw [hm, Int.toNat_natCast] at hc
    have hd : digits d.coeff ≤ prec + m := by
      rw [digits_le_iff (by simp [prec]), hc, pow_add]
      exact Nat.mul_lt_mul_of_pos_right hlt (by positivity)
    omega

/-- **Quantizing is exact** for a number with a representation of the asked exponent that fits the
precision: the result is that representation, whatever the one of the argument. -/
theorem quantize_of_value {d : Decimal} {k : ℕ} {e : ℤ} (hk : 0 < k) (hlt : k < 10 ^ prec)
    (h : d.value = k * 10 ^ e) : d.quantize e = .ok ⟨false, k, e⟩ := by
  obtain ⟨hs, hc⟩ := coeff_of_value hk h
  have hzero : d.coeff ≠ 0 := by
    rintro h0
    rw [h0, Nat.cast_zero, zero_mul] at hc
    exact hk.ne (by exact_mod_cast hc)
  have hr : d.rescale e = ⟨false, k, e⟩ := by
    unfold rescale
    split
    · rename_i he
      rw [hs, coeff_mul_of_le hc he]
    · rename_i he
      rw [hs, coeff_of_lt hc (by omega), halfEven_mul]
  have hdig : digits k ≤ prec := (digits_le_iff (by simp [prec])).mpr hlt
  rw [quantize, if_neg hzero, if_neg (not_lt.mpr (leftDigits_le hk hlt hc)), hr,
    if_neg (not_lt.mpr hdig)]

/-! ## Quantization within the precision -/

theorem halfEven_le (n k : ℕ) : halfEven n k ≤ n / 10 ^ k + 1 := by
  unfold halfEven
  split <;> omega

/-- The digits of a positive number below a power of ten. -/
theorem coeff_of_value_lt {d : Decimal} (h0 : 0 < d.value) {p : ℕ} (hlt : d.value < 10 ^ p) :
    d.exp < p ∧ d.coeff < 10 ^ (p - d.exp).toNat := by
  have hs := sign_of_value_pos h0
  simp only [value, hs, Bool.false_eq_true, if_false, one_mul] at h0 hlt
  have hten : (0 : ℚ) < 10 ^ d.exp := by positivity
  have hcoeff : 1 ≤ d.coeff := by
    have : (0 : ℚ) < d.coeff := pos_of_mul_pos_left h0 hten.le
    exact_mod_cast this
  have hexp : d.exp < p := by
    have hle : (10 : ℚ) ^ d.exp ≤ d.coeff * 10 ^ d.exp :=
      le_mul_of_one_le_left hten.le (by exact_mod_cast hcoeff)
    have hpow : (10 : ℚ) ^ d.exp < 10 ^ (p : ℤ) := by
      rw [zpow_natCast]
      exact hle.trans_lt hlt
    exact (zpow_lt_zpow_iff_right₀ (by norm_num)).mp hpow
  refine ⟨hexp, ?_⟩
  obtain ⟨m, hm⟩ := Int.eq_ofNat_of_zero_le (Int.sub_nonneg.mpr hexp.le)
  have hp : (10 : ℚ) ^ p = 10 ^ m * 10 ^ d.exp := by
    rw [← zpow_natCast, ← zpow_natCast, ← zpow_add₀ (by norm_num)]
    congr 1
    omega
  rw [hp] at hlt
  rw [hm, Int.toNat_natCast]
  exact_mod_cast lt_of_mul_lt_mul_right hlt hten.le

/-- **A number that is not too large can be quantized**, whether that is exact or not. -/
theorem exists_quantize {d : Decimal} (h0 : 0 < d.value) {p : ℕ} (hlt : d.value < 10 ^ p) {n : ℕ}
    (hp : p + n < prec) : ∃ k, d.quantize (-n) = .ok ⟨false, k, -n⟩ := by
  have hs := sign_of_value_pos h0
  obtain ⟨hexp, hc⟩ := coeff_of_value_lt h0 hlt
  have hzero : d.coeff ≠ 0 := by
    rintro h
    simp [value, h] at h0
  have hdigits : digits d.coeff ≤ (p - d.exp).toNat := (digits_le_iff (by omega)).mpr hc
  have hleft : ¬(prec : ℤ) < d.exp + digits d.coeff - -n := by omega
  have hresult : ∃ k, d.rescale (-n) = ⟨false, k, -n⟩ ∧ k < 10 ^ prec := by
    unfold rescale
    rw [hs]
    split
    · rename_i he
      obtain ⟨m, hm⟩ := Int.eq_ofNat_of_zero_le (Int.sub_nonneg.mpr he)
      refine ⟨_, rfl, ?_⟩
      calc d.coeff * 10 ^ (d.exp - -n).toNat
          < 10 ^ (p - d.exp).toNat * 10 ^ (d.exp - -n).toNat :=
            Nat.mul_lt_mul_of_pos_right hc (by positivity)
        _ = 10 ^ (p + n) := by
            rw [← pow_add]
            congr 1
            omega
        _ ≤ 10 ^ prec := Nat.pow_le_pow_right (by omega) hp.le
    · rename_i he
      refine ⟨_, rfl, ?_⟩
      have hdiv : d.coeff / 10 ^ (-n - d.exp).toNat < 10 ^ (p + n) := by
        rw [Nat.div_lt_iff_lt_mul (by positivity), ← pow_add]
        convert hc using 2
        omega
      calc halfEven d.coeff (-n - d.exp).toNat
          ≤ d.coeff / 10 ^ (-n - d.exp).toNat + 1 := halfEven_le _ _
        _ ≤ 10 ^ (p + n) := hdiv
        _ < 10 ^ prec := Nat.pow_lt_pow_right (by omega) hp
  obtain ⟨k, hk, hlt⟩ := hresult
  refine ⟨k, ?_⟩
  rw [quantize, if_neg hzero, if_neg hleft, hk,
    if_neg (not_lt.mpr ((digits_le_iff (by simp [prec])).mpr hlt))]

/-! ## The text of an amount in cents -/

/-- A decimal digit. -/
def digit (n : ℕ) : CodePoint := CodePoint.ofChar (Nat.digitChar n)

theorem natText_of_lt {n : ℕ} (h : n < 10) : natText n = [digit n] := by
  rw [natText, Nat.toDigits_eq_if (by omega), if_pos h]
  rfl

theorem natText_of_le {n : ℕ} (h : 10 ≤ n) : natText n = natText (n / 10) ++ [digit (n % 10)] := by
  rw [natText, Nat.toDigits_eq_if (by omega), if_neg (by omega), List.map_append]
  rfl

theorem digit_inj {m n : ℕ} (hm : m < 10) (hn : n < 10) (h : digit m = digit n) : m = n := by
  have ht : natText m = natText n := by rw [natText_of_lt hm, natText_of_lt hn, h]
  exact natText_injective ht

/-- The plain text of an amount of `k` hundredths. -/
def centsText (k : ℕ) : Str := natText (k / 100) ++ [0x2E, digit (k / 10 % 10), digit (k % 10)]

theorem layout_append {p : Str} (hp : p ≠ []) (a b : CodePoint) :
    layout false (p ++ [a, b]) (-2) = p ++ [0x2E, a, b] := by
  have hlen : ((p ++ [a, b]).length : ℤ) = p.length + 2 := by simp
  have hdot : (-2 : ℤ) + (p.length + 2) = p.length := by omega
  have hpos : 0 < p.length := List.length_pos_iff.mpr hp
  have hplace : (if (-2 : ℤ) ≤ 0 ∧ -6 < (p.length : ℤ) then (p.length : ℤ) else 1) = p.length :=
    if_pos ⟨by decide, by omega⟩
  have h0 : ¬(p.length : ℤ) ≤ 0 := by omega
  have h2 : ¬(p.length : ℤ) + 2 ≤ p.length := by omega
  simp only [layout, hlen, hdot, hplace, h0, h2, if_false, Int.toNat_natCast, List.take_left,
    List.drop_left, Bool.false_eq_true, if_true, List.append_nil, List.nil_append]
  rfl

/-- **The text of a decimal with two fraction digits** is plain. -/
theorem str_cents (k : ℕ) : str ⟨false, k, -2⟩ = centsText k := by
  rcases Nat.lt_or_ge k 10 with h1 | h1
  · have hk : k / 100 = 0 := by omega
    have hd : k / 10 % 10 = 0 := by omega
    have hm : k % 10 = k := by omega
    simp only [str, centsText, natText_of_lt h1, hk, hd, hm]
    rfl
  · rcases Nat.lt_or_ge k 100 with h2 | h2
    · have hk : k / 100 = 0 := by omega
      have hd : k / 10 % 10 = k / 10 := by omega
      simp only [str, centsText, natText_of_le h1, natText_of_lt (show k / 10 < 10 by omega), hk, hd]
      rfl
    · have ht : natText k = natText (k / 100) ++ [digit (k / 10 % 10), digit (k % 10)] := by
        rw [natText_of_le h1, natText_of_le (show 10 ≤ k / 10 by omega), Nat.div_div_eq_div_mul,
          List.append_assoc]
        rfl
      rw [str, ht, layout_append (natText_ne_nil _), centsText]

theorem centsText_injective : Function.Injective centsText := by
  intro k k' h
  obtain ⟨hq, hr⟩ := List.append_inj' h rfl
  simp only [List.cons.injEq, true_and, and_true] at hr
  have h1 := natText_injective hq
  have h2 := digit_inj (by omega) (by omega) hr.1
  have h3 := digit_inj (by omega) (by omega) hr.2
  omega

end Decimal

end Python
