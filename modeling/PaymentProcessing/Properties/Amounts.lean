import PaymentProcessing.Api.Request

/-!
# Amounts

An amount passes three places that know its bounds: the validation of the request, the canonical
text that is hashed, and the column `amount`. `amount_exact` says that they agree on every decimal,
however it is written.
-/

namespace Payments

open Python Store

variable {v w a : Decimal}

/-- The amounts that are accepted, in cents. -/
def Cents (v : Decimal) (k : ℕ) : Prop := 1 ≤ k ∧ k ≤ 10 ^ 18 - 1 ∧ v.value = k / 100

theorem maxAmount_value : maxAmount.value = (10 ^ 18 - 1 : ℕ) / 100 := by
  norm_num [maxAmount, Decimal.value]

theorem Cents.pos {k : ℕ} (h : Cents v k) : 0 < v.value := by
  obtain ⟨h1, -, hv⟩ := h
  have hk : (0 : ℚ) < k := by exact_mod_cast h1
  rw [hv]
  positivity

theorem Cents.le_maxAmount {k : ℕ} (h : Cents v k) : v.value ≤ maxAmount.value := by
  obtain ⟨-, hk, hv⟩ := h
  rw [hv, maxAmount_value]
  gcongr

theorem Cents.quantize {k : ℕ} (h : Cents v k) : v.quantize moneyExponent = .ok ⟨false, k, -2⟩ := by
  obtain ⟨h1, hk, hv⟩ := h
  have hlt : k < 10 ^ Decimal.prec := by
    have : 10 ^ 18 - 1 < 10 ^ Decimal.prec := by decide
    omega
  apply Decimal.quantize_of_value h1 hlt
  rw [hv, div_eq_mul_inv]
  norm_num [moneyExponent]

/-- The text of an amount in cents. -/
theorem Cents.normalizeAmount {k : ℕ} (h : Cents v k) :
    normalizeAmount v = .ok (Decimal.centsText k) := by
  show (v.quantize moneyExponent).map Decimal.str = _
  rw [h.quantize]
  exact congrArg _ (Decimal.str_cents k)

theorem value_cents (k : ℕ) : (⟨false, k, -2⟩ : Decimal).value = k / 100 := by
  norm_num [Decimal.value, div_eq_mul_inv]

/-- A number of cents within the bounds. -/
theorem Cents.intro {k : ℕ} (h0 : 0 < v.value) (hmax : v.value ≤ maxAmount.value)
    (hv : v.value = k / 100) : Cents v k := by
  have hk : (0 : ℚ) < k := by
    rw [hv] at h0
    linarith
  have hle : (k : ℚ) ≤ (10 ^ 18 - 1 : ℕ) := by
    rw [hv, maxAmount_value] at hmax
    exact (div_le_div_iff_of_pos_right (by norm_num)).mp hmax
  exact ⟨by exact_mod_cast hk, by exact_mod_cast hle, hv⟩

/-- Within the bounds there is a decimal to compare an amount with. -/
theorem exists_quantize_amount (h0 : 0 < v.value) (hmax : v.value ≤ maxAmount.value) :
    ∃ k, v.quantize moneyExponent = .ok ⟨false, k, -2⟩ := by
  have hlt : v.value < 10 ^ 16 := by
    rw [maxAmount_value] at hmax
    norm_num at hmax
    linarith
  exact Decimal.exists_quantize h0 hlt (n := 2) (by decide)

/-- **Which amounts are accepted.** -/
theorem validateAmount_eq_ok_iff : validateAmount v = .ok a ↔ a = v ∧ ∃ k, Cents v k := by
  unfold validateAmount
  split
  · rename_i hmax
    refine ⟨fun h => by simp at h, ?_⟩
    rintro ⟨-, k, hk⟩
    exact absurd hk.le_maxAmount hmax
  · rename_i hmax
    split
    · rename_i h0
      refine ⟨fun h => by simp at h, ?_⟩
      rintro ⟨-, k, hk⟩
      exact absurd hk.pos h0
    · rename_i h0
      obtain ⟨k, hq⟩ := exists_quantize_amount (not_not.mp h0) (not_not.mp hmax)
      simp only [noSubCentPrecision, hq, value_cents]
      split
      · rename_i hne
        refine ⟨fun h => by simp at h, ?_⟩
        rintro ⟨-, k', hk'⟩
        obtain rfl : k' = k := by simpa [hk'.quantize] using hq
        exact absurd hk'.2.2 hne
      · rename_i heq
        have hcents := Cents.intro (not_not.mp h0) (not_not.mp hmax) (not_not.mp heq)
        constructor
        · intro h
          exact ⟨(Except.ok.inj h).symm, k, hcents⟩
        · rintro ⟨rfl, -⟩
          rfl

/-- The validation of an amount raises nothing but `ValidationError`. -/
theorem validateAmount_ne_raised (v : Decimal) (error : Exn) :
    validateAmount v ≠ .error (.raised error) := by
  unfold validateAmount
  split
  · simp
  · rename_i hmax
    split
    · simp
    · rename_i h0
      obtain ⟨k, hq⟩ := exists_quantize_amount (not_not.mp h0) (not_not.mp hmax)
      simp only [noSubCentPrecision, hq]
      split <;> simp

/-- **Money is exact.** An amount is accepted when it is a whole number of cents within the bounds,
however it is written; no value within the bounds of `Amount` makes `quantize` raise; and an amount
that is accepted is stored as it is, is positive, and has the plain text of its cents, by which it
can be told from every other amount. -/
theorem amount_exact :
    (∀ v : Decimal, (∃ a, validateAmount v = .ok a) ↔
      ∃ k : ℕ, 1 ≤ k ∧ k ≤ 10 ^ 18 - 1 ∧ v.value = k / 100) ∧
    (∀ v error, validateAmount v ≠ .error (.raised error)) ∧
    (∀ v : Decimal, 0 < v.value → v.value ≤ maxAmount.value →
      (∃ q, v.quantize moneyExponent = .ok q) ∧ ∃ s, normalizeAmount v = .ok s) ∧
    (∀ v a, validateAmount v = .ok a → a = v ∧ numeric 18 2 v.value = some v.value ∧ 0 < v.value ∧
      ∃ k : ℕ, v.value = k / 100 ∧ normalizeAmount v = .ok (Decimal.centsText k)) ∧
    ∀ v w, validateAmount v = .ok v → validateAmount w = .ok w →
      (normalizeAmount v = normalizeAmount w ↔ v.value = w.value) := by
  refine ⟨fun v => ?_, validateAmount_ne_raised, fun v h0 hmax => ?_, fun v a h => ?_,
    fun v w hv hw => ?_⟩
  · constructor
    · rintro ⟨a, h⟩
      exact (validateAmount_eq_ok_iff.mp h).2
    · intro h
      exact ⟨v, validateAmount_eq_ok_iff.mpr ⟨rfl, h⟩⟩
  · obtain ⟨k, hq⟩ := exists_quantize_amount h0 hmax
    refine ⟨⟨_, hq⟩, Decimal.str ⟨false, k, -2⟩, ?_⟩
    show (v.quantize moneyExponent).map Decimal.str = _
    rw [hq]
    rfl
  · obtain ⟨rfl, k, hk⟩ := validateAmount_eq_ok_iff.mp h
    have hlt : k < 10 ^ 18 := by
      have := hk.2.1
      omega
    exact ⟨rfl, numeric_of_units hlt (by rw [hk.2.2]; norm_num), hk.pos, k, hk.2.2,
      hk.normalizeAmount⟩
  · obtain ⟨-, k, hk⟩ := validateAmount_eq_ok_iff.mp hv
    obtain ⟨-, l, hl⟩ := validateAmount_eq_ok_iff.mp hw
    rw [hk.normalizeAmount, hl.normalizeAmount, hk.2.2, hl.2.2]
    constructor
    · intro h
      rw [Decimal.centsText_injective (Except.ok.inj h)]
    · intro h
      have hkl : (k : ℚ) = l := by linarith
      rw [Nat.cast_injective hkl]

end Payments
