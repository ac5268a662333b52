import Mathlib.Data.Int.Log
import Mathlib.Data.Rat.Floor
import PaymentProcessing.Foundations.Python.Decimal
import PaymentProcessing.Foundations.Python.Json

/-!
# Python floats

`float(…)` of a numeral and `float.__repr__`. A number is read as the binary64 nearest to it
(`Double.round`), so how it was written is forgotten, up to the sign; and a float is written with
the fewest digits that are read as the same float, the closest ones if there is a choice
(`shortest`). `json.dumps` writes this text, and `decimal.Decimal(str(…))` reads it.
-/

namespace Python

open Str Json

namespace Double

/-! ## Reading -/

/-- The nearest integer to a number that is not negative, ties to the even one. -/
def halfEven (x : ℚ) : ℕ :=
  let n := x.floor.toNat
  let r := x - n
  if r < 1 / 2 ∨ (r = 1 / 2 ∧ n % 2 = 0) then n else n + 1

/-- The binary64 nearest to a number that is not negative, with a sign. -/
def round (negative : Bool) (x : ℚ) : Double :=
  let exponent := max (Int.log 2 x - 52) (-1074)
  let mantissa := halfEven (x / 2 ^ exponent)
  if 2 ^ 1024 ≤ mantissa * (2 : ℚ) ^ exponent then .infinity negative
  else .finite negative mantissa exponent

/-- The absolute value of a finite float. -/
def abs : Double → Option ℚ
  | .finite _ mantissa exponent => some (mantissa * 2 ^ exponent)
  | _ => none

/-! ## Writing -/

/-- The closest decimal to `x` with a given exponent that is read as `x`. -/
def closest (x : ℚ) (exponent : ℤ) : Option ℕ :=
  let y := x / 10 ^ exponent
  let n := y.floor.toNat
  let same (n : ℕ) : Bool := (round false (n * 10 ^ exponent)).abs = some x
  if same n ∧ (same (n + 1) → 2 * y ≤ 2 * n + 1) then some n
  else if same (n + 1) then some (n + 1)
  else none

/-- The digits of a float and the exponent of the last one: as few as are needed, and 17 at most. -/
def shortest (x : ℚ) : ℕ × ℤ :=
  let first := Int.log 10 x
  match (List.range 17).findSome? fun k => (closest x (first - k)).map fun n => (n, first - k) with
  | some (n, exponent) => if n = 10 then (1, exponent + 1) else (n, exponent)
  | none => (0, 0)

/-- The text of digits and an exponent: plain from `0.0001` up to 16 digits before the point. -/
def layout (digits : Str) (exponent : ℤ) : Str :=
  let point := digits.length + exponent
  if -4 < point ∧ point ≤ 16 then
    if point ≤ 0 then ofString "0." ++ (Decimal.zeros (-point) ++ digits)
    else if digits.length ≤ point then
      digits ++ (Decimal.zeros (point - digits.length) ++ ofString ".0")
    else digits.take point.toNat ++ (ofString "." ++ digits.drop point.toNat)
  else
    digits.take 1 ++ ((if digits.length = 1 then [] else ofString "." ++ digits.drop 1) ++
      (ofString (if point ≤ 0 then "e-" else "e+") ++
        ((if (point - 1).natAbs < 10 then ofString "0" else []) ++ natText (point - 1).natAbs)))

/-- `float.__repr__`, as `json.dumps` writes it. -/
def text : Double → Str
  | .nan => ofString "NaN"
  | .infinity negative => if negative then ofString "-Infinity" else ofString "Infinity"
  | .finite negative mantissa exponent =>
    let d := shortest (mantissa * 2 ^ exponent)
    (if negative then ofString "-" else []) ++ layout (natText d.1) d.2

/-- `decimal.Decimal(str(…))` of a finite float. -/
def decimal : Double → Option Decimal
  | .finite negative mantissa exponent =>
    let d := shortest (mantissa * 2 ^ exponent)
    if 0 ≤ d.2 ∧ (natText d.1).length + d.2 ≤ 16 then
      some ⟨negative, d.1 * 10 ^ (d.2 + 1).toNat, -1⟩
    else some ⟨negative, d.1, d.2⟩
  | _ => none

example : (round false (1 / 10)).text = ofString "0.1" := by decide +kernel

example : (round true 0).text = ofString "-0.0" := by decide +kernel

example : (round false (10 ^ 23)).text = ofString "1e+23" := by decide +kernel

example : (round false 9007199254740993).decimal = some ⟨false, 90071992547409920, -1⟩ := by
  decide +kernel

/-! ## The text of a float -/

/-- The sign bit. -/
def negative : Double → Bool
  | .nan => false
  | .infinity negative | .finite negative _ _ => negative

@[simp] theorem negative_round (b : Bool) (x : ℚ) : (round b x).negative = b := by
  unfold round
  dsimp only
  split <;> rfl

theorem sign_of_decimal {d : Double} {v : Decimal} (h : d.decimal = some v) :
    v.sign = d.negative := by
  cases d with
  | finite negative mantissa exponent =>
    unfold decimal at h
    dsimp only at h
    split at h
    · rw [← Option.some.inj h]
      rfl
    · rw [← Option.some.inj h]
      rfl
  | _ => exact nomatch h

theorem mem_digits_of_mem_zeros {n : ℤ} {p : CodePoint} (h : p ∈ Decimal.zeros n) :
    p ∈ ofString "0123456789" := by
  rw [List.eq_of_mem_replicate h]
  decide

theorem ofString_chars {s : String} (h : ∀ c ∈ s.toList, c ∈ "0123456789+-.eENIafinty".toList) :
    ∀ p ∈ ofString s, p ∈ numberChars := by
  intro p hp
  obtain ⟨c, hc, rfl⟩ := List.mem_map.mp hp
  exact List.mem_map_of_mem (h c hc)

section Layout

variable {digits : Str} {exponent : ℤ}

/-- A text has the characters of numbers only. -/
theorem layout_chars (hdigits : ∀ p ∈ digits, p ∈ ofString "0123456789") :
    ∀ p ∈ layout digits exponent, p ∈ numberChars := by
  have hdig : ∀ p ∈ digits, p ∈ numberChars := fun p hp => mem_numberChars_of_digit (hdigits p hp)
  have htake : ∀ n, ∀ p ∈ digits.take n, p ∈ numberChars := fun n p hp =>
    hdig p (List.mem_of_mem_take hp)
  have hdrop : ∀ n, ∀ p ∈ digits.drop n, p ∈ numberChars := fun n p hp =>
    hdig p (List.mem_of_mem_drop hp)
  have hzeros : ∀ n : ℤ, ∀ p ∈ Decimal.zeros n, p ∈ numberChars := fun n p hp =>
    mem_numberChars_of_digit (mem_digits_of_mem_zeros hp)
  have hnat : ∀ n : ℕ, ∀ p ∈ natText n, p ∈ numberChars := fun n p hp =>
    mem_numberChars_of_digit (mem_natText hp)
  unfold layout
  dsimp only
  split
  · split
    · simp only [List.forall_mem_append]
      exact ⟨ofString_chars (by simp), hzeros _, hdig⟩
    · split
      · simp only [List.forall_mem_append]
        exact ⟨hdig, hzeros _, ofString_chars (by simp)⟩
      · simp only [List.forall_mem_append]
        exact ⟨htake _, ofString_chars (by simp), hdrop _⟩
  · simp only [List.forall_mem_append]
    refine ⟨htake _, ?_, ?_, ?_, hnat _⟩
    · split
      · simp
      · simp only [List.forall_mem_append]
        exact ⟨ofString_chars (by simp), hdrop _⟩
    · apply ofString_chars
      split <;> simp
    · split
      · exact ofString_chars (by simp)
      · simp

/-- A text begins with a digit. -/
theorem layout_head (hdigits : ∀ p ∈ digits, p ∈ ofString "0123456789") (hne : digits ≠ [])
    (exponent : ℤ) : ∃ p s, layout digits exponent = p :: s ∧ p ∈ ofString "0123456789" := by
  obtain ⟨p, s, rfl⟩ := List.exists_cons_of_ne_nil hne
  have hp := hdigits p (by simp)
  unfold layout
  dsimp only
  split
  · split
    · exact ⟨0x30, _, rfl, by decide⟩
    · split
      · exact ⟨p, _, rfl, hp⟩
      · rename_i hpos _
        obtain ⟨n, hn⟩ : ∃ n, ((p :: s).length + exponent).toNat = n + 1 :=
          ⟨((p :: s).length + exponent).toNat - 1, by omega⟩
        rw [hn]
        exact ⟨p, _, rfl, hp⟩
  · exact ⟨p, _, rfl, hp⟩

/-- A text has a point or an exponent. -/
theorem layout_mark (digits : Str) (exponent : ℤ) :
    0x2E ∈ layout digits exponent ∨ 0x65 ∈ layout digits exponent := by
  unfold layout
  dsimp only
  split
  · left
    split
    · exact List.mem_append_left _ (by decide)
    · split
      · exact List.mem_append_right _ (List.mem_append_right _ (by decide))
      · exact List.mem_append_right _ (List.mem_append_left _ (by decide))
  · right
    refine List.mem_append_right _ (List.mem_append_right _ (List.mem_append_left _ ?_))
    split <;> decide

end Layout

theorem text_chars (d : Double) : ∀ p ∈ d.text, p ∈ numberChars := by
  cases d with
  | nan => exact ofString_chars (by simp)
  | infinity negative =>
    cases negative with
    | true => exact ofString_chars (s := "-Infinity") (by simp)
    | false => exact ofString_chars (s := "Infinity") (by simp)
  | finite negative mantissa exponent =>
    unfold text
    simp only [List.forall_mem_append]
    refine ⟨?_, layout_chars fun _ => mem_natText⟩
    cases negative with
    | true => exact ofString_chars (s := "-") (by simp)
    | false => simp

/-- **The sign of a float shows in the first character.** -/
theorem text_head (d : Double) :
    ∃ p s, d.text = p :: s ∧ p ∈ numberHeads ∧ (p = 0x2D ↔ d.negative = true) := by
  cases d with
  | nan => exact ⟨0x4E, _, rfl, by decide, by decide⟩
  | infinity negative =>
    cases negative with
    | true => exact ⟨0x2D, _, rfl, by decide, by decide⟩
    | false => exact ⟨0x49, _, rfl, by decide, by decide⟩
  | finite negative mantissa exponent =>
    cases negative with
    | true => exact ⟨0x2D, _, rfl, by decide, by simp [Double.negative]⟩
    | false =>
      obtain ⟨p, s, hlayout, hp⟩ := layout_head (fun _ => mem_natText)
        (natText_ne_nil (shortest (mantissa * 2 ^ exponent)).1) (shortest (mantissa * 2 ^ exponent)).2
      have hminus : p ≠ 0x2D := by
        rintro rfl
        exact absurd hp (by decide)
      have hheads : numberHeads = ofString "0123456789" ++ ofString "-NI" := by decide
      exact ⟨p, s, hlayout, by rw [hheads]; exact List.mem_append_left _ hp,
        by simp [negative, hminus]⟩

theorem mem_intText_cases {n : ℤ} {p : CodePoint} (h : p ∈ intText n) :
    p = 0x2D ∨ p ∈ ofString "0123456789" := by
  cases n with
  | ofNat n => exact .inr (mem_natText h)
  | negSucc n =>
    rcases List.mem_cons.mp h with rfl | h
    · exact .inl rfl
    · exact .inr (mem_natText h)

/-- A float is not written like an integer. -/
theorem text_ne_intText (d : Double) (n : ℤ) : d.text ≠ intText n := by
  have hword : ∀ p ∈ d.text, p ≠ 0x2D → p ∉ ofString "0123456789" → d.text ≠ intText n := by
    intro p hp hminus hdigit h
    rcases mem_intText_cases (h ▸ hp) with hp | hp
    · exact hminus hp
    · exact hdigit hp
  cases d with
  | nan => exact hword 0x4E (by decide) (by decide) (by decide)
  | infinity negative =>
    apply hword 0x49 _ (by decide) (by decide)
    cases negative <;> decide
  | finite negative mantissa exponent =>
    rcases layout_mark (natText (shortest (mantissa * 2 ^ exponent)).1)
      (shortest (mantissa * 2 ^ exponent)).2 with h | h
    · exact hword 0x2E (List.mem_append_right _ h) (by decide) (by decide)
    · exact hword 0x65 (List.mem_append_right _ h) (by decide) (by decide)

/-- A float in a JSON text. -/
def token (d : Double) : FloatToken where
  text := d.text
  chars := d.text_chars
  head := by
    obtain ⟨p, s, h, hp, -⟩ := d.text_head
    exact ⟨p, s, h, hp⟩
  ne_int := d.text_ne_intText

/-- Floats with one text have one sign. -/
theorem negative_eq_of_token_eq {d e : Double} (h : d.token = e.token) : d.negative = e.negative := by
  have htext : d.text = e.text := congrArg FloatToken.text h
  obtain ⟨p, s, hd, -, hp⟩ := d.text_head
  obtain ⟨q, s', he, -, hq⟩ := e.text_head
  rw [hd, he] at htext
  obtain ⟨rfl, -⟩ := List.cons.inj htext
  exact Bool.eq_iff_iff.mpr (hp.symm.trans hq)

/-! ## Comparing -/

/-- A float as a number or an infinity; `nan` is neither. -/
def extended : Double → Option (WithBot (WithTop ℚ))
  | .nan => none
  | .infinity true => some ⊥
  | .infinity false => some ⊤
  | .finite negative mantissa exponent =>
    let x : ℚ := mantissa * 2 ^ exponent
    some (if negative then ↑(↑(-x) : WithTop ℚ) else ↑(↑x : WithTop ℚ))

/-- `x < y`; `nan` is not less than anything, and nothing is less than it. -/
instance : LT Double := ⟨fun x y => ∃ a ∈ x.extended, ∃ b ∈ y.extended, a < b⟩

/-- `x <= y`. -/
instance : LE Double := ⟨fun x y => ∃ a ∈ x.extended, ∃ b ∈ y.extended, a ≤ b⟩

instance (x y : Double) : Decidable (x < y) :=
  inferInstanceAs (Decidable (∃ a ∈ x.extended, ∃ b ∈ y.extended, a < b))

instance (x y : Double) : Decidable (x ≤ y) :=
  inferInstanceAs (Decidable (∃ a ∈ x.extended, ∃ b ∈ y.extended, a ≤ b))

instance : Zero Double := ⟨.finite false 0 0⟩

instance : One Double := ⟨.finite false 1 0⟩

/-- The float is neither `nan` nor infinite. -/
def isFinite : Double → Bool
  | .finite _ _ _ => true
  | _ => false

/-- Only `nan` is no number. -/
theorem extended_eq_none_iff {x : Double} : x.extended = none ↔ x = .nan := by
  cases x with
  | nan => simp [extended]
  | infinity negative => cases negative <;> simp [extended]
  | finite negative mantissa exponent => simp [extended]

/-- What is not less is greater or equal, unless one of the two is `nan`. -/
theorem not_lt_iff {x y : Double} : ¬x < y ↔ x = .nan ∨ y = .nan ∨ y ≤ x := by
  have hlt : x < y ↔ ∃ a ∈ x.extended, ∃ b ∈ y.extended, a < b := Iff.rfl
  have hle : y ≤ x ↔ ∃ b ∈ y.extended, ∃ a ∈ x.extended, b ≤ a := Iff.rfl
  rw [hlt, hle, ← extended_eq_none_iff (x := x), ← extended_eq_none_iff (x := y)]
  cases x.extended with
  | none => simp
  | some a =>
    cases y.extended with
    | none => simp
    | some b => simp

/-- Finite numbers are in order. -/
theorem le_of_not_lt {x y : Double} (hx : x.isFinite) (hy : y.isFinite) (h : ¬x < y) : y ≤ x := by
  rcases not_lt_iff.mp h with rfl | rfl | h
  · cases hx
  · cases hy
  · exact h

end Double

end Python
