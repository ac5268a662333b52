import Mathlib.Data.Nat.Notation
import PaymentProcessing.Foundations.Python.Int

/-!
# UUIDs

A UUID is 128 bits; `UUID.str` is `uuid.UUID.__str__`, thirty-two hexadecimal digits in five groups.
Different UUIDs have different texts (`UUID.str_injective`).
-/

namespace Python

open Str

/-- A UUID. -/
abbrev UUID : Type := BitVec 128

namespace UUID

/-- The hexadecimal digits from place `i` up to place `i + n`, the most significant first. -/
def hexGroup (u : UUID) (i n : ℕ) : Str :=
  (List.range n).map fun k => hexDigit (u.toNat / 16 ^ (31 - (i + k)) % 16)

/-- `uuid.UUID.__str__`. -/
def str (u : UUID) : Str :=
  u.hexGroup 0 8 ++ 0x2D :: (u.hexGroup 8 4 ++ 0x2D :: (u.hexGroup 12 4 ++ 0x2D ::
    (u.hexGroup 16 4 ++ 0x2D :: u.hexGroup 20 12)))

theorem hexDigit_inj {m n : ℕ} (hm : m < 16) (hn : n < 16) (h : hexDigit m = hexDigit n) :
    m = n := by
  have hall : ∀ m < 16, ∀ n < 16, Nat.digitChar m = Nat.digitChar n → m = n := by decide
  exact hall m hm n hn (CodePoint.ofChar_injective h)

@[simp] theorem length_hexGroup (u : UUID) (i n : ℕ) : (u.hexGroup i n).length = n := by
  simp [hexGroup]

theorem digit_of_hexGroup_eq {u v : UUID} {i n k : ℕ} (h : u.hexGroup i n = v.hexGroup i n)
    (hi : i ≤ k) (hk : k < i + n) : u.toNat / 16 ^ (31 - k) % 16 = v.toNat / 16 ^ (31 - k) % 16 := by
  have hg := (List.map_inj_left.mp h) (k - i) (List.mem_range.mpr (by omega))
  rw [Nat.add_sub_cancel' hi] at hg
  exact hexDigit_inj (Nat.mod_lt _ (by decide)) (Nat.mod_lt _ (by decide)) hg

theorem mod_eq_of_digits {m n : ℕ} {k : ℕ} (h : ∀ j < k, m / 16 ^ j % 16 = n / 16 ^ j % 16) :
    m % 16 ^ k = n % 16 ^ k := by
  induction k with
  | zero => simp [Nat.mod_one]
  | succ k ih =>
    rw [Nat.mod_pow_succ, Nat.mod_pow_succ, ih fun j hj => h j (by omega), h k (by omega)]

/-- **The text of a UUID determines it.** -/
theorem str_injective : Function.Injective str := by
  intro u v h
  unfold str at h
  obtain ⟨h0, h⟩ := List.append_inj h (by simp)
  obtain ⟨h1, h⟩ := List.append_inj (List.cons.inj h).2 (by simp)
  obtain ⟨h2, h⟩ := List.append_inj (List.cons.inj h).2 (by simp)
  obtain ⟨h3, h⟩ := List.append_inj (List.cons.inj h).2 (by simp)
  have h4 := (List.cons.inj h).2
  have hdigit : ∀ k < 32, u.toNat / 16 ^ (31 - k) % 16 = v.toNat / 16 ^ (31 - k) % 16 := by
    intro k hk
    rcases Nat.lt_or_ge k 8 with hk0 | hk0
    · exact digit_of_hexGroup_eq h0 (by omega) (by omega)
    rcases Nat.lt_or_ge k 12 with hk1 | hk1
    · exact digit_of_hexGroup_eq h1 (by omega) (by omega)
    rcases Nat.lt_or_ge k 16 with hk2 | hk2
    · exact digit_of_hexGroup_eq h2 (by omega) (by omega)
    rcases Nat.lt_or_ge k 20 with hk3 | hk3
    · exact digit_of_hexGroup_eq h3 (by omega) (by omega)
    · exact digit_of_hexGroup_eq h4 (by omega) (by omega)
  have hmod : u.toNat % 16 ^ 32 = v.toNat % 16 ^ 32 := by
    refine mod_eq_of_digits fun j hj => ?_
    have := hdigit (31 - j) (by omega)
    rwa [show 31 - (31 - j) = j by omega] at this
  have hu : u.toNat < 16 ^ 32 := u.isLt
  have hv : v.toNat < 16 ^ 32 := v.isLt
  rw [Nat.mod_eq_of_lt hu, Nat.mod_eq_of_lt hv] at hmod
  exact BitVec.eq_of_toNat_eq hmod

end UUID

end Python
