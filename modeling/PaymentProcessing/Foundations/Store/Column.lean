import Mathlib.Data.Rat.Floor
import Mathlib.Tactic.FieldSimp
import Mathlib.Tactic.Linarith
import PaymentProcessing.Foundations.Python.Json

/-!
# Columns

The values a PostgreSQL database takes into columns of some types. A string is sent in UTF-8, and
the database has no character zero; a `varchar` is as long as declared at most. A `jsonb` is made of
such strings and of finite numbers. A `numeric` with a scale is rounded to it, and is refused if it
has more digits than declared; what has no more fraction digits than the scale is stored as it is
(`numeric_of_units`).
-/

namespace Store

open Python

/-! ## Strings -/

/-- A value of the type `text`. -/
def Text (s : Str) : Prop := s.Valid ∧ 0 ∉ s

/-- A value of the type `varchar(n)`. -/
def Varchar (n : ℕ) (s : Str) : Prop := Text s ∧ s.length ≤ n

instance : DecidablePred Text := fun s =>
  inferInstanceAs (Decidable (s.Valid ∧ 0 ∉ s))

instance (n : ℕ) : DecidablePred (Varchar n) := fun s =>
  inferInstanceAs (Decidable (Text s ∧ s.length ≤ n))

theorem text_iff {s : Str} : Text s ↔ ∀ p ∈ s, p.toChar?.isSome ∧ p ≠ 0 := by
  constructor
  · rintro ⟨hvalid, hzero⟩ p hp
    exact ⟨hvalid p hp, fun h => hzero (h ▸ hp)⟩
  · intro h
    exact ⟨fun p hp => (h p hp).1, fun hp => (h 0 hp).2 rfl⟩

/-- A part of a text is a text. -/
theorem Text.take {s : Str} (h : Text s) (n : ℕ) : Text (s.take n) := by
  rw [text_iff] at h ⊢
  intro p hp
  exact h p (List.mem_of_mem_take hp)

theorem text_ofString {s : String} (h : ∀ c ∈ s.toList, c ≠ '\x00') : Text (Str.ofString s) := by
  refine ⟨Str.valid_ofString s, fun hp => ?_⟩
  obtain ⟨c, hc, heq⟩ := List.mem_map.mp hp
  have hzero : CodePoint.ofChar c = CodePoint.ofChar '\x00' := heq
  exact h c hc (CodePoint.ofChar_injective hzero)

/-! ## JSON -/

section Jsonb

variable {α : Type} (Number : α → Prop)

mutual

/-- A value of the type `jsonb`; `Number` is the finite numbers. -/
def Jsonb : Json α → Prop
  | .null | .bool _ | .int _ => True
  | .atom a => Number a
  | .str s => Text s
  | .arr xs => JsonbItems xs
  | .obj kvs => JsonbMembers kvs

/-- `Jsonb` for the items of an array. -/
def JsonbItems : List (Json α) → Prop
  | [] => True
  | x :: xs => Jsonb x ∧ JsonbItems xs

/-- `Jsonb` for the members of an object. -/
def JsonbMembers : List (Str × Json α) → Prop
  | [] => True
  | (k, x) :: kvs => Text k ∧ Jsonb x ∧ JsonbMembers kvs

end

variable {Number}

mutual

/-- What the database takes can be encoded. -/
theorem Jsonb.encodable : ∀ {x : Json α}, Jsonb Number x → x.Encodable
  | .null, _ | .bool _, _ | .int _, _ | .atom _, _ => trivial
  | .str _, h => h.1
  | .arr _, h => JsonbItems.encodable h
  | .obj _, h => JsonbMembers.encodable h

theorem JsonbItems.encodable : ∀ {xs : List (Json α)}, JsonbItems Number xs →
    Json.EncodableItems xs
  | [], _ => trivial
  | _ :: _, h => ⟨h.1.encodable, JsonbItems.encodable h.2⟩

theorem JsonbMembers.encodable : ∀ {kvs : List (Str × Json α)}, JsonbMembers Number kvs →
    Json.EncodableMembers kvs
  | [], _ => trivial
  | (_, _) :: _, h => ⟨h.1.1, h.2.1.encodable, JsonbMembers.encodable h.2.2⟩

end

end Jsonb

/-! ## Numbers -/

/-- The nearest integer, ties away from zero. -/
def roundAway (x : ℚ) : ℤ := if 0 ≤ x then ⌊x + 1 / 2⌋ else -⌊-x + 1 / 2⌋

/-- What a column of the type `numeric(precision, scale)` stores; `none` if the number is refused.
-/
def numeric (precision scale : ℕ) (x : ℚ) : Option ℚ :=
  let units := roundAway (x * 10 ^ scale)
  if |units| < 10 ^ precision then some (units / 10 ^ scale) else none

theorem roundAway_natCast (k : ℕ) : roundAway k = k := by
  have hfloor : ⌊(k : ℚ) + 1 / 2⌋ = k := by
    rw [Int.floor_eq_iff]
    constructor
    · push_cast
      linarith
    · push_cast
      linarith
  rw [roundAway, if_pos (Nat.cast_nonneg k), hfloor]

/-- A number with a whole number of units that fits is stored as it is. -/
theorem numeric_of_units {precision scale k : ℕ} (h : k < 10 ^ precision) {x : ℚ}
    (hx : x = k / 10 ^ scale) : numeric precision scale x = some x := by
  have hunits : x * 10 ^ scale = (k : ℚ) := by
    rw [hx]
    field_simp
  have hlt : |(k : ℤ)| < 10 ^ precision := by
    rw [Nat.abs_cast]
    exact_mod_cast h
  simp only [numeric, hunits, roundAway_natCast]
  rw [if_pos hlt, hx]
  push_cast
  rfl

end Store
