import PaymentProcessing.Foundations.Python.Float
import PaymentProcessing.Foundations.Python.JsonOrder

/-!
# JSON texts

A JSON text has numerals where a Python value has numbers: `1`, `1.0` and `1e0` are one number,
which `json.loads` reads as an `int` in the first case and as a `float` in the others.
`Json.same_loads_iff` says when two texts that differ in the notation of their numbers, and in the
order of keys, are read as the same values: when every number has the same type in both, and zeros
have the same sign.

Objects repeat no key (`Json.WellFormed`); of a repeated key, `json.loads` keeps the last value.
-/

namespace Python

open Str

namespace Json

variable {α β : Type}

/-! ## Values up to their atoms -/

mutual

/-- Put values in the place of the atoms. -/
def bind (f : α → Json β) : Json α → Json β
  | .null => .null
  | .bool b => .bool b
  | .int n => .int n
  | .atom a => f a
  | .str s => .str s
  | .arr xs => .arr (bindItems f xs)
  | .obj kvs => .obj (bindMembers f kvs)

/-- `bind` in the items of an array. -/
def bindItems (f : α → Json β) : List (Json α) → List (Json β)
  | [] => []
  | x :: xs => x.bind f :: bindItems f xs

/-- `bind` in the values of an object. -/
def bindMembers (f : α → Json β) : List (Str × Json α) → List (Str × Json β)
  | [] => []
  | (k, x) :: kvs => (k, x.bind f) :: bindMembers f kvs

end

mutual

/-- The same value up to the order of keys, with atoms related by `R`. -/
def SameUpTo (R : α → α → Prop) : Json α → Json α → Prop
  | .atom a, y => ∃ b, y = .atom b ∧ R a b
  | .arr xs, y => ∃ ys, y = .arr ys ∧ SameItemsUpTo R xs ys
  | .obj kvs, y => ∃ kvs', y = .obj kvs' ∧ (kvs.map Prod.fst).Perm (kvs'.map Prod.fst) ∧
      SameMembersUpTo R kvs kvs'
  | x, y => x = y

/-- `SameUpTo` for the items of arrays. -/
def SameItemsUpTo (R : α → α → Prop) : List (Json α) → List (Json α) → Prop
  | [], ys => ys = []
  | x :: xs, ys => ∃ y ys', ys = y :: ys' ∧ x.SameUpTo R y ∧ SameItemsUpTo R xs ys'

/-- Every member of the first object is one of the second, up to `SameUpTo`. -/
def SameMembersUpTo (R : α → α → Prop) : List (Str × Json α) → List (Str × Json α) → Prop
  | [], _ => True
  | (k, x) :: kvs, kvs' => (∃ y, (k, y) ∈ kvs' ∧ x.SameUpTo R y) ∧ SameMembersUpTo R kvs kvs'

end

section Bind

variable {f : α → Json β} {R S : α → α → Prop}

theorem bindMembers_eq_map (kvs : List (Str × Json α)) :
    bindMembers f kvs = kvs.map fun kv => (kv.1, kv.2.bind f) := by
  induction kvs with
  | nil => rfl
  | cons kv kvs ih => rw [bindMembers, ih, List.map_cons]

theorem keys_bindMembers (kvs : List (Str × Json α)) :
    (bindMembers f kvs).map Prod.fst = kvs.map Prod.fst := by
  rw [bindMembers_eq_map, List.map_map]
  rfl

theorem mem_bindMembers_iff {kvs : List (Str × Json α)} {k : Str} {y : Json β} :
    (k, y) ∈ bindMembers f kvs ↔ ∃ x, (k, x) ∈ kvs ∧ y = x.bind f := by
  rw [bindMembers_eq_map, List.mem_map]
  constructor
  · rintro ⟨⟨k', x⟩, hx, heq⟩
    obtain ⟨rfl, rfl⟩ := Prod.mk.inj heq
    exact ⟨x, hx, rfl⟩
  · rintro ⟨x, hx, rfl⟩
    exact ⟨(k, x), hx, rfl⟩

mutual

theorem WellFormed.bind (hf : ∀ a, (f a).WellFormed) :
    ∀ {x : Json α}, x.WellFormed → (x.bind f).WellFormed
  | .null, _ | .bool _, _ | .int _, _ | .str _, _ => trivial
  | .atom a, _ => hf a
  | .arr _, h => WellFormedItems.bind hf h
  | .obj kvs, h => ⟨(keys_bindMembers (f := f) kvs).symm ▸ h.1, WellFormedMembers.bind hf h.2⟩

theorem WellFormedItems.bind (hf : ∀ a, (f a).WellFormed) :
    ∀ {xs : List (Json α)}, WellFormedItems xs → WellFormedItems (bindItems f xs)
  | [], _ => trivial
  | _ :: _, h => ⟨h.1.bind hf, WellFormedItems.bind hf h.2⟩

theorem WellFormedMembers.bind (hf : ∀ a, (f a).WellFormed) :
    ∀ {kvs : List (Str × Json α)}, WellFormedMembers kvs → WellFormedMembers (bindMembers f kvs)
  | [], _ => trivial
  | (_, _) :: _, h => ⟨h.1.bind hf, WellFormedMembers.bind hf h.2⟩

end

mutual

/-- **The same values after a replacement of atoms.** If the atoms of two values are related by `R`,
the values become the same exactly when the atoms are also related by `S`. -/
theorem same_bind_iff (hS : ∀ a b, R a b → ((f a).Same (f b) ↔ S a b)) :
    ∀ {x y : Json α}, x.SameUpTo R y → y.WellFormed → ((x.bind f).Same (y.bind f) ↔ x.SameUpTo S y)
  | .null, _, h, _ | .bool _, _, h, _ | .int _, _, h, _ | .str _, _, h, _ => by
    cases h
    exact ⟨fun _ => rfl, fun _ => rfl⟩
  | .atom a, _, h, _ => by
    obtain ⟨b, rfl, hab⟩ := h
    constructor
    · intro h
      exact ⟨b, rfl, (hS a b hab).mp h⟩
    · rintro ⟨_, ⟨⟩, h⟩
      exact (hS a b hab).mpr h
  | .arr xs, _, h, hy => by
    obtain ⟨ys, rfl, h⟩ := h
    have hitems := sameItems_bind_iff hS h hy
    constructor
    · rintro ⟨_, ⟨⟩, h⟩
      exact ⟨ys, rfl, hitems.mp h⟩
    · rintro ⟨_, ⟨⟩, h⟩
      exact ⟨bindItems f ys, rfl, hitems.mpr h⟩
  | .obj kvs, _, h, hy => by
    obtain ⟨kvs', rfl, hkeys, h⟩ := h
    have hmembers := sameMembers_bind_iff hS h hy.1 hy.2
    constructor
    · rintro ⟨_, ⟨⟩, -, h⟩
      exact ⟨kvs', rfl, hkeys, hmembers.mp h⟩
    · rintro ⟨_, ⟨⟩, -, h⟩
      refine ⟨bindMembers f kvs', rfl, ?_, hmembers.mpr h⟩
      rwa [keys_bindMembers, keys_bindMembers]

theorem sameItems_bind_iff (hS : ∀ a b, R a b → ((f a).Same (f b) ↔ S a b)) :
    ∀ {xs ys : List (Json α)}, SameItemsUpTo R xs ys → WellFormedItems ys →
      (SameItems (bindItems f xs) (bindItems f ys) ↔ SameItemsUpTo S xs ys)
  | [], _, h, _ => by
    cases h
    exact ⟨fun _ => rfl, fun _ => rfl⟩
  | x :: xs, _, h, hy => by
    obtain ⟨y, ys, rfl, hxy, h⟩ := h
    have hhead := same_bind_iff hS hxy hy.1
    have htail := sameItems_bind_iff hS h hy.2
    constructor
    · rintro ⟨_, _, heq, hx, hxs⟩
      obtain ⟨rfl, rfl⟩ := List.cons.inj heq
      exact ⟨y, ys, rfl, hhead.mp hx, htail.mp hxs⟩
    · rintro ⟨_, _, heq, hx, hxs⟩
      obtain ⟨rfl, rfl⟩ := List.cons.inj heq
      exact ⟨_, _, rfl, hhead.mpr hx, htail.mpr hxs⟩

theorem sameMembers_bind_iff (hS : ∀ a b, R a b → ((f a).Same (f b) ↔ S a b)) :
    ∀ {kvs kvs' : List (Str × Json α)}, SameMembersUpTo R kvs kvs' → (kvs'.map Prod.fst).Nodup →
      WellFormedMembers kvs' →
      (SameMembers (bindMembers f kvs) (bindMembers f kvs') ↔ SameMembersUpTo S kvs kvs')
  | [], _, _, _, _ => Iff.rfl
  | (k, x) :: kvs, kvs', h, hn, hw => by
    obtain ⟨⟨y, hy, hxy⟩, h⟩ := h
    have hhead := same_bind_iff hS hxy (hw.of_mem hy)
    have htail := sameMembers_bind_iff hS h hn hw
    -- No key is repeated, so `y` is the only value of `k`.
    constructor
    · rintro ⟨⟨_, hmem, hx⟩, hxs⟩
      obtain ⟨z, hz, rfl⟩ := mem_bindMembers_iff.mp hmem
      obtain rfl := eq_of_mem_of_nodup_keys hn hy hz
      exact ⟨⟨y, hy, hhead.mp hx⟩, htail.mp hxs⟩
    · rintro ⟨⟨z, hz, hx⟩, hxs⟩
      obtain rfl := eq_of_mem_of_nodup_keys hn hy hz
      exact ⟨⟨_, mem_bindMembers_iff.mpr ⟨y, hy, rfl⟩, hhead.mpr hx⟩, htail.mpr hxs⟩

end

end Bind

/-! ## Members -/

section Members

variable {R : α → α → Prop} {kvs kvs' : List (Str × Json α)} {k : Str}

theorem lookup_eq_some_iff {v : Json α} (hn : (kvs.map Prod.fst).Nodup) :
    kvs.lookup k = some v ↔ (k, v) ∈ kvs := by
  induction kvs with
  | nil => simp
  | cons kv kvs ih =>
    obtain ⟨k', v'⟩ := kv
    obtain ⟨hnot, hn⟩ := List.nodup_cons.mp hn
    rw [List.lookup_cons, List.mem_cons]
    by_cases hk : k = k'
    · subst hk
      have hnot : (k, v) ∉ kvs := fun h => hnot (List.mem_map.mpr ⟨(k, v), h, rfl⟩)
      simp [hnot, eq_comm]
    · have hbeq : (k == k') = false := beq_false_of_ne hk
      rw [hbeq]
      simp [hk, ih hn]

theorem lookup_eq_none_iff : kvs.lookup k = none ↔ k ∉ kvs.map Prod.fst := by
  induction kvs with
  | nil => simp
  | cons kv kvs ih =>
    obtain ⟨k', v'⟩ := kv
    rw [List.lookup_cons, List.map_cons, List.mem_cons]
    by_cases hk : k = k'
    · simp [hk]
    · have hbeq : (k == k') = false := beq_false_of_ne hk
      simp only [hbeq, ih, hk, false_or]

theorem SameMembersUpTo.of_mem (h : SameMembersUpTo R kvs kvs') {x : Json α} (hx : (k, x) ∈ kvs) :
    ∃ y, (k, y) ∈ kvs' ∧ x.SameUpTo R y := by
  induction kvs with
  | nil => simp at hx
  | cons kv kvs ih =>
    rcases List.mem_cons.mp hx with rfl | hx
    · exact h.1
    · exact ih h.2 hx

/-- A member of the first object is found in the second. -/
theorem SameUpTo.lookup (h : (Json.obj kvs).SameUpTo R (.obj kvs')) (hn : (kvs.map Prod.fst).Nodup)
    {x : Json α} (hx : kvs.lookup k = some x) : ∃ y, kvs'.lookup k = some y ∧ x.SameUpTo R y := by
  obtain ⟨_, ⟨⟩, hkeys, h⟩ := h
  obtain ⟨y, hy, hxy⟩ := h.of_mem ((lookup_eq_some_iff hn).mp hx)
  exact ⟨y, (lookup_eq_some_iff (hkeys.nodup_iff.mp hn)).mpr hy, hxy⟩

/-- A member that the first object does not have is not found in the second. -/
theorem SameUpTo.lookup_none (h : (Json.obj kvs).SameUpTo R (.obj kvs')) (hx : kvs.lookup k = none) :
    kvs'.lookup k = none := by
  obtain ⟨_, ⟨⟩, hkeys, -⟩ := h
  rw [lookup_eq_none_iff] at hx ⊢
  exact fun hk => hx (hkeys.symm.subset hk)

end Members

end Json

/-! ## Numerals -/

/-- A numeral of a JSON text. -/
structure Numeral where
  negative : Bool
  /-- The digits before the point. -/
  integer : ℕ
  /-- The digits after the point, if there is one. -/
  fraction : Option (List (Fin 10))
  exponent : Option ℤ
  /-- `json.loads` refuses longer integers. -/
  digits_le : fraction = none → exponent = none → Decimal.digits integer ≤ maxStrDigits

namespace Numeral

variable (n : Numeral)

/-- The digits after the point. -/
def decimals : List (Fin 10) := n.fraction.getD []

/-- All digits. -/
def coefficient : ℕ := n.decimals.foldl (fun c d => 10 * c + d) n.integer

/-- The absolute value. -/
def magnitude : ℚ := n.coefficient * 10 ^ (n.exponent.getD 0 - n.decimals.length)

/-- The number that is denoted. -/
def value : ℚ := if n.negative then -n.magnitude else n.magnitude

/-- Neither a point nor an exponent. -/
def isInteger : Bool := n.fraction.isNone && n.exponent.isNone

/-- The `int`. -/
def toInt : ℤ := if n.negative then -n.integer else n.integer

/-- The `float`. -/
def toFloat : Double := .round n.negative n.magnitude

/-- What `json.loads` reads: integers have the type `int`, other numbers `float`. -/
def load : Json Json.FloatToken := if n.isInteger then .int n.toInt else .atom n.toFloat.token

variable {n} {n' : Numeral}

theorem magnitude_of_isInteger (h : n.isInteger = true) : n.magnitude = n.integer := by
  obtain ⟨hfraction, hexponent⟩ := Bool.and_eq_true_iff.mp h
  rw [Option.isNone_iff_eq_none] at hfraction hexponent
  simp [magnitude, coefficient, decimals, hfraction, hexponent]

theorem value_of_isInteger (h : n.isInteger = true) : n.value = n.toInt := by
  unfold value toInt
  rw [magnitude_of_isInteger h]
  split <;> push_cast <;> rfl

/-- Numerals with one value and one sign are read as one float. -/
theorem toFloat_eq (hv : n.value = n'.value) (hs : n.negative = n'.negative) :
    n.toFloat = n'.toFloat := by
  unfold value at hv
  have hmagnitude : n.magnitude = n'.magnitude := by
    rw [hs] at hv
    split at hv
    · exact neg_injective hv
    · exact hv
  rw [toFloat, toFloat, hs, hmagnitude]

theorem wellFormed_load (n : Numeral) : n.load.WellFormed := by
  unfold load
  split <;> trivial

/-- **When a number is read as the same Python value**: if it has the same type in both notations,
and the same sign if the type is `float`. -/
theorem load_eq_iff (hv : n.value = n'.value) : n.load = n'.load ↔
    n.isInteger = n'.isInteger ∧ (n.isInteger = false → n.negative = n'.negative) := by
  unfold load
  cases h : n.isInteger <;> cases h' : n'.isInteger
  · simp only [Bool.false_eq_true, if_false, true_and, forall_const]
    constructor
    · intro hload
      simpa [toFloat] using Double.negative_eq_of_token_eq (Json.atom.inj hload)
    · intro hs
      rw [toFloat_eq hv hs]
  · simp
  · simp
  · have hint : n.toInt = n'.toInt := by
      rw [value_of_isInteger h, value_of_isInteger h'] at hv
      exact_mod_cast hv
    simp [hint]

end Numeral

/-- A number of a JSON text. -/
inductive Literal
  | numeral (n : Numeral)
  /-- `NaN`, `Infinity` or `-Infinity`, which `json.loads` reads beyond the standard. -/
  | constant (d : Double) (h : d.abs = none)

namespace Literal

/-- What `json.loads` reads. -/
def load : Literal → Json Json.FloatToken
  | .numeral n => n.load
  | .constant d _ => .atom d.token

/-- The same number. -/
def SameNumber : Literal → Literal → Prop
  | .numeral n, .numeral n' => n.value = n'.value
  | l, l' => l = l'

/-- Read with the same type; a `float` also has a sign, which tells two zeros apart. -/
def SameType : Literal → Literal → Prop
  | .numeral n, .numeral n' =>
    n.isInteger = n'.isInteger ∧ (n.isInteger = false → n.negative = n'.negative)
  | l, l' => l = l'

theorem wellFormed_load : ∀ l : Literal, l.load.WellFormed
  | .numeral n => n.wellFormed_load
  | .constant _ _ => trivial

/-- A number is the same Python value as another one only if it is equal to it. -/
theorem same_iff_load_eq (l : Literal) (x : Json Json.FloatToken) :
    l.load.Same x ↔ l.load = x := by
  cases l with
  | numeral n =>
    change n.load.Same x ↔ n.load = x
    unfold Numeral.load
    cases n.isInteger
    · exact Iff.rfl
    · exact Iff.rfl
  | constant d h => exact Iff.rfl

/-- **When a number is read as the same Python value.** -/
theorem same_load_iff {l l' : Literal} (h : l.SameNumber l') :
    l.load.Same l'.load ↔ l.SameType l' := by
  rw [same_iff_load_eq]
  cases l with
  | numeral n =>
    cases l' with
    | numeral n' => exact Numeral.load_eq_iff h
    | constant d hd => exact nomatch h
  | constant d hd =>
    obtain rfl := (show Literal.constant d hd = l' from h)
    exact ⟨fun _ => rfl, fun _ => rfl⟩

end Literal

/-- `json.loads`. -/
def Json.loads (x : Json Literal) : Json Json.FloatToken := x.bind Literal.load

theorem Json.wellFormed_loads {x : Json Literal} (h : x.WellFormed) : x.loads.WellFormed :=
  h.bind Literal.wellFormed_load

/-- **When two notations of a JSON value are read as the same value.** -/
theorem Json.same_loads_iff {x y : Json Literal} (h : x.SameUpTo Literal.SameNumber y)
    (hy : y.WellFormed) : x.loads.Same y.loads ↔ x.SameUpTo Literal.SameType y := by
  have hatoms : ∀ l l' : Literal, l.SameNumber l' → (l.load.Same l'.load ↔ l.SameType l') :=
    fun _ _ => Literal.same_load_iff
  exact same_bind_iff hatoms h hy

end Python
