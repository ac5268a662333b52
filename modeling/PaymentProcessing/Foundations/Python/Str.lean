import Mathlib.Algebra.Order.Ring.Nat
import Mathlib.Data.List.Lex
import Mathlib.Data.String.Basic

/-!
# Python strings

A Python `str` is a sequence of code points, and a code point may be a lone surrogate, which no
text encoding accepts. `Str.encodeUtf8` is `str.encode("utf-8")`: it fails on surrogates and is
injective on the strings it encodes. Strings are ordered by code points, as Python compares them.
-/

namespace Python

/-- A code point, surrogates included. -/
abbrev CodePoint : Type := Fin 0x110000

/-- A Python string. -/
abbrev Str : Type := List CodePoint

namespace CodePoint

/-- There are code points, so that numerals denote them. -/
instance neZero : NeZero (0x110000 : ℕ) := ⟨by decide⟩

/-- The code point of a Unicode scalar value. -/
def ofChar (c : Char) : CodePoint :=
  ⟨c.val.toNat, by
    rcases c.valid with h | ⟨-, h⟩
    · exact Nat.lt_trans h (by decide)
    · exact h⟩

/-- The Unicode scalar value of a code point that is not a surrogate. -/
def toChar? (p : CodePoint) : Option Char :=
  if h : p.val.isValidChar then some (Char.ofNatAux p.val h) else none

@[simp] theorem toChar?_ofChar (c : Char) : (ofChar c).toChar? = some c := by
  have h : (ofChar c).val.isValidChar := c.valid
  rw [toChar?, dif_pos h]
  exact congrArg some (Char.ext rfl)

theorem ofChar_of_toChar? {p : CodePoint} {c : Char} (h : p.toChar? = some c) : ofChar c = p := by
  obtain ⟨hp, heq⟩ := Option.dite_none_right_eq_some.mp h
  have hc : Char.ofNatAux p.val hp = c := Option.some.inj heq
  rw [← hc]
  exact Fin.ext rfl

theorem toChar?_inj {p q : CodePoint} {c : Char} (hp : p.toChar? = some c)
    (hq : q.toChar? = some c) : p = q :=
  (ofChar_of_toChar? hp).symm.trans (ofChar_of_toChar? hq)

theorem ofChar_injective : Function.Injective ofChar := fun c d h => by
  have := congrArg toChar? h
  simpa using this

end CodePoint

/-- White space outside ASCII. -/
def wideSpaces : List ℕ :=
  [0x85, 0xA0, 0x1680, 0x2000, 0x2001, 0x2002, 0x2003, 0x2004, 0x2005, 0x2006, 0x2007, 0x2008,
    0x2009, 0x200A, 0x2028, 0x2029, 0x202F, 0x205F, 0x3000]

namespace Str

/-- The Python string with the characters of a Lean string. -/
def ofString (s : String) : Str := s.toList.map CodePoint.ofChar

theorem ofString_injective : Function.Injective ofString := fun _ _ h =>
  String.toList_injective (List.map_injective_iff.mpr CodePoint.ofChar_injective h)

/-- The scalar values of a string without surrogates. -/
def toChars? : Str → Option (List Char)
  | [] => some []
  | p :: s => match p.toChar?, toChars? s with
    | some c, some cs => some (c :: cs)
    | _, _ => none

/-- `str.encode("utf-8")`. -/
def encodeUtf8 (s : Str) : Option (List UInt8) :=
  s.toChars?.map fun cs => (String.ofList cs).toUTF8.data.toList

/-- The string has an encoding: none of its code points is a surrogate. -/
def Valid (s : Str) : Prop := ∀ p ∈ s, p.toChar?.isSome

instance : DecidablePred Valid := fun s => inferInstanceAs (Decidable (∀ p ∈ s, p.toChar?.isSome))

theorem valid_ofString (s : String) : (ofString s).Valid := by
  intro p hp
  obtain ⟨c, -, rfl⟩ := List.mem_map.mp hp
  simp

theorem Valid.append {s s' : Str} (h : s.Valid) (h' : s'.Valid) : Str.Valid (s ++ s') := by
  intro p hp
  rcases List.mem_append.mp hp with hp | hp
  · exact h p hp
  · exact h' p hp

theorem Valid.of_append {s s' : Str} (h : Str.Valid (s ++ s')) : s.Valid ∧ s'.Valid :=
  ⟨fun p hp => h p (List.mem_append_left _ hp), fun p hp => h p (List.mem_append_right _ hp)⟩

theorem Valid.of_cons {p : CodePoint} {s : Str} (h : Str.Valid (p :: s)) : s.Valid :=
  fun q hq => h q (List.mem_cons_of_mem _ hq)

theorem exists_toChars? {s : Str} (h : s.Valid) : ∃ cs, s.toChars? = some cs := by
  induction s with
  | nil => exact ⟨[], rfl⟩
  | cons p s ih =>
    obtain ⟨c, hc⟩ := Option.isSome_iff_exists.mp (h p (by simp))
    obtain ⟨cs, hcs⟩ := ih fun q hq => h q (by simp [hq])
    exact ⟨c :: cs, by simp [toChars?, hc, hcs]⟩

theorem toChars?_inj {s s' : Str} {cs : List Char} (h : s.toChars? = some cs)
    (h' : s'.toChars? = some cs) : s = s' := by
  induction s generalizing s' cs with
  | nil =>
    cases s' with
    | nil => rfl
    | cons q s' =>
      simp only [toChars?] at h h'
      split at h' <;> simp_all
  | cons p s ih =>
    cases s' with
    | nil =>
      simp only [toChars?] at h h'
      split at h <;> simp_all
    | cons q s' =>
      simp only [toChars?] at h h'
      split at h
      · split at h'
        · rename_i hp hs _ _ _ _ hq hs'
          obtain rfl := Option.some.inj h
          obtain ⟨rfl, rfl⟩ := List.cons.inj (Option.some.inj h')
          rw [CodePoint.toChar?_inj hp hq, ih hs hs']
        · simp at h'
      · simp at h

/-- Strings without surrogates can be encoded. -/
theorem exists_encodeUtf8 {s : Str} (h : s.Valid) : ∃ b, s.encodeUtf8 = some b := by
  obtain ⟨cs, hcs⟩ := exists_toChars? h
  exact ⟨_, by rw [encodeUtf8, hcs]; rfl⟩

/-- Strings with surrogates cannot be encoded. -/
theorem valid_of_encodeUtf8 {s : Str} {b : List UInt8} (h : s.encodeUtf8 = some b) : s.Valid := by
  obtain ⟨cs, hcs, -⟩ := Option.map_eq_some_iff.mp h
  clear h
  induction s generalizing cs with
  | nil => simp [Valid]
  | cons p s ih =>
    unfold toChars? at hcs
    split at hcs
    · rename_i hp hs
      intro q hq
      rcases List.mem_cons.mp hq with rfl | hq
      · rw [hp]
        rfl
      · exact ih _ hs q hq
    · simp at hcs

/-- **UTF-8 loses nothing.** -/
theorem encodeUtf8_inj {s s' : Str} {b : List UInt8} (h : s.encodeUtf8 = some b)
    (h' : s'.encodeUtf8 = some b) : s = s' := by
  obtain ⟨cs, hcs, rfl⟩ := Option.map_eq_some_iff.mp h
  obtain ⟨cs', hcs', hb⟩ := Option.map_eq_some_iff.mp h'
  have hutf : String.ofList cs' = String.ofList cs := by
    rw [← String.toByteArray_inj]
    exact ByteArray.ext (Array.toList_inj.mp hb)
  rw [String.ofList_inj] at hutf
  exact toChars?_inj hcs (hutf ▸ hcs')

/-! ## White space -/

/-- `str.isspace` of one character. -/
def isSpaceChar (p : CodePoint) : Bool :=
  p = 0x20 || (0x09 ≤ p && p ≤ 0x0D) || (0x1C ≤ p && p ≤ 0x1F) || wideSpaces.contains p.val

/-- `str.strip`. -/
def strip (s : Str) : Str := ((s.dropWhile isSpaceChar).reverse.dropWhile isSpaceChar).reverse

/-- Stripping keeps some of the characters. -/
theorem mem_of_mem_strip {s : Str} {p : CodePoint} (h : p ∈ s.strip) : p ∈ s := by
  have hinner := (List.dropWhile_suffix _).subset (List.mem_reverse.mp h)
  exact (List.dropWhile_suffix _).subset (List.mem_reverse.mp hinner)

end Str

end Python
