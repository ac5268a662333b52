import PaymentProcessing.Foundations.Python.Int

/-!
# JSON texts

JSON values as Python holds them after `json.loads`, and the compact text `json.dumps` writes for
them with `separators=(",", ":")` and `ensure_ascii=False`. The numbers that are not integers are
kept as atoms of a type `α` that brings its own texts (`TokenFormat`).

**The text can be read in one way only** (`render_inj`): two values followed by a delimiter, or by
nothing, with the same text are the same value. The proof follows the text from the left. The first
character tells the kind of value (`render_head`); a string ends at the first quote that is not
part of an escape (`quote_inj`), a number at the first character no number contains (`token_inj`).
-/

namespace Python

open Str

/-- A JSON value; an object is the list of its members in the order of the `dict`. -/
inductive Json (α : Type) : Type
  | null
  | bool (b : Bool)
  | int (n : ℤ)
  | atom (a : α)
  | str (s : Str)
  | arr (xs : List (Json α))
  | obj (kvs : List (Str × Json α))

namespace Json

/-! ## Strings -/

/-- A character inside a JSON string. -/
def escape (p : CodePoint) : Str :=
  if p = 0x22 then ofString "\\\""
  else if p = 0x5C then ofString "\\\\"
  else if p = 0x0A then ofString "\\n"
  else if p = 0x0D then ofString "\\r"
  else if p = 0x09 then ofString "\\t"
  else if p = 0x0C then ofString "\\f"
  else if p = 0x08 then ofString "\\b"
  else if p < 0x20 then ofString "\\u00" ++ [hexDigit (p.val / 16), hexDigit (p.val % 16)]
  else [p]

/-- A string literal. -/
def quote (s : Str) : Str := 0x22 :: (s.flatMap escape ++ [0x22])

/-- The character a two-character escape stands for, given its second character. -/
def shortEscapes : List (CodePoint × CodePoint) :=
  [(0x22, 0x22), (0x5C, 0x5C), (0x6E, 0x0A), (0x72, 0x0D), (0x74, 0x09), (0x66, 0x0C),
    (0x62, 0x08)]

/-- The control character with the given last digits of its `\u` escape. -/
def ofHex (h l : CodePoint) : Option CodePoint :=
  (List.range 32).findSome? fun n =>
    if h = hexDigit (n / 16) ∧ l = hexDigit (n % 16) then some (Fin.ofNat _ n) else none

/-- Read one character of a string literal back. -/
def unescape : Str → Option (CodePoint × Str)
  | [] => none
  | p :: s =>
    if p = 0x22 then none
    else if p = 0x5C then
      match s with
      | [] => none
      | e :: s =>
        if e = 0x75 then
          match s with
          | _ :: _ :: h :: l :: s => (ofHex h l).map fun p => (p, s)
          | _ => none
        else (shortEscapes.lookup e).map fun p => (p, s)
    else some (p, s)

theorem unescape_quote (s : Str) : unescape (0x22 :: s) = none := rfl

theorem unescape_escape_control (n : ℕ) (hn : n < 32) (s : Str) :
    unescape (escape (Fin.ofNat _ n) ++ s) = some (Fin.ofNat _ n, s) := by
  interval_cases n <;> rfl

theorem unescape_escape (p : CodePoint) (s : Str) : unescape (escape p ++ s) = some (p, s) := by
  by_cases hp : p < 0x20
  · have h := unescape_escape_control p.val hp s
    rwa [Fin.ofNat_val_eq_self] at h
  · by_cases hq : p = 0x22
    · subst hq
      rfl
    · by_cases hb : p = 0x5C
      · subst hb
        rfl
      · have he : escape p = [p] := by
          have h (q : CodePoint) (hq : q < 0x20) : p ≠ q := fun h => hp (h ▸ hq)
          rw [escape, if_neg hq, if_neg hb, if_neg (h _ (by decide)), if_neg (h _ (by decide)),
            if_neg (h _ (by decide)), if_neg (h _ (by decide)), if_neg (h _ (by decide)),
            if_neg hp]
        simp [he, unescape, hq, hb]

/-- A string literal ends where its text says. -/
theorem quote_inj {s s' u u' : Str} (h : quote s ++ u = quote s' ++ u') : s = s' ∧ u = u' := by
  have body : s.flatMap escape ++ 0x22 :: u = s'.flatMap escape ++ 0x22 :: u' := by
    simpa [quote] using h
  clear h
  induction s generalizing s' with
  | nil =>
    cases s' with
    | nil => simpa using body
    | cons q s' =>
      have := congrArg unescape body
      simp [unescape_quote, unescape_escape] at this
  | cons p s ih =>
    cases s' with
    | nil =>
      have := congrArg unescape body
      simp [unescape_quote, unescape_escape] at this
    | cons q s' =>
      have := congrArg unescape body
      simp only [List.flatMap_cons, List.append_assoc, unescape_escape, Option.some.injEq,
        Prod.mk.injEq] at this
      obtain ⟨rfl, hs⟩ := this
      obtain ⟨rfl, rfl⟩ := ih hs
      exact ⟨rfl, rfl⟩

/-! ## Numbers -/

/-- The characters that occur in numbers, `NaN` and `Infinity` included. -/
def numberChars : Str := ofString "0123456789+-.eENIafinty"

/-- The characters that begin them. -/
def numberHeads : Str := ofString "0123456789-NI"

theorem mem_numberChars_of_digit {p : CodePoint} (h : p ∈ ofString "0123456789") :
    p ∈ numberChars := by
  have hsub : numberChars = ofString "0123456789" ++ ofString "+-.eENIafinty" := by decide
  rw [hsub]
  exact List.mem_append_left _ h

theorem mem_intText {n : ℤ} {p : CodePoint} (h : p ∈ intText n) : p ∈ numberChars := by
  cases n with
  | ofNat n => exact mem_numberChars_of_digit (mem_natText h)
  | negSucc n =>
    rcases List.mem_cons.mp h with rfl | h
    · decide
    · exact mem_numberChars_of_digit (mem_natText h)

theorem intText_head (n : ℤ) : ∃ p s, intText n = p :: s ∧ p ∈ numberHeads := by
  cases n with
  | ofNat n =>
    obtain ⟨p, s, h⟩ := List.exists_cons_of_ne_nil (natText_ne_nil n)
    have hp : p ∈ natText n := by simp [h]
    have hsub : numberHeads = ofString "0123456789" ++ ofString "-NI" := by decide
    exact ⟨p, s, h, by rw [hsub]; exact List.mem_append_left _ (mem_natText hp)⟩
  | negSucc n => exact ⟨0x2D, natText (n + 1), rfl, by decide⟩

/-- A delimiter, or the end of the text. -/
def Stop (u : Str) : Prop := u = [] ∨ ∃ p v, u = p :: v ∧ p ∉ numberChars

/-- A number ends at the first character no number contains. -/
theorem token_inj {s s' u u' : Str} (hs : ∀ p ∈ s, p ∈ numberChars)
    (hs' : ∀ p ∈ s', p ∈ numberChars) (hu : Stop u) (hu' : Stop u') (h : s ++ u = s' ++ u') :
    s = s' ∧ u = u' := by
  induction s generalizing s' with
  | nil =>
    cases s' with
    | nil => exact ⟨rfl, h⟩
    | cons q s' =>
      rcases hu with rfl | ⟨p, v, rfl, hp⟩
      · simp at h
      · obtain ⟨rfl, -⟩ := List.cons.inj h
        exact absurd (hs' p (by simp)) hp
  | cons p s ih =>
    cases s' with
    | nil =>
      rcases hu' with rfl | ⟨q, v, rfl, hq⟩
      · simp at h
      · obtain ⟨rfl, -⟩ := List.cons.inj h
        exact absurd (hs p (by simp)) hq
    | cons q s' =>
      obtain ⟨rfl, ht⟩ := List.cons.inj h
      obtain ⟨rfl, rfl⟩ := ih (fun q hq => hs q (List.mem_cons_of_mem _ hq))
        (fun q hq => hs' q (List.mem_cons_of_mem _ hq)) ht
      exact ⟨rfl, rfl⟩

/-! ## Values -/

/-- The texts of the numbers that are not integers: numerals that tell the atoms apart from one
another and from the integers. -/
structure TokenFormat (α : Type) where
  text : α → Str
  injective : Function.Injective text
  chars : ∀ a, ∀ p ∈ text a, p ∈ numberChars
  head : ∀ a, ∃ p s, text a = p :: s ∧ p ∈ numberHeads
  ne_int : ∀ a n, text a ≠ intText n

variable {α : Type} (F : TokenFormat α)

mutual

/-- The text of a value. -/
def render : Json α → Str
  | .null => ofString "null"
  | .bool b => if b then ofString "true" else ofString "false"
  | .int n => intText n
  | .atom a => F.text a
  | .str s => quote s
  | .arr xs => 0x5B :: renderItems [] xs
  | .obj kvs => 0x7B :: renderMembers [] kvs

/-- The rest of an array, the next item preceded by `sep`. -/
def renderItems (sep : Str) : List (Json α) → Str
  | [] => [0x5D]
  | x :: xs => sep ++ (render x ++ renderItems [0x2C] xs)

/-- The rest of an object, the next member preceded by `sep`. -/
def renderMembers (sep : Str) : List (Str × Json α) → Str
  | [] => [0x7D]
  | (k, v) :: kvs => sep ++ (quote k ++ 0x3A :: (render v ++ renderMembers [0x2C] kvs))

end

/-- The kinds of value the first character of a text tells apart. -/
inductive Kind
  | null | bool | number | str | arr | obj | delimiter
  deriving DecidableEq

/-- The kind of a value. -/
def kind : Json α → Kind
  | .null => .null
  | .bool _ => .bool
  | .int _ => .number
  | .atom _ => .number
  | .str _ => .str
  | .arr _ => .arr
  | .obj _ => .obj

/-- The kind of value that begins with a character. -/
def headKind (p : CodePoint) : Kind :=
  if p = 0x22 then .str else if p = 0x5B then .arr else if p = 0x7B then .obj
  else if p = 0x6E then .null else if p = 0x74 ∨ p = 0x66 then .bool
  else if p ∈ numberHeads then .number else .delimiter

theorem headKind_number {p : CodePoint} (h : p ∈ numberHeads) : headKind p = .number := by
  have hall : ∀ c ∈ ['0', '1', '2', '3', '4', '5', '6', '7', '8', '9', '-', 'N', 'I'],
      headKind (CodePoint.ofChar c) = .number := by
    simp only [List.forall_mem_cons]
    exact ⟨rfl, rfl, rfl, rfl, rfl, rfl, rfl, rfl, rfl, rfl, rfl, rfl, rfl, by simp⟩
  obtain ⟨c, hc, rfl⟩ := List.mem_map.mp h
  exact hall c hc

/-- **The first character tells the kind of value.** -/
theorem render_head (x : Json α) : ∃ p s, render F x = p :: s ∧ headKind p = x.kind := by
  cases x with
  | null => exact ⟨0x6E, ofString "ull", rfl, rfl⟩
  | bool b =>
    cases b with
    | true => exact ⟨0x74, ofString "rue", rfl, rfl⟩
    | false => exact ⟨0x66, ofString "alse", rfl, rfl⟩
  | int n =>
    obtain ⟨p, s, h, hp⟩ := intText_head n
    exact ⟨p, s, h, headKind_number hp⟩
  | atom a =>
    obtain ⟨p, s, h, hp⟩ := F.head a
    exact ⟨p, s, h, headKind_number hp⟩
  | str s => exact ⟨0x22, _, rfl, rfl⟩
  | arr xs => exact ⟨0x5B, _, rfl, rfl⟩
  | obj kvs => exact ⟨0x7B, _, rfl, rfl⟩

theorem kind_eq_of_render {x y : Json α} {u v : Str} (h : render F x ++ u = render F y ++ v) :
    x.kind = y.kind := by
  obtain ⟨p, s, hx, hp⟩ := render_head F x
  obtain ⟨q, s', hy, hq⟩ := render_head F y
  rw [hx, hy, List.cons_append, List.cons_append] at h
  rw [← hp, ← hq, (List.cons.inj h).1]

theorem kind_ne_delimiter (x : Json α) : x.kind ≠ .delimiter := by
  cases x <;> simp [kind]

/-- A value does not begin with a closing bracket or a comma. -/
theorem render_ne_delimiter (x : Json α) {p : CodePoint} (hp : headKind p = .delimiter)
    (u v : Str) : render F x ++ u ≠ p :: v := by
  obtain ⟨q, s, hx, hq⟩ := render_head F x
  rw [hx, List.cons_append]
  intro h
  obtain ⟨rfl, -⟩ := List.cons.inj h
  exact kind_ne_delimiter x (hq.symm.trans hp)

theorem stop_renderItems (xs : List (Json α)) (u : Str) :
    Stop (renderItems F [0x2C] xs ++ u) := by
  cases xs with
  | nil => exact .inr ⟨0x5D, u, rfl, by decide⟩
  | cons x xs => exact .inr ⟨0x2C, _, rfl, by decide⟩

theorem stop_renderMembers (kvs : List (Str × Json α)) (u : Str) :
    Stop (renderMembers F [0x2C] kvs ++ u) := by
  cases kvs with
  | nil => exact .inr ⟨0x7D, u, rfl, by decide⟩
  | cons kv kvs => exact .inr ⟨0x2C, _, rfl, by decide⟩

/-! ## Reading a text back -/

theorem eq_null_of_kind {y : Json α} (h : y.kind = .null) : y = .null := by
  cases y <;> simp_all [kind]

theorem exists_bool_of_kind {y : Json α} (h : y.kind = .bool) : ∃ b, y = .bool b := by
  cases y <;> simp_all [kind]

theorem exists_number_of_kind {y : Json α} (h : y.kind = .number) :
    (∃ n, y = .int n) ∨ ∃ a, y = .atom a := by
  cases y <;> simp_all [kind]

theorem exists_str_of_kind {y : Json α} (h : y.kind = .str) : ∃ s, y = .str s := by
  cases y <;> simp_all [kind]

theorem exists_arr_of_kind {y : Json α} (h : y.kind = .arr) : ∃ xs, y = .arr xs := by
  cases y <;> simp_all [kind]

theorem exists_obj_of_kind {y : Json α} (h : y.kind = .obj) : ∃ kvs, y = .obj kvs := by
  cases y <;> simp_all [kind]

/-- The separator before the next item or member: none before the first, then a comma. -/
def Separator (sep : Str) : Prop := sep = [] ∨ sep = [0x2C]

/-- A list of items does not end where it goes on. -/
theorem renderItems_cons_ne {sep : Str} (hsep : Separator sep) (x : Json α) (xs : List (Json α))
    (u v : Str) : renderItems F sep (x :: xs) ++ u ≠ 0x5D :: v := by
  rcases hsep with rfl | rfl
  · simpa [renderItems] using
      render_ne_delimiter F x (p := 0x5D) (by decide) (renderItems F [0x2C] xs ++ u) v
  · intro h
    exact absurd (List.cons.inj h).1 (by decide)

/-- A list of members does not end where it goes on. -/
theorem renderMembers_cons_ne {sep : Str} (hsep : Separator sep) (kv : Str × Json α)
    (kvs : List (Str × Json α)) (u v : Str) :
    renderMembers F sep (kv :: kvs) ++ u ≠ 0x7D :: v := by
  intro h
  rcases hsep with rfl | rfl <;> exact absurd (List.cons.inj h).1 (by decide)

mutual

/-- **The text of a value can be read in one way only.** -/
theorem render_inj : ∀ {x y : Json α} {u v : Str}, Stop u → Stop v →
    render F x ++ u = render F y ++ v → x = y ∧ u = v
  | .null, y, u, v, _, _, h => by
    obtain rfl := eq_null_of_kind (kind_eq_of_render F h).symm
    exact ⟨rfl, List.append_cancel_left h⟩
  | .bool b, y, u, v, _, _, h => by
    obtain ⟨c, rfl⟩ := exists_bool_of_kind (kind_eq_of_render F h).symm
    cases b <;> cases c
    · exact ⟨rfl, List.append_cancel_left h⟩
    · exact absurd (List.cons.inj h).1 (by decide)
    · exact absurd (List.cons.inj h).1 (by decide)
    · exact ⟨rfl, List.append_cancel_left h⟩
  | .int n, y, u, v, hu, hv, h => by
    rcases exists_number_of_kind (kind_eq_of_render F h).symm with ⟨m, rfl⟩ | ⟨a, rfl⟩
    · obtain ⟨ht, rfl⟩ := token_inj (fun _ => mem_intText) (fun _ => mem_intText) hu hv h
      exact ⟨by rw [intText_injective ht], rfl⟩
    · obtain ⟨ht, -⟩ := token_inj (fun _ => mem_intText) (F.chars a) hu hv h
      exact absurd ht.symm (F.ne_int a n)
  | .atom a, y, u, v, hu, hv, h => by
    rcases exists_number_of_kind (kind_eq_of_render F h).symm with ⟨n, rfl⟩ | ⟨b, rfl⟩
    · obtain ⟨ht, -⟩ := token_inj (F.chars a) (fun _ => mem_intText) hu hv h
      exact absurd ht (F.ne_int a n)
    · obtain ⟨ht, rfl⟩ := token_inj (F.chars a) (F.chars b) hu hv h
      exact ⟨by rw [F.injective ht], rfl⟩
  | .str s, y, u, v, _, _, h => by
    obtain ⟨t, rfl⟩ := exists_str_of_kind (kind_eq_of_render F h).symm
    obtain ⟨rfl, rfl⟩ := quote_inj h
    exact ⟨rfl, rfl⟩
  | .arr xs, y, u, v, _, _, h => by
    obtain ⟨ys, rfl⟩ := exists_arr_of_kind (kind_eq_of_render F h).symm
    obtain ⟨rfl, rfl⟩ := renderItems_inj (.inl rfl) (List.cons.inj h).2
    exact ⟨rfl, rfl⟩
  | .obj kvs, y, u, v, _, _, h => by
    obtain ⟨kvs', rfl⟩ := exists_obj_of_kind (kind_eq_of_render F h).symm
    obtain ⟨rfl, rfl⟩ := renderMembers_inj (.inl rfl) (List.cons.inj h).2
    exact ⟨rfl, rfl⟩

theorem renderItems_inj : ∀ {xs ys : List (Json α)} {sep u v : Str}, Separator sep →
    renderItems F sep xs ++ u = renderItems F sep ys ++ v → xs = ys ∧ u = v
  | [], [], _, u, v, _, h => ⟨rfl, (List.cons.inj h).2⟩
  | [], y :: ys, _, u, v, hsep, h => absurd h.symm (renderItems_cons_ne F hsep y ys v u)
  | x :: xs, [], _, u, v, hsep, h => absurd h (renderItems_cons_ne F hsep x xs u v)
  | x :: xs, y :: ys, sep, u, v, _, h => by
    simp only [renderItems, List.append_assoc] at h
    obtain ⟨rfl, ht⟩ := render_inj (stop_renderItems F xs u) (stop_renderItems F ys v)
      (List.append_cancel_left h)
    obtain ⟨rfl, rfl⟩ := renderItems_inj (.inr rfl) ht
    exact ⟨rfl, rfl⟩

theorem renderMembers_inj : ∀ {kvs kvs' : List (Str × Json α)} {sep u v : Str}, Separator sep →
    renderMembers F sep kvs ++ u = renderMembers F sep kvs' ++ v → kvs = kvs' ∧ u = v
  | [], [], _, u, v, _, h => ⟨rfl, (List.cons.inj h).2⟩
  | [], kv :: kvs, _, u, v, hsep, h => absurd h.symm (renderMembers_cons_ne F hsep kv kvs v u)
  | kv :: kvs, [], _, u, v, hsep, h => absurd h (renderMembers_cons_ne F hsep kv kvs u v)
  | (k, x) :: kvs, (k', x') :: kvs', sep, u, v, _, h => by
    simp only [renderMembers, List.append_assoc, List.cons_append] at h
    obtain ⟨rfl, hx⟩ := quote_inj (List.append_cancel_left h)
    obtain ⟨rfl, ht⟩ := render_inj (stop_renderMembers F kvs u) (stop_renderMembers F kvs' v)
      (List.cons.inj hx).2
    obtain ⟨rfl, rfl⟩ := renderMembers_inj (.inr rfl) ht
    exact ⟨rfl, rfl⟩

end

/-- **A JSON text determines the value.** -/
theorem render_injective : Function.Injective (render F) := fun x y h => by
  have happ : render F x ++ [] = render F y ++ [] := by rw [h]
  exact (render_inj F (.inl rfl) (.inl rfl) happ).1

/-! ## Encoding a text -/

mutual

/-- No string in the value has a surrogate. -/
def Encodable : Json α → Prop
  | .str s => s.Valid
  | .arr xs => EncodableItems xs
  | .obj kvs => EncodableMembers kvs
  | _ => True

/-- `Encodable` for the items of an array. -/
def EncodableItems : List (Json α) → Prop
  | [] => True
  | x :: xs => x.Encodable ∧ EncodableItems xs

/-- `Encodable` for the members of an object. -/
def EncodableMembers : List (Str × Json α) → Prop
  | [] => True
  | (k, x) :: kvs => k.Valid ∧ x.Encodable ∧ EncodableMembers kvs

end

theorem encodableMembers_iff {kvs : List (Str × Json α)} :
    EncodableMembers kvs ↔ ∀ kv ∈ kvs, kv.1.Valid ∧ kv.2.Encodable := by
  induction kvs with
  | nil => simp [EncodableMembers]
  | cons kv kvs ih => simp [EncodableMembers, ih, and_assoc]

theorem valid_escape {p : CodePoint} (h : p.toChar?.isSome) : Str.Valid (escape p) := by
  have hhex : ∀ n, (hexDigit n).toChar?.isSome := fun n => by simp [hexDigit]
  unfold escape
  repeat' split
  all_goals first
    | exact valid_ofString _
    | exact (valid_ofString _).append (by simp [Str.Valid, hhex])
    | simpa [Str.Valid] using h

theorem valid_cons_ofChar {c : Char} {s : Str} (h : s.Valid) :
    Str.Valid (CodePoint.ofChar c :: s) := by
  rintro p (_ | ⟨_, hp⟩)
  · simp
  · exact h p hp

theorem valid_quote {s : Str} (h : s.Valid) : Str.Valid (quote s) := by
  refine valid_cons_ofChar (c := '"') (Valid.append (fun p hp => ?_) (valid_ofString "\""))
  obtain ⟨q, hq, hp⟩ := List.mem_flatMap.mp hp
  exact valid_escape (h q hq) p hp

theorem valid_of_numberChars {s : Str} (h : ∀ p ∈ s, p ∈ numberChars) : s.Valid := fun p hp =>
  valid_ofString _ p (h p hp)

mutual

/-- The text of a value whose strings can be encoded can be encoded. -/
theorem valid_render : ∀ {x : Json α}, x.Encodable → Str.Valid (render F x)
  | .null, _ => valid_ofString "null"
  | .bool true, _ => valid_ofString "true"
  | .bool false, _ => valid_ofString "false"
  | .int _, _ => valid_of_numberChars fun _ => mem_intText
  | .atom a, _ => valid_of_numberChars (F.chars a)
  | .str _, h => valid_quote h
  | .arr _, h => valid_cons_ofChar (c := '[') (valid_renderItems h (valid_ofString ""))
  | .obj _, h => valid_cons_ofChar (c := '\x7b') (valid_renderMembers h (valid_ofString ""))

theorem valid_renderItems : ∀ {xs : List (Json α)} {sep : Str}, EncodableItems xs → sep.Valid →
    Str.Valid (renderItems F sep xs)
  | [], _, _, _ => valid_ofString "]"
  | _ :: _, _, h, hsep =>
    hsep.append ((valid_render h.1).append (valid_renderItems h.2 (valid_ofString ",")))

theorem valid_renderMembers : ∀ {kvs : List (Str × Json α)} {sep : Str}, EncodableMembers kvs →
    sep.Valid → Str.Valid (renderMembers F sep kvs)
  | [], _, _, _ => valid_ofString "\x7d"
  | (_, _) :: _, _, h, hsep =>
    hsep.append ((valid_quote h.1).append (valid_cons_ofChar (c := ':')
      ((valid_render h.2.1).append (valid_renderMembers h.2.2 (valid_ofString ",")))))

end

theorem valid_of_escape {p : CodePoint} (h : Str.Valid (escape p)) : p.toChar?.isSome := by
  by_cases hp : p.val < 0x20
  · have hvalid : p.val.isValidChar := .inl (by omega)
    rw [CodePoint.toChar?, dif_pos hvalid]
    rfl
  · unfold escape at h
    repeat' split at h
    all_goals first
      | (subst_vars; decide)
      | exact absurd (Fin.lt_def.mp ‹_›) hp
      | exact h p (by simp)

theorem valid_of_quote {s : Str} (h : Str.Valid (quote s)) : s.Valid := by
  intro p hp
  apply valid_of_escape
  intro q hq
  have hmem : q ∈ s.flatMap escape := List.mem_flatMap.mpr ⟨p, hp, hq⟩
  exact h q (List.mem_cons_of_mem _ (List.mem_append_left _ hmem))

mutual

/-- A value whose text can be encoded has strings that can be encoded. -/
theorem encodable_of_render : ∀ {x : Json α}, Str.Valid (render F x) → x.Encodable
  | .null, _ | .bool _, _ | .int _, _ | .atom _, _ => trivial
  | .str _, h => valid_of_quote h
  | .arr _, h => encodableItems_of_render h.of_cons
  | .obj _, h => encodableMembers_of_render h.of_cons

theorem encodableItems_of_render : ∀ {xs : List (Json α)} {sep : Str},
    Str.Valid (renderItems F sep xs) → EncodableItems xs
  | [], _, _ => trivial
  | _ :: _, _, h => by
    obtain ⟨hx, hxs⟩ := h.of_append.2.of_append
    exact ⟨encodable_of_render hx, encodableItems_of_render hxs⟩

theorem encodableMembers_of_render : ∀ {kvs : List (Str × Json α)} {sep : Str},
    Str.Valid (renderMembers F sep kvs) → EncodableMembers kvs
  | [], _, _ => trivial
  | (_, _) :: _, _, h => by
    obtain ⟨hk, hrest⟩ := h.of_append.2.of_append
    obtain ⟨hx, hkvs⟩ := hrest.of_cons.of_append
    exact ⟨valid_of_quote hk, encodable_of_render hx, encodableMembers_of_render hkvs⟩

end

/-! ## Floats -/

/-- A `float`, as the token `float.__repr__` writes for it: a numeral no integer has. -/
structure FloatToken where
  text : Str
  chars : ∀ p ∈ text, p ∈ numberChars
  head : ∃ p s, text = p :: s ∧ p ∈ numberHeads
  ne_int : ∀ n, text ≠ intText n

/-- The texts of floats. -/
def floatFormat : TokenFormat FloatToken where
  text := FloatToken.text
  injective a b h := by
    cases a
    cases b
    cases h
    rfl
  chars := FloatToken.chars
  head := FloatToken.head
  ne_int := FloatToken.ne_int

end Json

end Python
