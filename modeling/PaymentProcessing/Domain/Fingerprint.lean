import PaymentProcessing.Domain.Instance
import PaymentProcessing.Foundations.Python.JsonOrder

/-!
# Request fingerprints

`request_fingerprint` hashes the canonical text of a request body, to tell an honest repetition of
a request from another request under the same idempotency key. `fingerprint_eq_iff` says that it
does: two validated commands have the same fingerprint exactly when their bodies are the same,
amounts compared as numbers and objects up to the order of their keys.
-/

namespace Payments

open Python
open Json (FloatToken floatFormat)

/-- The numbers a request body holds besides integers. -/
inductive Scalar
  | float (x : FloatToken)
  | decimal (d : Decimal)

/-- `normalize_amount`; `MONEY_EXPONENT` is `-2`. -/
def normalizeAmount (amount : Decimal) : Except InvalidOperation Str :=
  (amount.quantize (-2)).map Decimal.str

mutual

/-- `_canonical`. The source sorts the members of a `dict` before it descends into them, here they
are sorted after. -/
def canonical : Json Scalar → Except InvalidOperation (Json FloatToken)
  | .null => .ok .null
  | .bool b => .ok (.bool b)
  | .int n => .ok (.int n)
  | .atom (.float x) => .ok (.atom x)
  | .atom (.decimal d) => (normalizeAmount d).map .str
  | .str s => .ok (.str s)
  | .arr xs => (canonicalItems xs).map .arr
  | .obj kvs => (canonicalMembers kvs).map fun kvs => .obj (sortMembers kvs)

/-- `_canonical` of the items of a list. -/
def canonicalItems : List (Json Scalar) → Except InvalidOperation (List (Json FloatToken))
  | [] => .ok []
  | x :: xs => do
    let x ← canonical x
    let xs ← canonicalItems xs
    return x :: xs

/-- `_canonical` of the values of a `dict`. -/
def canonicalMembers :
    List (Str × Json Scalar) → Except InvalidOperation (List (Str × Json FloatToken))
  | [] => .ok []
  | (k, x) :: kvs => do
    let x ← canonical x
    let kvs ← canonicalMembers kvs
    return (k, x) :: kvs

end

/-- `json.dumps(…, sort_keys=True, separators=(",", ":"), ensure_ascii=False)`. -/
def dumps (x : Json FloatToken) : Str := x.sortKeys.render floatFormat

/-- How a fingerprint fails. -/
inductive FingerprintError
  | invalidOperation
  | unicodeEncode (object : Str)

/-- The exception that is raised. -/
def FingerprintError.toExn : FingerprintError → Exn
  | .invalidOperation => .invalidOperation
  | .unicodeEncode object => .unicodeEncode object

/-- `request_fingerprint`. -/
def requestFingerprint (R : Runtime) (payload : Json Scalar) : Except FingerprintError Str :=
  match canonical payload with
  | .error _ => .error .invalidOperation
  | .ok canonical =>
    match (dumps canonical).encodeUtf8 with
    | some bytes => .ok (R.sha256 bytes)
    | none => .error (.unicodeEncode (dumps canonical))

mutual

/-- A JSON value as a request body holds it. -/
def ofJson : Json FloatToken → Json Scalar
  | .null => .null
  | .bool b => .bool b
  | .int n => .int n
  | .atom x => .atom (.float x)
  | .str s => .str s
  | .arr xs => .arr (ofJsonItems xs)
  | .obj kvs => .obj (ofJsonMembers kvs)

/-- `ofJson` of the items of an array. -/
def ofJsonItems : List (Json FloatToken) → List (Json Scalar)
  | [] => []
  | x :: xs => ofJson x :: ofJsonItems xs

/-- `ofJson` of the members of an object. -/
def ofJsonMembers : List (Str × Json FloatToken) → List (Str × Json Scalar)
  | [] => []
  | (k, x) :: kvs => (k, ofJson x) :: ofJsonMembers kvs

end

/-- The input of `PaymentService.create`. -/
structure CreatePaymentCommand where
  idempotencyKey : Str
  amount : Decimal
  currency : Currency
  description : Str
  metadata : List (Str × Json FloatToken)
  webhookUrl : Option Str

namespace CreatePaymentCommand

/-- The body that `CreatePaymentCommand.fingerprint` hashes. -/
def payload (c : CreatePaymentCommand) : Json Scalar :=
  .obj [(Str.ofString "amount", .atom (.decimal c.amount)),
    (Str.ofString "currency", .str c.currency.value),
    (Str.ofString "description", .str c.description),
    (Str.ofString "metadata", ofJson (.obj c.metadata)),
    (Str.ofString "webhook_url", c.webhookUrl.elim .null .str)]

/-- `CreatePaymentCommand.fingerprint`. -/
def fingerprint (R : Runtime) (c : CreatePaymentCommand) : Except FingerprintError Str :=
  requestFingerprint R c.payload

/-- What request validation leaves: a whole number of cents within the bounds of `Amount`, strings
without surrogates, and metadata that are a `dict` at every depth where they are an object. -/
structure Validated (c : CreatePaymentCommand) : Prop where
  amount : ∃ k : ℕ, 0 < k ∧ k < 10 ^ 18 ∧ c.amount.value = k * 10 ^ (-2 : ℤ)
  description : c.description.Valid
  metadata : (Json.obj c.metadata).WellFormed ∧ (Json.obj c.metadata).Encodable
  webhookUrl : ∀ url ∈ c.webhookUrl, url.Valid

/-- The same request body. -/
structure SameBody (c d : CreatePaymentCommand) : Prop where
  amount : c.amount.value = d.amount.value
  currency : c.currency = d.currency
  description : c.description = d.description
  metadata : (Json.obj c.metadata).Same (Json.obj d.metadata)
  webhookUrl : c.webhookUrl = d.webhookUrl

end CreatePaymentCommand

/-! ## Canonical texts -/

mutual

/-- On plain JSON, `_canonical` sorts the keys. -/
theorem canonical_ofJson : ∀ x : Json FloatToken, canonical (ofJson x) = .ok x.sortKeys
  | .null | .bool _ | .int _ | .atom _ | .str _ => rfl
  | .arr xs => by simp only [ofJson, canonical, canonicalItems_ofJson xs, Json.sortKeys, Except.map]
  | .obj kvs => by
    simp only [ofJson, canonical, canonicalMembers_ofJson kvs, Json.sortKeys, Except.map]

theorem canonicalItems_ofJson : ∀ xs : List (Json FloatToken),
    canonicalItems (ofJsonItems xs) = .ok (Json.sortKeysItems xs)
  | [] => rfl
  | x :: xs => by
    rw [ofJsonItems, canonicalItems, canonical_ofJson x, canonicalItems_ofJson xs]
    rfl

theorem canonicalMembers_ofJson : ∀ kvs : List (Str × Json FloatToken),
    canonicalMembers (ofJsonMembers kvs) = .ok (Json.sortKeysMembers kvs)
  | [] => rfl
  | (k, x) :: kvs => by
    rw [ofJsonMembers, canonicalMembers, canonical_ofJson x, canonicalMembers_ofJson kvs]
    rfl

end

/-- **A text stands for one JSON value**, up to the order of keys. -/
theorem dumps_eq_iff {x y : Json FloatToken} (hx : x.WellFormed) (hy : y.WellFormed) :
    dumps x = dumps y ↔ x.Same y := by
  rw [← Json.sortKeys_eq_iff hx hy]
  exact ⟨fun h => Json.render_injective floatFormat h, fun h => by rw [dumps, dumps, h]⟩

theorem dumps_sortKeys (x : Json FloatToken) : dumps x.sortKeys = dumps x := by
  rw [dumps, dumps, Json.sortKeys_sortKeys]

/-- The amount of a validated request has a canonical text. -/
theorem normalizeAmount_of_value {d : Decimal} {k : ℕ} (h0 : 0 < k) (h : k < 10 ^ 18)
    (hv : d.value = k * 10 ^ (-2 : ℤ)) : normalizeAmount d = .ok (Decimal.centsText k) := by
  have hlt : k < 10 ^ Decimal.prec := h.trans (by decide)
  rw [normalizeAmount, Decimal.quantize_of_value h0 hlt hv]
  exact congrArg _ (Decimal.str_cents k)

namespace CreatePaymentCommand

variable {c d : CreatePaymentCommand}

/-- The members of the body, with the amount in its canonical text. -/
def bodyMembers (c : CreatePaymentCommand) (k : ℕ) : List (Str × Json FloatToken) :=
  [(Str.ofString "amount", .str (Decimal.centsText k)),
    (Str.ofString "currency", .str c.currency.value),
    (Str.ofString "description", .str c.description),
    (Str.ofString "metadata", .obj c.metadata),
    (Str.ofString "webhook_url", c.webhookUrl.elim .null .str)]

/-- The body with the amount in its canonical text. -/
def body (c : CreatePaymentCommand) (k : ℕ) : Json FloatToken := .obj (c.bodyMembers k)

theorem canonical_payload {k : ℕ} (h : normalizeAmount c.amount = .ok (Decimal.centsText k)) :
    canonical c.payload = .ok (c.body k).sortKeys := by
  have hm := canonical_ofJson (.obj c.metadata)
  have hu : canonical (c.webhookUrl.elim .null .str) =
      .ok (c.webhookUrl.elim .null .str : Json FloatToken).sortKeys := by
    cases c.webhookUrl <;> rfl
  simp only [payload, canonical, canonicalMembers, h, hm, hu, Except.map]
  rfl

theorem valid_centsText (k : ℕ) : Str.Valid (Decimal.centsText k) := by
  have hnat : Str.Valid (natText (k / 100)) := fun p hp =>
    Str.valid_ofString _ p (mem_natText hp)
  exact hnat.append (Json.valid_cons_ofChar (c := '.')
    (Json.valid_cons_ofChar (Json.valid_cons_ofChar (Str.valid_ofString ""))))

theorem Validated.encodable_body (h : c.Validated) (k : ℕ) : (c.body k).Encodable := by
  have hu : (c.webhookUrl.elim .null .str : Json FloatToken).Encodable := by
    cases hw : c.webhookUrl with
    | none => trivial
    | some url => exact h.webhookUrl url hw
  have hcur : c.currency.value.Valid := by cases c.currency <;> exact Str.valid_ofString _
  exact ⟨Str.valid_ofString _, valid_centsText k, Str.valid_ofString _, hcur, Str.valid_ofString _,
    h.description, Str.valid_ofString _, h.metadata.2, Str.valid_ofString _, hu, trivial⟩

/-- The fingerprint of a validated command is the hash of a text, and never an exception. -/
theorem Validated.fingerprint_eq (h : c.Validated) (R : Runtime) {k : ℕ} (h0 : 0 < k)
    (hk : k < 10 ^ 18) (hv : c.amount.value = k * 10 ^ (-2 : ℤ)) :
    ∃ bytes, (dumps (c.body k)).encodeUtf8 = some bytes ∧ c.fingerprint R = .ok (R.sha256 bytes) := by
  have hvalid : Str.Valid (dumps (c.body k)) := Json.valid_render _ (h.encodable_body k).sortKeys
  obtain ⟨bytes, hb⟩ := Str.exists_encodeUtf8 hvalid
  refine ⟨bytes, hb, ?_⟩
  have hc := canonical_payload (normalizeAmount_of_value h0 hk hv)
  simp only [fingerprint, requestFingerprint, hc, dumps_sortKeys, hb]

/-- A validated command has a fingerprint. -/
theorem Validated.exists_fingerprint (h : c.Validated) (R : Runtime) :
    ∃ f, c.fingerprint R = .ok f := by
  obtain ⟨k, h0, hk, hv⟩ := h.amount
  obtain ⟨bytes, -, hf⟩ := h.fingerprint_eq R h0 hk hv
  exact ⟨_, hf⟩

/-- A command with surrogates in its metadata has no fingerprint. -/
theorem encodable_of_fingerprint {R : Runtime} {k : ℕ} (h0 : 0 < k) (hk : k < 10 ^ 18)
    (hv : c.amount.value = k * 10 ^ (-2 : ℤ)) {f : Str} (hf : c.fingerprint R = .ok f) :
    (Json.obj c.metadata).Encodable := by
  have hc := canonical_payload (normalizeAmount_of_value h0 hk hv)
  simp only [fingerprint, requestFingerprint, hc, dumps_sortKeys] at hf
  split at hf
  · rename_i bytes hb
    have hbody : (c.body k).Encodable :=
      (Json.encodable_of_render floatFormat (Str.valid_of_encodeUtf8 hb)).of_sortKeys
    obtain ⟨-, -, -, -, -, -, -, hmetadata, -⟩ := hbody
    exact hmetadata
  · simp at hf

theorem nodup_keys_bodyMembers (c : CreatePaymentCommand) (k : ℕ) :
    ((c.bodyMembers k).map Prod.fst).Nodup := by
  have h : (["amount", "currency", "description", "metadata", "webhook_url"].map
      Str.ofString).Nodup := List.Nodup.map Str.ofString_injective (by decide)
  exact h

theorem Validated.wellFormed_body (h : c.Validated) (k : ℕ) : (c.body k).WellFormed := by
  have hu : (c.webhookUrl.elim .null .str : Json FloatToken).WellFormed := by
    cases c.webhookUrl <;> trivial
  exact ⟨nodup_keys_bodyMembers c k, trivial, trivial, trivial, h.metadata.1, hu, trivial⟩

theorem same_urls_iff {u v : Option Str} :
    (u.elim .null .str : Json FloatToken).Same (v.elim .null .str) ↔ u = v := by
  cases u <;> cases v <;> simp [Json.Same]

theorem same_body_iff {k l : ℕ} : (c.body k).Same (d.body l) ↔
    Decimal.centsText k = Decimal.centsText l ∧ c.currency = d.currency ∧
    c.description = d.description ∧ (Json.obj c.metadata).Same (.obj d.metadata) ∧
    c.webhookUrl = d.webhookUrl := by
  have hmem : ∀ i : Fin 5, (d.bodyMembers l).get i ∈ d.bodyMembers l := fun i =>
    List.get_mem (d.bodyMembers l) i
  constructor
  · rintro ⟨kvs, he, -, ⟨x0, hx0, h0⟩, ⟨x1, hx1, h1⟩, ⟨x2, hx2, h2⟩, ⟨x3, hx3, h3⟩, ⟨x4, hx4, h4⟩, -⟩
    obtain rfl := Json.obj.inj he
    have hkey := @eq_of_mem_of_nodup_keys _ _ (nodup_keys_bodyMembers d l)
    rw [hkey hx0 (hmem 0)] at h0
    rw [hkey hx1 (hmem 1)] at h1
    rw [hkey hx2 (hmem 2)] at h2
    rw [hkey hx3 (hmem 3)] at h3
    rw [hkey hx4 (hmem 4)] at h4
    exact ⟨Json.str.inj h0, Currency.value_injective (Json.str.inj h1), Json.str.inj h2, h3,
      same_urls_iff.mp h4⟩
  · rintro ⟨h0, h1, h2, h3, h4⟩
    refine ⟨_, rfl, .refl _, ⟨_, hmem 0, ?_⟩, ⟨_, hmem 1, ?_⟩,
      ⟨_, hmem 2, ?_⟩, ⟨_, hmem 3, h3⟩,
      ⟨_, hmem 4, same_urls_iff.mpr h4⟩, trivial⟩
    · exact congrArg _ h0
    · exact congrArg (fun c : Currency => Json.str c.value) h1
    · exact congrArg _ h2

/-- **Two validated commands have fingerprints**, which an injective hash makes equal exactly when
the bodies are the same. -/
theorem Validated.exists_fingerprints {R : Runtime} (hsha : Function.Injective R.sha256)
    (hc : c.Validated) (hd : d.Validated) :
    ∃ s t, c.fingerprint R = .ok s ∧ d.fingerprint R = .ok t ∧ (s = t ↔ c.SameBody d) := by
  obtain ⟨k, hk0, hk, hck⟩ := hc.amount
  obtain ⟨l, hl0, hl, hdl⟩ := hd.amount
  obtain ⟨bc, hbc, hfc⟩ := hc.fingerprint_eq R hk0 hk hck
  obtain ⟨bd, hbd, hfd⟩ := hd.fingerprint_eq R hl0 hl hdl
  refine ⟨_, _, hfc, hfd, hsha.eq_iff.trans ?_⟩
  have htext : bc = bd ↔ dumps (c.body k) = dumps (d.body l) := by
    constructor
    · rintro rfl
      exact Str.encodeUtf8_inj hbc hbd
    · intro h
      rw [h, hbd] at hbc
      exact (Option.some.inj hbc).symm
  have hcents : Decimal.centsText k = Decimal.centsText l ↔ c.amount.value = d.amount.value := by
    rw [hck, hdl]
    constructor
    · intro h
      rw [Decimal.centsText_injective h]
    · intro h
      have : (k : ℚ) = l := mul_right_cancel₀ (by norm_num) h
      rw [Nat.cast_injective this]
  rw [htext, dumps_eq_iff (hc.wellFormed_body k) (hd.wellFormed_body l), same_body_iff, hcents]
  exact ⟨fun ⟨h0, h1, h2, h3, h4⟩ => ⟨h0, h1, h2, h3, h4⟩,
    fun ⟨h0, h1, h2, h3, h4⟩ => ⟨h0, h1, h2, h3, h4⟩⟩

end CreatePaymentCommand

/-! ## Fingerprints -/

/-- **The fingerprint identifies the request body.** With an injective hash, two validated commands
have fingerprints, which are equal exactly when the bodies are the same. The canonical text itself
stands for one JSON value up to the order of keys. -/
theorem fingerprint_eq_iff (R : Runtime) (hsha : Function.Injective R.sha256) :
    (∀ c d : CreatePaymentCommand, c.Validated → d.Validated →
      ∃ s t, c.fingerprint R = .ok s ∧ d.fingerprint R = .ok t ∧ (s = t ↔ c.SameBody d)) ∧
    ∀ x y : Json FloatToken, x.WellFormed → y.WellFormed →
      ∃ x' y', canonical (ofJson x) = .ok x' ∧ canonical (ofJson y) = .ok y' ∧
        (dumps x' = dumps y' ↔ x.Same y) := by
  refine ⟨fun c d hc hd => hc.exists_fingerprints hsha hd, fun x y hx hy => ?_⟩
  refine ⟨_, _, canonical_ofJson x, canonical_ofJson y, ?_⟩
  rw [dumps_sortKeys, dumps_sortKeys]
  exact dumps_eq_iff hx hy

/-- The fingerprint of a payment of `1.5` with two keys in its metadata. -/
theorem fingerprint_eq_of_notation : ∃ s t,
    CreatePaymentCommand.fingerprint .transparent ⟨[], ⟨false, 15, -1⟩, .rub, Str.ofString "book",
      [(Str.ofString "a", .int 1), (Str.ofString "b", .null)], none⟩ = .ok s ∧
    CreatePaymentCommand.fingerprint .transparent ⟨[], ⟨false, 150, -2⟩, .rub, Str.ofString "book",
      [(Str.ofString "b", .null), (Str.ofString "a", .int 1)], none⟩ = .ok t ∧ s = t := by
  have hkeys : Str.ofString "a" ≠ Str.ofString "b" := by decide
  obtain ⟨s, t, hs, ht, h⟩ := (fingerprint_eq_iff .transparent hexText_injective).1
    ⟨[], ⟨false, 15, -1⟩, .rub, Str.ofString "book",
      [(Str.ofString "a", .int 1), (Str.ofString "b", .null)], none⟩
    ⟨[], ⟨false, 150, -2⟩, .rub, Str.ofString "book",
      [(Str.ofString "b", .null), (Str.ofString "a", .int 1)], none⟩
    ⟨⟨150, by omega, by omega, by norm_num [Decimal.value]⟩, Str.valid_ofString _,
      ⟨by simp [Json.WellFormed, Json.WellFormedMembers, hkeys],
        by simp [Json.Encodable, Json.EncodableMembers, Str.valid_ofString]⟩, by simp⟩
    ⟨⟨150, by omega, by omega, by norm_num [Decimal.value]⟩, Str.valid_ofString _,
      ⟨by simp [Json.WellFormed, Json.WellFormedMembers, hkeys.symm],
        by simp [Json.Encodable, Json.EncodableMembers, Str.valid_ofString]⟩, by simp⟩
  refine ⟨s, t, hs, ht, h.mpr ⟨by norm_num [Decimal.value], rfl, rfl, ?_, rfl⟩⟩
  exact ⟨_, rfl, .swap _ _ _, ⟨.int 1, by simp, rfl⟩, ⟨.null, by simp, rfl⟩, trivial⟩

end Payments
