import PaymentProcessing.Domain.Fingerprint
import PaymentProcessing.Foundations.Store.Column

/-!
# Requests

What `POST /api/v1/payments` takes: the body as `CreatePaymentRequest` validates it, and the header
`Idempotency-Key`.
-/

namespace Payments

open Python Store

/-! ## Validation -/

/-- A `ValidationError`: the field, and the check that it did not pass. -/
inductive SchemaError
  | lessThanEqual (loc : String) (le : Decimal)
  | greaterThan (loc : String) (gt : Decimal)
  | stringUnicode (loc : String)
  | stringTooShort (loc : String) (minLength : ℕ)
  | stringTooLong (loc : String) (maxLength : ℕ)
  | valueError (loc : String) (message : Str)

/-- How a request is rejected: it is invalid, or a validator raised something else. -/
inductive Rejection
  | invalid (error : SchemaError)
  | raised (error : Exn)

/-- `MONEY_EXPONENT`. -/
def moneyExponent : ℤ := -2

/-- The largest amount. -/
def maxAmount : Decimal := ⟨false, 999999999999999999, -2⟩

/-- `CreatePaymentRequest._no_sub_cent_precision`. -/
def noSubCentPrecision (value : Decimal) : Except Rejection Decimal :=
  match value.quantize moneyExponent with
  | .error _ => .error (.raised .invalidOperation)
  | .ok quantized =>
    if value.value ≠ quantized.value then
      .error (.invalid (.valueError "amount"
        (Str.ofString "Сумма не может содержать более двух знаков после запятой")))
    else .ok value

/-- The checks of `Amount`, and the validator of the field. -/
def validateAmount (value : Decimal) : Except Rejection Decimal :=
  if ¬value.value ≤ maxAmount.value then .error (.invalid (.lessThanEqual "amount" maxAmount))
  else if ¬0 < value.value then .error (.invalid (.greaterThan "amount" ⟨false, 0, 0⟩))
  else noSubCentPrecision value

/-- The checks of `description`. -/
def validateDescription (value : Str) : Except Rejection Str :=
  if ¬value.Valid then .error (.invalid (.stringUnicode "description"))
  else if value.length < 1 then .error (.invalid (.stringTooShort "description" 1))
  else if 1024 < value.length then .error (.invalid (.stringTooLong "description" 1024))
  else .ok value

/-- `CreatePaymentRequest._metadata_must_be_json_object`. -/
def validateMetadata (value : List (Str × Json Json.FloatToken)) :
    Except Rejection (List (Str × Json Json.FloatToken)) :=
  if 50 < value.length then
    .error (.invalid (.valueError "metadata"
      (Str.ofString "Метаданные не могут содержать более 50 ключей")))
  else .ok value

/-- The text of an `HttpUrl`: printable ASCII. -/
def HttpUrl : Type := { url : Str // ∀ p ∈ url, 0x21 ≤ p ∧ p ≤ 0x7E }

/-- The fields of a request, of their types. -/
structure CreatePaymentRequest where
  amount : Decimal
  currency : Currency
  description : Str
  /-- A `dict` at every depth. -/
  metadata : { kvs : List (Str × Json Json.FloatToken) // (Json.obj kvs).WellFormed }
  webhookUrl : Option HttpUrl

namespace CreatePaymentRequest

variable (request : CreatePaymentRequest)

/-- `CreatePaymentRequest.model_validate`, up to the first error. -/
def validate : Except Rejection CreatePaymentRequest := do
  let _ ← validateAmount request.amount
  let _ ← validateDescription request.description
  let _ ← validateMetadata request.metadata.1
  return request

/-- The command that `create_payment` makes of a request. -/
def command (idempotencyKey : Str) : CreatePaymentCommand where
  idempotencyKey := idempotencyKey
  amount := request.amount
  currency := request.currency
  description := request.description
  metadata := request.metadata.1
  webhookUrl := request.webhookUrl.map Subtype.val

end CreatePaymentRequest

/-! ## The idempotency key -/

/-- The value of a header, decoded as Latin-1; HTTP has no NUL. -/
def HeaderValue : Type := { s : Str // ∀ p ∈ s, 0 < p ∧ p ≤ 0xFF }

/-- An `HTTPException`. -/
structure HttpException where
  statusCode : ℕ
  detail : Str

/-- `IDEMPOTENCY_KEY_HEADER`. -/
def idempotencyKeyHeader : Str := Str.ofString "Idempotency-Key"

/-- `MAX_IDEMPOTENCY_KEY_LENGTH`. -/
def maxIdempotencyKeyLength : ℕ := 255

/-- `get_idempotency_key`. -/
def getIdempotencyKey (header : Option Str) : Except HttpException Str :=
  let key := (header.getD []).strip
  if key = [] then
    .error ⟨400, Str.ofString "Заголовок " ++ idempotencyKeyHeader ++ Str.ofString " обязателен"⟩
  else if maxIdempotencyKeyLength < key.length then
    .error ⟨400, idempotencyKeyHeader ++ Str.ofString " длиннее " ++
      natText maxIdempotencyKeyLength ++ Str.ofString " символов"⟩
  else .ok key

/-- The key is a part of the header. -/
theorem getIdempotencyKey_eq_ok_iff {header key : Str} : getIdempotencyKey (some header) = .ok key ↔
    key = header.strip ∧ key ≠ [] ∧ key.length ≤ maxIdempotencyKeyLength := by
  unfold getIdempotencyKey
  simp only [Option.getD_some]
  split
  · rename_i hnil
    refine ⟨fun h => by simp at h, ?_⟩
    rintro ⟨rfl, hne, -⟩
    exact absurd hnil hne
  · rename_i hne
    split
    · rename_i hlong
      refine ⟨fun h => by simp at h, ?_⟩
      rintro ⟨rfl, -, hlen⟩
      exact absurd hlong (not_lt.mpr hlen)
    · rename_i hlen
      constructor
      · intro h
        obtain rfl := Except.ok.inj h
        exact ⟨rfl, hne, not_lt.mp hlen⟩
      · rintro ⟨rfl, -, -⟩
        rfl

/-- A valid key fits its column. -/
theorem varchar_of_getIdempotencyKey {header : HeaderValue} {key : Str}
    (h : getIdempotencyKey (some header.1) = .ok key) : Varchar 255 key := by
  obtain ⟨rfl, -, hlen⟩ := getIdempotencyKey_eq_ok_iff.mp h
  refine ⟨text_iff.mpr fun p hp => ?_, hlen⟩
  obtain ⟨hpos, hle⟩ := header.2 p (Str.mem_of_mem_strip hp)
  have hle : p.val ≤ 0xFF := hle
  have hvalid : p.val.isValidChar := .inl (by omega)
  refine ⟨?_, hpos.ne'⟩
  rw [CodePoint.toChar?, dif_pos hvalid]
  rfl

/-! ## What validation leaves -/

theorem HttpUrl.text (url : HttpUrl) : Text url.1 := by
  refine text_iff.mpr fun p hp => ?_
  obtain ⟨hge, hle⟩ := url.2 p hp
  have hle : p.val ≤ 0x7E := hle
  have hvalid : p.val.isValidChar := .inl (by omega)
  constructor
  · rw [CodePoint.toChar?, dif_pos hvalid]
    rfl
  · rintro rfl
    exact absurd hge (by decide)

theorem validateDescription_eq_ok_iff {s t : Str} :
    validateDescription s = .ok t ↔ t = s ∧ s.Valid ∧ 1 ≤ s.length ∧ s.length ≤ 1024 := by
  unfold validateDescription Str.Valid
  split
  · rename_i hvalid
    simp [hvalid]
  · rename_i hvalid
    split
    · rename_i hshort
      simp only [reduceCtorEq, false_iff]
      rintro ⟨-, -, hlen, -⟩
      omega
    · rename_i hshort
      split
      · rename_i hlong
        simp only [reduceCtorEq, false_iff]
        rintro ⟨-, -, -, hlen⟩
        omega
      · rename_i hlong
        rw [Except.ok.injEq]
        constructor
        · rintro rfl
          exact ⟨rfl, not_not.mp hvalid, by omega, by omega⟩
        · rintro ⟨rfl, -⟩
          rfl

/-- **Which requests are valid.** -/
theorem CreatePaymentRequest.validate_eq_ok_iff {request : CreatePaymentRequest} :
    request.validate = .ok request ↔ (∃ amount, validateAmount request.amount = .ok amount) ∧
      request.description.Valid ∧ 1 ≤ request.description.length ∧
      request.description.length ≤ 1024 ∧ request.metadata.1.length ≤ 50 := by
  unfold validate
  rcases hamount : validateAmount request.amount with e | amount
  · refine ⟨nofun, ?_⟩
    rintro ⟨⟨_, h⟩, -⟩
    exact nomatch h
  · rcases hdescription : validateDescription request.description with e | description
    · refine ⟨nofun, ?_⟩
      rintro ⟨-, hvalid, hshort, hlong, -⟩
      rw [validateDescription_eq_ok_iff.mpr ⟨rfl, hvalid, hshort, hlong⟩] at hdescription
      exact nomatch hdescription
    · obtain ⟨-, hvalid, hshort, hlong⟩ := validateDescription_eq_ok_iff.mp hdescription
      by_cases hkeys : 50 < request.metadata.1.length
      · unfold validateMetadata
        rw [if_pos hkeys]
        refine ⟨nofun, ?_⟩
        rintro ⟨-, -, -, -, h⟩
        omega
      · unfold validateMetadata
        rw [if_neg hkeys]
        exact ⟨fun _ => ⟨⟨amount, rfl⟩, hvalid, hshort, hlong, by omega⟩, fun _ => rfl⟩

end Payments
