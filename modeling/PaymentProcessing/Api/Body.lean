import PaymentProcessing.Api.Request
import PaymentProcessing.Foundations.Python.JsonText

/-!
# Request bodies

How a JSON text becomes a `CreatePaymentRequest`: `json.loads` reads it, and the fields are
converted to their types. An amount may be an `int`, a `float` or a string; a `float` is converted
through its text. What pydantic makes of a string that stands for an amount or for a URL is left
open.
-/

namespace Payments

open Python Store

/-- The conversions of strings: to a finite `Decimal`, and to an `HttpUrl`. -/
structure FieldParsers where
  decimal : Str → Option Decimal
  httpUrl : Str → Option HttpUrl

/-- The fields of `CreatePaymentRequest`. -/
def fieldNames : List Str :=
  ["amount", "currency", "description", "metadata", "webhook_url"].map Str.ofString

/-- A member of a body. -/
def member (body : Json Literal) (name : String) : Option (Json Literal) :=
  match body with
  | .obj kvs => kvs.lookup (Str.ofString name)
  | _ => none

/-- The amount a numeral stands for. -/
def numeralAmount (n : Numeral) : Option Decimal :=
  if n.isInteger then some (.ofInt n.toInt) else n.toFloat.decimal

section Fields

variable (P : FieldParsers)

/-- The conversion of `amount`. -/
def readAmount : Json Literal → Option Decimal
  | .int n => some (.ofInt n)
  | .atom (.numeral n) => numeralAmount n
  | .str s => P.decimal s
  | _ => none

/-- The conversion of `currency`. -/
def readCurrency : Json Literal → Option Currency
  | .str s => [.rub, .usd, .eur].find? fun c : Currency => c.value = s
  | _ => none

/-- The conversion of `description`. -/
def readDescription : Json Literal → Option Str
  | .str s => some s
  | _ => none

/-- The conversion of `metadata`; without it they are empty. -/
def readMetadata : (x : Option (Json Literal)) → (∀ y, x = some y → y.WellFormed) →
    Option { kvs : List (Str × Json Json.FloatToken) // (Json.obj kvs).WellFormed }
  | none, _ => some ⟨[], Json.wellFormed_empty⟩
  | some (.obj kvs), h => some ⟨Json.bindMembers Literal.load kvs, Json.wellFormed_loads (h _ rfl)⟩
  | _, _ => none

/-- The conversion of `webhook_url`. -/
def readWebhookUrl : Option (Json Literal) → Option (Option HttpUrl)
  | none | some .null => some none
  | some (.str s) => (P.httpUrl s).map some
  | _ => none

theorem wellFormed_member {body : Json Literal} (h : body.WellFormed) {name : String}
    (y : Json Literal) (hy : member body name = some y) : y.WellFormed := by
  cases body with
  | obj kvs => exact h.2.of_mem ((Json.lookup_eq_some_iff h.1).mp hy)
  | _ => exact nomatch hy

/-- The fields of a body, converted; other members are forbidden. -/
def readRequest (body : Json Literal) (h : body.WellFormed) : Option CreatePaymentRequest :=
  match body with
  | .obj kvs =>
    if kvs.all fun kv => decide (kv.1 ∈ fieldNames) then do
      let amount ← (member (.obj kvs) "amount").bind (readAmount P)
      let currency ← (member (.obj kvs) "currency").bind readCurrency
      let description ← (member (.obj kvs) "description").bind readDescription
      let metadata ← readMetadata (member (.obj kvs) "metadata") (wellFormed_member h)
      let webhookUrl ← readWebhookUrl P (member (.obj kvs) "webhook_url")
      return ⟨amount, currency, description, metadata, webhookUrl⟩
    else none
  | _ => none

end Fields

/-! ## What is read -/

/-- What the members of a body are converted to. -/
structure Reads (P : FieldParsers) (body : Json Literal) (request : CreatePaymentRequest) : Prop where
  amount : (member body "amount").bind (readAmount P) = some request.amount
  currency : (member body "currency").bind readCurrency = some request.currency
  description : (member body "description").bind readDescription = some request.description
  metadata : (member body "metadata" = none ∧ request.metadata.1 = []) ∨
    ∃ kvs, member body "metadata" = some (.obj kvs) ∧
      Json.obj request.metadata.1 = (Json.obj kvs).loads
  webhookUrl : readWebhookUrl P (member body "webhook_url") = some request.webhookUrl

theorem readMetadata_eq_some {x : Option (Json Literal)} {h : ∀ y, x = some y → y.WellFormed}
    {metadata : { kvs : List (Str × Json Json.FloatToken) // (Json.obj kvs).WellFormed }}
    (hx : readMetadata x h = some metadata) : (x = none ∧ metadata.1 = []) ∨
      ∃ kvs, x = some (.obj kvs) ∧ Json.obj metadata.1 = (Json.obj kvs).loads := by
  unfold readMetadata at hx
  split at hx
  · rw [← Option.some.inj hx]
    exact .inl ⟨rfl, rfl⟩
  · rename_i kvs _
    rw [← Option.some.inj hx]
    exact .inr ⟨kvs, rfl, rfl⟩
  · simp at hx

theorem reads_of_readRequest {P : FieldParsers} {body : Json Literal} {h : body.WellFormed}
    {request : CreatePaymentRequest} (hr : readRequest P body h = some request) :
    (∃ kvs, body = .obj kvs) ∧ Reads P body request := by
  unfold readRequest at hr
  split at hr
  · rename_i kvs h
    split at hr
    · simp only [Option.bind_eq_bind, Option.bind_eq_some_iff] at hr
      obtain ⟨amount, hamount, currency, hcurrency, description, hdescription, metadata, hmetadata,
        webhookUrl, hurl, hreq⟩ := hr
      obtain rfl := Option.some.inj hreq
      refine ⟨⟨kvs, rfl⟩, ?_, ?_, ?_, readMetadata_eq_some hmetadata, hurl⟩
      · exact Option.bind_eq_some_iff.mpr hamount
      · exact Option.bind_eq_some_iff.mpr hcurrency
      · exact Option.bind_eq_some_iff.mpr hdescription
    · simp at hr
  · simp at hr

end Payments
