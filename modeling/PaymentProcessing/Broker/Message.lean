import PaymentProcessing.Domain.Basic

/-!
# Messages

An AMQP message as the service sees it: a body, a table of headers, and the properties it sets. A
header may hold any value the AMQP field table knows; `currentAttempt` reads the retry counter out
of whatever is there.
-/

namespace Payments

open Python

/-- A value of an AMQP field table. -/
inductive FieldValue
  | bool (b : Bool)
  | int (n : ℤ)
  | double (x : Double)
  | decimal (d : Decimal)
  | str (s : Str)
  | bytes (b : Bytes)
  | null
  | timestamp (t : Time)
  | list (xs : List FieldValue)
  | table (kvs : List (Str × FieldValue))

/-- `int(value)`. -/
def FieldValue.toInt : FieldValue → Except IntError ℤ
  | .bool b => .ok (if b then 1 else 0)
  | .int n => .ok n
  | .double x => x.toInt
  | .decimal d => .ok d.toInt
  | .str s => (intOfStr s).elim (.error .valueError) .ok
  | .bytes b => (intOfBytes b).elim (.error .valueError) .ok
  | .null | .timestamp _ | .list _ | .table _ => .error .typeError

/-- A table of headers, as the function `dict.get` of it. -/
abbrev Headers : Type := String → Option FieldValue

/-- A message. -/
structure Message where
  body : Bytes
  headers : Headers
  messageId : Option Str
  correlationId : Option Str

/-! ## Header names -/

/-- `RETRY_COUNT_HEADER`. -/
def retryCountHeader : String := "x-retry-count"

/-- `ERROR_HEADER`. -/
def errorHeader : String := "x-error"

/-- `ERROR_TYPE_HEADER`. -/
def errorTypeHeader : String := "x-error-type"

/-- `ORIGINAL_ROUTING_KEY_HEADER`. -/
def originalRoutingKeyHeader : String := "x-original-routing-key"

/-- The header in which the relay puts the type of the event. -/
def eventTypeHeader : String := "x-event-type"

/-- `_BROKER_OWNED_HEADERS`. -/
def brokerOwnedHeaders : List String :=
  ["x-death", "x-first-death-exchange", "x-first-death-queue", "x-first-death-reason",
    "x-last-death-exchange", "x-last-death-queue", "x-last-death-reason"]

/-! ## The functions on headers -/

/-- `current_attempt`. -/
def currentAttempt (headers : Headers) : Except Exn ℕ :=
  match (headers retryCountHeader).elim (.ok 0) FieldValue.toInt with
  | .ok attempt => .ok (max attempt 0).toNat
  | .error .overflowError =>
    .error (.overflow (Str.ofString "cannot convert float infinity to integer"))
  | .error _ => .ok 0

/-- `_clean_headers`. -/
def cleanHeaders (headers : Headers) : Headers := fun key =>
  if key ∈ brokerOwnedHeaders then none else headers key

/-- The headers of a message the service routes on: those of the delivery, less those the broker
owns, and the four the service sets. -/
def routedHeaders (R : Runtime) (headers : Headers) (attempt : ℕ) (error : Exn) :
    Headers := fun key =>
  if key = retryCountHeader then some (.int attempt)
  else if key = errorHeader then some (.str (errorText R error))
  else if key = errorTypeHeader then some (.str error.typeName)
  else if key = originalRoutingKeyHeader then some (.str (Str.ofString paymentsNewRoutingKey))
  else cleanHeaders headers key

/-! ## Reading the counter -/

theorem currentAttempt_of_int {headers : Headers} {n : ℕ}
    (h : headers retryCountHeader = some (.int n)) : currentAttempt headers = .ok n := by
  simp [currentAttempt, h, FieldValue.toInt]

theorem currentAttempt_of_none {headers : Headers} (h : headers retryCountHeader = none) :
    currentAttempt headers = .ok 0 := by
  simp [currentAttempt, h]

section Routed

variable (R : Runtime) (headers : Headers) (attempt : ℕ) (error : Exn)

@[simp] theorem routedHeaders_retryCount :
    routedHeaders R headers attempt error retryCountHeader = some (.int attempt) := rfl

@[simp] theorem currentAttempt_routedHeaders :
    currentAttempt (routedHeaders R headers attempt error) = .ok attempt :=
  currentAttempt_of_int rfl

/-- The type of the event travels along. -/
theorem routedHeaders_eventType :
    routedHeaders R headers attempt error eventTypeHeader = headers eventTypeHeader := rfl

/-- No header of the broker is copied from a delivery. -/
theorem routedHeaders_brokerOwned {key : String} (h : key ∈ brokerOwnedHeaders) :
    routedHeaders R headers attempt error key = none := by
  have hne : ∀ k ∈ brokerOwnedHeaders, k ≠ retryCountHeader ∧ k ≠ errorHeader ∧
      k ≠ errorTypeHeader ∧ k ≠ originalRoutingKeyHeader := by decide
  obtain ⟨h1, h2, h3, h4⟩ := hne key h
  rw [routedHeaders, if_neg h1, if_neg h2, if_neg h3, if_neg h4, cleanHeaders, if_pos h]

end Routed

end Payments
