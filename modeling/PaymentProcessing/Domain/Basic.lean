import PaymentProcessing.Foundations.Python.Decimal
import PaymentProcessing.Foundations.Python.Json
import PaymentProcessing.Foundations.Python.Uuid

/-!
# The payments domain

Enumerations, exceptions, the answers of the payment gateway, the rows of the two tables and the
two contracts that leave the service: the event `payment.created` and the webhook payload.

The functions of other packages that the service relies on are fields of `Runtime`.
-/

namespace Payments

open Python

/-- Encoded data. -/
abbrev Bytes : Type := List UInt8

/-- A point in time, in microseconds. -/
abbrev Time : Type := ℕ

/-! ## Enumerations -/

/-- The life cycle of a payment: `pending`, then `succeeded` or `failed`. -/
inductive PaymentStatus
  | pending
  | succeeded
  | failed
  deriving DecidableEq

namespace PaymentStatus

/-- `PaymentStatus.value`. -/
def value : PaymentStatus → Str
  | .pending => Str.ofString "pending"
  | .succeeded => Str.ofString "succeeded"
  | .failed => Str.ofString "failed"

/-- `PaymentStatus.is_final`. -/
def isFinal (s : PaymentStatus) : Bool := s ≠ .pending

end PaymentStatus

/-- The supported currencies. -/
inductive Currency
  | rub
  | usd
  | eur
  deriving DecidableEq

/-- `Currency.value`. -/
def Currency.value : Currency → Str
  | .rub => Str.ofString "RUB"
  | .usd => Str.ofString "USD"
  | .eur => Str.ofString "EUR"

theorem Currency.value_injective : Function.Injective Currency.value := by
  intro c d h
  cases c <;> cases d <;> first | rfl | exact absurd (Str.ofString_injective h) (by decide)

/-! ## Exceptions -/

/-- What `_is_idempotency_key_violation` reads of an `IntegrityError`. -/
structure IntegrityError where
  /-- `error.orig.sqlstate`. -/
  sqlstate : Option Str
  /-- `error.orig.pgcode`. -/
  pgcode : Option Str
  /-- `error.orig.__cause__.constraint_name`. -/
  constraintName : Option Str
  /-- `str(error)`. -/
  text : Str

/-- An exception of another package, or of the gateway: its class and whatever the service asks
about that class. -/
structure ForeignError where
  typeName : Str
  text : Str
  /-- It is a `PermanentError`. -/
  permanent : Bool
  /-- It is a `ConnectionError`, a `TimeoutError` or an `OSError`. -/
  connectionLike : Bool

/-- Exceptions. -/
inductive Exn
  | paymentNotFound (paymentId : UUID)
  | webhookTransient (message : Str) (statusCode : Option ℕ)
  | webhookPermanent (message : Str) (statusCode : Option ℕ)
  | idempotencyConflict (idempotencyKey : Str)
  /-- A `ValidationError`, which is a `ValueError`. -/
  | validation (text : Str)
  | value (text : Str)
  | overflow (text : Str)
  | invalidOperation
  /-- A `UnicodeEncodeError` about this string. -/
  | unicodeEncode (object : Str)
  | integrity (error : IntegrityError)
  | foreign (error : ForeignError)

namespace Exn

/-- `isinstance(error, PermanentError)`. -/
def isPermanent : Exn → Bool
  | .paymentNotFound _ => true
  | .webhookPermanent _ _ => true
  | .foreign error => error.permanent
  | _ => false

/-- `type(error).__name__`. -/
def typeName : Exn → Str
  | .paymentNotFound _ => Str.ofString "PaymentNotFoundError"
  | .webhookTransient _ _ => Str.ofString "WebhookTransientError"
  | .webhookPermanent _ _ => Str.ofString "WebhookPermanentError"
  | .idempotencyConflict _ => Str.ofString "IdempotencyConflictError"
  | .validation _ => Str.ofString "ValidationError"
  | .value _ => Str.ofString "ValueError"
  | .overflow _ => Str.ofString "OverflowError"
  | .invalidOperation => Str.ofString "InvalidOperation"
  | .unicodeEncode _ => Str.ofString "UnicodeEncodeError"
  | .integrity _ => Str.ofString "IntegrityError"
  | .foreign error => error.typeName

end Exn

/-! ## The gateway -/

/-- The answer of the gateway, with the checks of `GatewayResult.__post_init__`. -/
structure GatewayResult where
  status : PaymentStatus
  failureReason : Option Str
  isFinal : status.isFinal
  reason_iff : status = .failed ↔ failureReason.isSome

/-- The arguments of `PaymentGateway.charge`. -/
structure Charge where
  paymentId : UUID
  amount : Decimal
  currency : Currency

/-! ## Events -/

/-- `PAYMENT_CREATED`. -/
def paymentCreated : Str := Str.ofString "payment.created"

/-- `PAYMENTS_NEW_ROUTING_KEY`. -/
def paymentsNewRoutingKey : String := "payments.new"

/-- The event `payments.new`. -/
structure PaymentCreatedEvent where
  eventType : Str
  paymentId : UUID
  occurredAt : Time

/-- The body of the request to the `webhook_url` of the client. -/
structure WebhookPayload where
  event : Str
  eventId : UUID
  paymentId : UUID
  status : PaymentStatus
  amount : Decimal
  currency : Currency
  description : Str
  metadata : Json Json.FloatToken
  failureReason : Option Str
  createdAt : Time
  processedAt : Option Time

/-- `WEBHOOK_EVENT_NAMESPACE`. -/
def webhookEventNamespace : UUID := 0x6f1a2c348b5e4d2a9f601c7d5f0a3b21

/-! ## Rows -/

/-- A row of the table `payments`. -/
structure Payment where
  id : UUID
  idempotencyKey : Str
  requestFingerprint : Str
  amount : Decimal
  currency : Currency
  description : Str
  paymentMetadata : Json Json.FloatToken
  status : PaymentStatus
  failureReason : Option Str
  webhookUrl : Option Str
  webhookAttempts : ℕ
  webhookDeliveredAt : Option Time
  webhookLastError : Option Str
  createdAt : Time
  processedAt : Option Time

/-- `not payment.webhook_url` is false: there is a URL and it is not empty. -/
def Payment.wantsWebhook (p : Payment) : Bool := p.webhookUrl.any fun url => url ≠ []

/-- A row of the table `outbox_messages`. -/
structure OutboxMessage where
  id : UUID
  aggregateType : Str
  aggregateId : UUID
  eventType : Str
  routingKey : String
  payload : PaymentCreatedEvent
  createdAt : Time
  publishedAt : Option Time
  attempts : ℕ
  nextRetryAt : Time
  lastError : Option Str

/-! ## Other packages -/

/-- What the service uses of other packages and of the hash functions. -/
structure Runtime where
  /-- `hashlib.sha256(…).hexdigest()`. -/
  sha256 : Bytes → Str
  /-- `hmac.new(key, body, sha256).hexdigest()`. -/
  hmacSha256 : Bytes → Bytes → Str
  uuid5 : UUID → Str → UUID
  /-- The body the broker client makes of `PaymentCreatedEvent.model_dump(mode="json")`. -/
  encodeEvent : PaymentCreatedEvent → Bytes
  /-- `PaymentCreatedEvent.model_validate_json`, with the text of the `ValidationError`. -/
  validateEvent : Bytes → Except Str PaymentCreatedEvent
  /-- An event survives the way through the broker. -/
  validateEvent_encodeEvent : ∀ event, validateEvent (encodeEvent event) = .ok event
  /-- `WebhookPayload.model_dump_json`, encoded. -/
  dumpWebhook : WebhookPayload → Bytes
  /-- `str.__repr__`. -/
  repr : Str → Str
  /-- The text of the `UnicodeEncodeError` about a string. -/
  encodeErrorText : Str → Str

variable (R : Runtime)

/-- `webhook_event_id`. -/
def webhookEventId (paymentId : UUID) : UUID := R.uuid5 webhookEventNamespace paymentId.str

/-- `str(error)`. -/
def Exn.str : Exn → Str
  | .paymentNotFound paymentId => Str.ofString "Платёж " ++ paymentId.str ++ Str.ofString " не найден"
  | .webhookTransient message _ => message
  | .webhookPermanent message _ => message
  | .idempotencyConflict key =>
    Str.ofString "Idempotency-Key " ++ R.repr key ++ Str.ofString " уже использован с другим телом запроса"
  | .validation text => text
  | .value text => text
  | .overflow text => text
  | .invalidOperation => Str.ofString "[<class 'decimal.InvalidOperation'>]"
  | .unicodeEncode object => R.encodeErrorText object
  | .integrity error => error.text
  | .foreign error => error.text

/-- `MAX_ERROR_LENGTH`. -/
def maxErrorLength : ℕ := 500

/-- `str(error)[:MAX_ERROR_LENGTH]`. -/
def errorText (error : Exn) : Str := (error.str R).take maxErrorLength

end Payments
