import Mathlib.Data.List.Infix
import PaymentProcessing.Domain.Fingerprint
import PaymentProcessing.System.Operations

/-!
# Accepting payments

`PaymentService.create`: a payment and its event `payment.created` are written by one transaction,
and a repeated request gets the payment that exists already, or a conflict.
-/

namespace Payments

open Effects Python

/-- `UNIQUE_VIOLATION`. -/
def uniqueViolation : Str := Str.ofString "23505"

/-- `str.lower`, as far as a search for a word of ASCII letters can tell: beside the ASCII capitals,
the Kelvin sign is the one character that becomes an ASCII letter and nothing else. -/
def lower (s : Str) : Str := s.map fun p =>
  if 0x41 ≤ p ∧ p ≤ 0x5A then p + 0x20 else if p = 0x212A then 0x6B else p

/-- `word in text`. -/
def contains (text word : Str) : Bool := decide (word <:+: text)

/-- `_is_idempotency_key_violation`. -/
def isIdempotencyKeyViolation (error : IntegrityError) : Bool :=
  let sqlstate := match error.sqlstate with
    | some (c :: s) => some (c :: s)
    | _ => error.pgcode
  if sqlstate ≠ some uniqueViolation then false
  else match error.constraintName with
    | some constraint => contains constraint (Str.ofString "idempotency_key")
    | none => contains (lower error.text) (Str.ofString "idempotency_key")

/-- `CreatePaymentResult`. -/
structure CreatePaymentResult where
  payment : Payment
  replayed : Bool

/-- `AGGREGATE_TYPE`. -/
def aggregateType : Str := Str.ofString "payment"

/-- `PaymentService._replay`. -/
def replay (payment : Payment) (fingerprint idempotencyKey : Str) : Except Exn CreatePaymentResult :=
  if payment.requestFingerprint ≠ fingerprint then .error (.idempotencyConflict idempotencyKey)
  else .ok ⟨payment, true⟩

/-- The payment that `PaymentService.create` adds to the session. -/
def newPayment (command : CreatePaymentCommand) (fingerprint : Str) (id : UUID) : NewPayment where
  id := id
  idempotencyKey := command.idempotencyKey
  requestFingerprint := fingerprint
  amount := command.amount
  currency := command.currency
  description := command.description
  paymentMetadata := .obj command.metadata
  status := .pending
  webhookUrl := command.webhookUrl

/-- The event that it adds with the payment. -/
def newOutboxMessage (id paymentId : UUID) (createdAt : Time) : NewOutboxMessage where
  id := id
  aggregateType := aggregateType
  aggregateId := paymentId
  eventType := paymentCreated
  routingKey := paymentsNewRoutingKey
  payload := ⟨paymentCreated, paymentId, createdAt⟩

/-- The `except IntegrityError` of `PaymentService.create`. -/
def recover (command : CreatePaymentCommand) (fingerprint : Str) (error : Exn) :
    Act CreatePaymentResult :=
  match error with
  | .integrity integrityError => do
    rollback
    if isIdempotencyKeyViolation integrityError then
      match ← selectByIdempotencyKey command.idempotencyKey with
      | none => throw error
      | some winner => Action.ofExcept (replay winner fingerprint command.idempotencyKey)
    else throw error
  | _ => throw error

/-- `PaymentService.create`. -/
def create (R : Runtime) (command : CreatePaymentCommand) : Act CreatePaymentResult := do
  let fingerprint ← Action.ofExcept ((command.fingerprint R).mapError FingerprintError.toExn)
  match ← selectByIdempotencyKey command.idempotencyKey with
  | some existing => Action.ofExcept (replay existing fingerprint command.idempotencyKey)
  | none =>
    let id ← uuid4
    let createdAt ← now
    let messageId ← uuid4
    let payment := newPayment command fingerprint id
    let message := newOutboxMessage messageId id createdAt
    tryCatch
      (do
        let insertedAt ← insert payment message
        commit
        return ⟨payment.row insertedAt, false⟩)
      (recover command fingerprint)

/-- `get_db_session` around a request. -/
def withDbSession {α : Type} (request : Act α) : Act α :=
  Action.within (tryCatch request fun error => do
    rollback
    throw error) close

/-- A request to create a payment. -/
def createPayment (R : Runtime) (command : CreatePaymentCommand) : Act CreatePaymentResult :=
  withDbSession (create R command)

end Payments
