import PaymentProcessing.Broker.Retry
import PaymentProcessing.Services.Processor

/-!
# The consumer

`handle_delivery` settles one delivery by hand: it acknowledges a message once its fate is fixed,
that is, once it is processed or a copy of it is published elsewhere, and gives it back otherwise.
-/

namespace Payments

open Effects Python

variable (R : Runtime) (cfg : Settings)

/-- The branches of `handle_delivery` for an exception of `process`. -/
def routeFailure (message : Message) (attempt : ℕ) (error : Exn) : Act Unit :=
  if error.isPermanent then sendToDlq R message attempt error
  else if cfg.maxRetries < attempt + 1 then sendToDlq R message attempt error
  else sendToRetry R message (attempt + 1) error

/-- `handle_delivery`. -/
def handleDelivery (message : Message) : Act Unit := do
  let attempt ← Action.ofExcept (currentAttempt message.headers)
  tryCatch
    (match R.validateEvent message.body with
    | .error text => do
      sendToDlq R message attempt (.validation text)
      ack
    | .ok event => do
      match ← Action.attempt (process R cfg event.paymentId) with
      | .error error =>
        routeFailure R cfg message attempt error
        ack
      | .ok () => ack)
    fun _ => nack

end Payments
