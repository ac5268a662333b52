import PaymentProcessing.Services.Webhook

/-!
# Processing payments

`PaymentProcessor.process` in two transactions: the first brings the payment to a final status, the
second notifies the client. Each locks the row of the payment first, so that duplicates of one event
follow one another.
-/

namespace Payments

open Effects Python

variable (R : Runtime) (cfg : Settings)

/-- `PaymentGateway.charge`. -/
def charge (c : Charge) : Act GatewayResult := do
  Action.lift (Op.gatewayCall c)
  ask Exn.foreign (Prog.perform (Op.gatewayReturn c))

/-- The arguments with which a payment is charged. -/
def Payment.charge (p : Payment) : Charge := ⟨p.id, p.amount, p.currency⟩

/-- The payment with the answer of the gateway. -/
def Payment.finalized (p : Payment) (result : GatewayResult) (processedAt : Time) : Payment :=
  { p with
    status := result.status
    failureReason := result.failureReason
    processedAt := some processedAt }

/-- The payment after a notification that was delivered. -/
def Payment.delivered (p : Payment) (deliveredAt : Time) : Payment :=
  { p with
    webhookAttempts := p.webhookAttempts + 1
    webhookDeliveredAt := some deliveredAt
    webhookLastError := none }

/-- The payment after a notification that was not. -/
def Payment.undelivered (p : Payment) (error : Str) : Payment :=
  { p with
    webhookAttempts := p.webhookAttempts + 1
    webhookLastError := some error }

/-- `PaymentProcessor._finalize_payment`. -/
def finalizePayment (paymentId : UUID) : Act Unit :=
  Action.within (do
    match ← selectForUpdate paymentId with
    | none => throw (.paymentNotFound paymentId)
    | some payment =>
      if payment.status ≠ .pending then return ()
      else
        let result ← charge payment.charge
        let processedAt ← now
        updatePayment (payment.finalized result processedAt)
        commit) close

/-- `PaymentProcessor._deliver_webhook`. -/
def deliverWebhook (paymentId : UUID) : Act Unit :=
  Action.within (do
    match ← selectForUpdate paymentId with
    | none => throw (.paymentNotFound paymentId)
    | some payment =>
      if ¬payment.wantsWebhook ∨ payment.webhookDeliveredAt.isSome then commit
      else
        match ← Action.attempt (send R cfg payment) with
        | .error error =>
          updatePayment (payment.undelivered (errorText R error))
          commit
          throw error
        | .ok () =>
          let deliveredAt ← now
          updatePayment (payment.delivered deliveredAt)
          commit) close

/-- `PaymentProcessor.process`. -/
def process (paymentId : UUID) : Act Unit := do
  finalizePayment paymentId
  deliverWebhook R cfg paymentId

end Payments
