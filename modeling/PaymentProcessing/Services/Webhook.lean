import PaymentProcessing.Config
import PaymentProcessing.System.Operations

/-!
# Webhook notifications

`WebhookSender.send`: one signed request to the URL of the client, and its outcome in terms of
transient and permanent errors.
-/

namespace Payments

open Effects Python

variable (R : Runtime)

/-- `RETRYABLE_STATUS_CODES`. -/
def retryableStatusCodes : List ℕ := [408, 429]

/-- `SIGNATURE_HEADER`. -/
def signatureHeader : String := "X-Webhook-Signature"

/-- `EVENT_ID_HEADER`. -/
def eventIdHeader : String := "X-Webhook-Event-Id"

/-- `sign_payload`. -/
def signPayload (body : Bytes) (secret : String) : Str :=
  Str.ofString "sha256=" ++ R.hmacSha256 secret.toUTF8.data.toList body

/-- `build_payload`. -/
def buildPayload (payment : Payment) : WebhookPayload where
  event := Str.ofString "payment." ++ payment.status.value
  eventId := webhookEventId R payment.id
  paymentId := payment.id
  status := payment.status
  amount := payment.amount
  currency := payment.currency
  description := payment.description
  metadata := payment.paymentMetadata
  failureReason := payment.failureReason
  createdAt := payment.createdAt
  processedAt := payment.processedAt

/-- The request `WebhookSender.send` makes. -/
def webhookRequest (cfg : Settings) (payment : Payment) : WebhookRequest :=
  let payload := buildPayload R payment
  let body := R.dumpWebhook payload
  { url := payment.webhookUrl.getD []
    payload := payload
    body := body
    headers := [("Content-Type", Str.ofString "application/json"),
      (eventIdHeader, payload.eventId.str),
      (signatureHeader, signPayload R body cfg.webhookSigningSecret)] }

/-- How the answer to a webhook request is classified. -/
def classify : Except HttpError ℕ → Except Exn Unit
  | .error (.timeout text) =>
    .error (.webhookTransient (Str.ofString "Таймаут при доставке webhook: " ++ text) none)
  | .error (.transport text) =>
    .error (.webhookTransient (Str.ofString "Сетевая ошибка при доставке webhook: " ++ text) none)
  | .error (.other error) => .error (.foreign error)
  | .ok status =>
    if 200 ≤ status ∧ status < 300 then .ok ()
    else if 500 ≤ status ∨ status ∈ retryableStatusCodes then
      .error (.webhookTransient (Str.ofString "Webhook ответил " ++ natText status ++
        Str.ofString ", повтор осмыслен") (some status))
    else
      .error (.webhookPermanent (Str.ofString "Webhook ответил " ++ natText status ++
        Str.ofString ", повтор бессмысленен") (some status))

/-- `WebhookSender.send`. -/
def send (cfg : Settings) (payment : Payment) : Act Unit := do
  if payment.wantsWebhook then
    Action.lift (Op.httpPost (webhookRequest R cfg payment))
    let answer ← Action.lift (Op.httpResponse (webhookRequest R cfg payment))
    Action.ofExcept (classify answer)
  else throw (.value (Str.ofString "У платежа не задан webhook_url"))

end Payments
