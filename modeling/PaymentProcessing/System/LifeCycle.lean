import PaymentProcessing.Outbox.Relay
import PaymentProcessing.Services.Processor
import PaymentProcessing.System.Operations

/-!
# Life cycles of rows

What a payment is for, without the code: it is created pending, gets one final answer, and after
that a client who wants to know is notified until a notification is delivered. `Payment.Step` is one
step of this, `Payment.Consistent` what is true of a payment all the way (`Step.consistent`), and
`Payment.LifeCycle` what two moments of one payment have to do with each other. An outbox message
is postponed until it is published (`OutboxMessage.Step`), and stays as it is from then on.
-/

namespace Payments

open Python

namespace Payment

/-- One step of a payment. -/
inductive Step (p : Payment) : Payment → Prop
  | finalized (h : p.status = .pending) (result : GatewayResult) (now : Time) :
      Step p (p.finalized result now)
  | delivered (hf : p.status.isFinal) (hw : p.wantsWebhook) (hd : p.webhookDeliveredAt = none)
      (now : Time) : Step p (p.delivered now)
  | undelivered (hf : p.status.isFinal) (hw : p.wantsWebhook) (hd : p.webhookDeliveredAt = none)
      (error : Str) : Step p (p.undelivered error)

/-- The columns of a payment fit together. -/
structure Consistent (p : Payment) : Prop where
  pending_iff : p.status = .pending ↔ p.processedAt = none
  failed_iff : p.status = .failed ↔ p.failureReason.isSome
  notified : 0 < p.webhookAttempts ∨ p.webhookDeliveredAt.isSome →
    p.status.isFinal ∧ p.wantsWebhook
  delivered : p.webhookDeliveredAt.isSome → 1 ≤ p.webhookAttempts ∧ p.webhookLastError = none
  undelivered : 0 < p.webhookAttempts → p.webhookDeliveredAt = none → p.webhookLastError.isSome
  untried : p.webhookAttempts = 0 → p.webhookLastError = none

/-- The payment needs no more work. -/
def Settled (p : Payment) : Prop :=
  p.status.isFinal ∧ (¬p.wantsWebhook ∨ p.webhookDeliveredAt.isSome)

/-- The same request was accepted. -/
structure SameRequest (p p' : Payment) : Prop where
  id : p'.id = p.id
  idempotencyKey : p'.idempotencyKey = p.idempotencyKey
  requestFingerprint : p'.requestFingerprint = p.requestFingerprint
  amount : p'.amount = p.amount
  currency : p'.currency = p.currency
  description : p'.description = p.description
  paymentMetadata : p'.paymentMetadata = p.paymentMetadata
  webhookUrl : p'.webhookUrl = p.webhookUrl
  createdAt : p'.createdAt = p.createdAt

/-- `p'` may be what `p` has become. -/
structure LifeCycle (p p' : Payment) : Prop where
  request : p.SameRequest p'
  status : p'.status = p.status ∨ (p.status = .pending ∧ p'.status.isFinal)
  final : p.status.isFinal → p'.status = p.status ∧ p'.failureReason = p.failureReason ∧
    p'.processedAt = p.processedAt
  delivered : p.webhookDeliveredAt.isSome → p'.webhookDeliveredAt = p.webhookDeliveredAt
  attempts : p.webhookAttempts ≤ p'.webhookAttempts

variable {p p' p'' : Payment}

/-! ### Invariants -/

theorem consistent_row (p : NewPayment) (h : p.status = .pending) (now : Time) :
    (p.row now).Consistent where
  pending_iff := by simp [NewPayment.row, h]
  failed_iff := by simp [NewPayment.row, h]
  notified := by simp [NewPayment.row]
  delivered := by simp [NewPayment.row]
  undelivered := by simp [NewPayment.row]
  untried := by simp [NewPayment.row]

theorem not_pending_of_isFinal {s : PaymentStatus} (h : s.isFinal) : s ≠ .pending := by
  simpa [PaymentStatus.isFinal] using h

/-- **A step leaves a consistent payment consistent.** -/
theorem Step.consistent (h : p.Step p') (hc : p.Consistent) : p'.Consistent := by
  cases h with
  | finalized h result now =>
    have huntried : p.webhookAttempts = 0 ∧ p.webhookDeliveredAt = none := by
      have := hc.notified
      by_contra hn
      have hf := (this (by
        rcases Decidable.not_and_iff_or_not.mp hn with h1 | h1
        · exact .inl (by omega)
        · exact .inr (Option.isSome_iff_ne_none.mpr h1))).1
      exact not_pending_of_isFinal hf h
    have hne := not_pending_of_isFinal result.isFinal
    exact {
      pending_iff := by simp [Payment.finalized, hne]
      failed_iff := result.reason_iff
      notified := by simp [Payment.finalized, huntried]
      delivered := by simp [Payment.finalized, huntried]
      undelivered := by simp [Payment.finalized, huntried]
      untried := by simpa [Payment.finalized] using hc.untried }
  | delivered hf hw hd now =>
    exact {
      pending_iff := hc.pending_iff
      failed_iff := hc.failed_iff
      notified := fun _ => ⟨hf, hw⟩
      delivered := fun _ => ⟨Nat.le_add_left 1 _, rfl⟩
      undelivered := by simp [Payment.delivered]
      untried := by simp [Payment.delivered] }
  | undelivered hf hw hd error =>
    exact {
      pending_iff := hc.pending_iff
      failed_iff := hc.failed_iff
      notified := fun _ => ⟨hf, hw⟩
      delivered := by simp [Payment.undelivered, hd]
      undelivered := by simp [Payment.undelivered]
      untried := by simp [Payment.undelivered] }

/-! ### Life cycles -/

theorem SameRequest.refl (p : Payment) : p.SameRequest p :=
  ⟨rfl, rfl, rfl, rfl, rfl, rfl, rfl, rfl, rfl⟩

theorem LifeCycle.refl (p : Payment) : p.LifeCycle p :=
  ⟨.refl p, .inl rfl, fun _ => ⟨rfl, rfl, rfl⟩, fun _ => rfl, le_rfl⟩

theorem SameRequest.trans (h : p.SameRequest p') (h' : p'.SameRequest p'') : p.SameRequest p'' :=
  ⟨h'.id.trans h.id, h'.idempotencyKey.trans h.idempotencyKey,
    h'.requestFingerprint.trans h.requestFingerprint, h'.amount.trans h.amount,
    h'.currency.trans h.currency, h'.description.trans h.description,
    h'.paymentMetadata.trans h.paymentMetadata, h'.webhookUrl.trans h.webhookUrl,
    h'.createdAt.trans h.createdAt⟩

/-- A final status stays final. -/
theorem LifeCycle.isFinal (h : p.LifeCycle p') (hf : p.status.isFinal) : p'.status.isFinal := by
  rw [(h.final hf).1]
  exact hf

theorem LifeCycle.trans (h : p.LifeCycle p') (h' : p'.LifeCycle p'') : p.LifeCycle p'' where
  request := h.request.trans h'.request
  status := by
    rcases h.status with hs | ⟨hp, hf⟩
    · rcases h'.status with hs' | ⟨hp', hf'⟩
      · exact .inl (hs'.trans hs)
      · exact .inr ⟨hs ▸ hp', hf'⟩
    · exact .inr ⟨hp, h'.isFinal hf⟩
  final hf := by
    obtain ⟨h1, h2, h3⟩ := h.final hf
    obtain ⟨h1', h2', h3'⟩ := h'.final (h.isFinal hf)
    exact ⟨h1'.trans h1, h2'.trans h2, h3'.trans h3⟩
  delivered hd := by
    have := h.delivered hd
    rw [h'.delivered (this ▸ hd), this]
  attempts := h.attempts.trans h'.attempts

/-- A step is part of the life cycle. -/
theorem Step.lifeCycle (h : p.Step p') : p.LifeCycle p' := by
  cases h with
  | finalized h result now =>
    exact ⟨⟨rfl, rfl, rfl, rfl, rfl, rfl, rfl, rfl, rfl⟩, .inr ⟨h, result.isFinal⟩,
      fun hf => absurd h (not_pending_of_isFinal hf), fun _ => rfl, le_rfl⟩
  | delivered hf hw hd now =>
    exact ⟨⟨rfl, rfl, rfl, rfl, rfl, rfl, rfl, rfl, rfl⟩, .inl rfl, fun _ => ⟨rfl, rfl, rfl⟩,
      fun h => by simp [hd] at h, Nat.le_succ _⟩
  | undelivered hf hw hd error =>
    exact ⟨⟨rfl, rfl, rfl, rfl, rfl, rfl, rfl, rfl, rfl⟩, .inl rfl, fun _ => ⟨rfl, rfl, rfl⟩,
      fun _ => rfl, Nat.le_succ _⟩

theorem SameRequest.wantsWebhook (h : p.SameRequest p') : p'.wantsWebhook = p.wantsWebhook := by
  rw [Payment.wantsWebhook, Payment.wantsWebhook, h.webhookUrl]

/-- A settled payment stays settled. -/
theorem LifeCycle.settled (h : p.LifeCycle p') (hs : p.Settled) : p'.Settled := by
  refine ⟨h.isFinal hs.1, ?_⟩
  rcases hs.2 with hw | hd
  · exact .inl (by rwa [h.request.wantsWebhook])
  · exact .inr (by rwa [h.delivered hd])

end Payment

namespace OutboxMessage

/-- One step of an outbox message. -/
inductive Step (r : OutboxMessage) : OutboxMessage → Prop
  | published (h : r.publishedAt = none) (now : Time) : Step r (r.published now)
  | postponed (h : r.publishedAt = none) (error : Str) {next : Time} (hnext : r.nextRetryAt ≤ next) :
      Step r (r.postponed error next)

/-- `r'` may be what `r` has become. -/
structure LifeCycle (r r' : OutboxMessage) : Prop where
  id : r'.id = r.id
  aggregateType : r'.aggregateType = r.aggregateType
  aggregateId : r'.aggregateId = r.aggregateId
  eventType : r'.eventType = r.eventType
  routingKey : r'.routingKey = r.routingKey
  payload : r'.payload = r.payload
  createdAt : r'.createdAt = r.createdAt
  published : r.publishedAt.isSome → r' = r
  attempts : r.attempts ≤ r'.attempts
  nextRetryAt : r.nextRetryAt ≤ r'.nextRetryAt

variable {r r' r'' : OutboxMessage}

theorem LifeCycle.refl (r : OutboxMessage) : r.LifeCycle r :=
  ⟨rfl, rfl, rfl, rfl, rfl, rfl, rfl, fun _ => rfl, le_rfl, le_rfl⟩

theorem LifeCycle.trans (h : r.LifeCycle r') (h' : r'.LifeCycle r'') : r.LifeCycle r'' where
  id := h'.id.trans h.id
  aggregateType := h'.aggregateType.trans h.aggregateType
  aggregateId := h'.aggregateId.trans h.aggregateId
  eventType := h'.eventType.trans h.eventType
  routingKey := h'.routingKey.trans h.routingKey
  payload := h'.payload.trans h.payload
  createdAt := h'.createdAt.trans h.createdAt
  published hp := by
    have heq := h.published hp
    subst heq
    exact h'.published hp
  attempts := h.attempts.trans h'.attempts
  nextRetryAt := h.nextRetryAt.trans h'.nextRetryAt

theorem Step.lifeCycle (h : r.Step r') : r.LifeCycle r' := by
  cases h with
  | published h now =>
    exact ⟨rfl, rfl, rfl, rfl, rfl, rfl, rfl, fun hp => by simp [h] at hp, le_rfl, le_rfl⟩
  | postponed h error hnext =>
    exact ⟨rfl, rfl, rfl, rfl, rfl, rfl, rfl, fun hp => by simp [h] at hp, Nat.le_succ _, hnext⟩

/-- What the relay publishes for a row does not change. -/
theorem LifeCycle.outboxPublication (h : r.LifeCycle r') (R : Runtime) :
    Payments.outboxPublication R r' = Payments.outboxPublication R r := by
  simp only [Payments.outboxPublication, h.id, h.aggregateId, h.eventType, h.routingKey, h.payload]

end OutboxMessage

end Payments
