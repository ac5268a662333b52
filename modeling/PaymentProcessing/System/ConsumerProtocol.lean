import PaymentProcessing.Broker.Consumer

/-!
# The protocol of the consumer

The phases of one delivery: two transactions, each of which locks the payment, asks the outside
world once and writes down what it learnt; then the copy that is routed elsewhere if that failed,
and the settlement. `handleDelivery_follows` says that the code keeps to it.
-/

namespace Payments

open Effects Python

variable (R : Runtime) (cfg : Settings) (m : Message)

/-- Where a delivery stands. -/
inductive ConsumerPhase
  | fresh
  /-- The payment is locked by the first transaction. -/
  | opened (p : Payment)
  | charging (p : Payment)
  | charged (p : Payment) (result : GatewayResult)
  | chargedAt (p : Payment) (result : GatewayResult) (now : Time)
  | finalFlushed (p : Payment) (result : GatewayResult) (now : Time)
  /-- The answer of the gateway could not be written. -/
  | chargeLost (p : Payment) (result : GatewayResult) (error : Exn)
  | finalCommitted
  | finalized
  /-- The payment is locked by the second transaction. -/
  | reopened (p : Payment)
  | sending (p : Payment)
  | delivered (p : Payment) (status : ℕ)
  | deliveredAt (p : Payment) (status : ℕ) (now : Time)
  | deliveredFlushed (p : Payment) (status : ℕ) (now : Time)
  /-- The delivery of the notification could not be written. -/
  | deliveryLost (p : Payment) (status : ℕ) (error : Exn)
  | undelivered (p : Payment) (answer : Except HttpError ℕ) (error : Exn)
  | undeliveredFlushed (p : Payment) (answer : Except HttpError ℕ) (error : Exn)
  | attempted (error : Exn)
  | deliveryCommitted
  | settled
  /-- The transaction is over or will be undone, and nothing irrevocable happened in it. -/
  | stopped (error : Exn)
  | failed (error : Exn)
  | routed
  | requeueing
  | done

/-- What the consumer publishes for a delivery that failed. -/
def failurePublication (attempt : ℕ) (error : Exn) : Publication :=
  if error.isPermanent then dlqPublication R m attempt error
  else if cfg.maxRetries < attempt + 1 then dlqPublication R m attempt error
  else retryPublication R m (attempt + 1) error

/-- The payment the message is about. -/
def eventPayment : Option UUID :=
  match R.validateEvent m.body with
  | .ok event => some event.paymentId
  | .error _ => none

/-- The moves of a delivery of `m`. -/
inductive ConsumerMove : ConsumerPhase → (o : Op) → Res o → ConsumerPhase → Prop
  | malformed {text : Str} {attempt : ℕ} (hm : R.validateEvent m.body = .error text)
      (ha : currentAttempt m.headers = .ok attempt) (u : Unit) :
      ConsumerMove .fresh (.publish (dlqPublication R m attempt (.validation text))) (.ok u) .routed
  | malformedFailed {text : Str} {attempt : ℕ} (hm : R.validateEvent m.body = .error text)
      (ha : currentAttempt m.headers = .ok attempt) (e : ForeignError) :
      ConsumerMove .fresh (.publish (dlqPublication R m attempt (.validation text))) (.error e)
        .requeueing
  | opened {id : UUID} (hm : eventPayment R m = some id) (p : Payment) :
      ConsumerMove .fresh (.selectForUpdate id) (.ok (some p)) (.opened p)
  | missing {id : UUID} (hm : eventPayment R m = some id) :
      ConsumerMove .fresh (.selectForUpdate id) (.ok none) (.stopped (.paymentNotFound id))
  | openFailed {id : UUID} (hm : eventPayment R m = some id) (e : DbError) :
      ConsumerMove .fresh (.selectForUpdate id) (.error e) (.stopped e.toExn)
  | alreadyFinal {p : Payment} (h : p.status ≠ .pending) (u : Unit) :
      ConsumerMove (.opened p) .close u .finalized
  | charging {p : Payment} (h : p.status = .pending) (u : Unit) :
      ConsumerMove (.opened p) (.gatewayCall p.charge) u (.charging p)
  | charged {p : Payment} (result : GatewayResult) :
      ConsumerMove (.charging p) (.gatewayReturn p.charge) (.ok result) (.charged p result)
  | chargeFailed {p : Payment} (e : ForeignError) :
      ConsumerMove (.charging p) (.gatewayReturn p.charge) (.error e) (.stopped (.foreign e))
  | chargedAt {p : Payment} {result : GatewayResult} (now : Time) :
      ConsumerMove (.charged p result) .now now (.chargedAt p result now)
  | finalFlushed {p : Payment} {result : GatewayResult} {now : Time} (u : Unit) :
      ConsumerMove (.chargedAt p result now) (.updatePayment (p.finalized result now)) (.ok u)
        (.finalFlushed p result now)
  | chargeLost {p : Payment} {result : GatewayResult} {now : Time} (e : DbError) :
      ConsumerMove (.chargedAt p result now) (.updatePayment (p.finalized result now)) (.error e)
        (.chargeLost p result e.toExn)
  | finalCommitted {p : Payment} {result : GatewayResult} {now : Time} (u : Unit) :
      ConsumerMove (.finalFlushed p result now) .commit (.ok u) .finalCommitted
  | finalNotCommitted {p : Payment} {result : GatewayResult} {now : Time} (e : DbError) :
      ConsumerMove (.finalFlushed p result now) .commit (.error e) (.stopped e.toExn)
  | chargeLostClosed {p : Payment} {result : GatewayResult} {error : Exn} (u : Unit) :
      ConsumerMove (.chargeLost p result error) .close u (.failed error)
  | finalClosed (u : Unit) : ConsumerMove .finalCommitted .close u .finalized
  | reopened {id : UUID} (hm : eventPayment R m = some id) (p : Payment) :
      ConsumerMove .finalized (.selectForUpdate id) (.ok (some p)) (.reopened p)
  | missingAgain {id : UUID} (hm : eventPayment R m = some id) :
      ConsumerMove .finalized (.selectForUpdate id) (.ok none) (.stopped (.paymentNotFound id))
  | reopenFailed {id : UUID} (hm : eventPayment R m = some id) (e : DbError) :
      ConsumerMove .finalized (.selectForUpdate id) (.error e) (.stopped e.toExn)
  | nothingToSend {p : Payment} (h : ¬p.wantsWebhook ∨ p.webhookDeliveredAt.isSome) (u : Unit) :
      ConsumerMove (.reopened p) .commit (.ok u) .deliveryCommitted
  | nothingToSendFailed {p : Payment} (h : ¬p.wantsWebhook ∨ p.webhookDeliveredAt.isSome)
      (e : DbError) : ConsumerMove (.reopened p) .commit (.error e) (.stopped e.toExn)
  | sending {p : Payment} (hw : p.wantsWebhook) (hd : p.webhookDeliveredAt = none) (u : Unit) :
      ConsumerMove (.reopened p) (.httpPost (webhookRequest R cfg p)) u (.sending p)
  | delivered {p : Payment} {status : ℕ} (h : classify (.ok status) = .ok ()) :
      ConsumerMove (.sending p) (.httpResponse (webhookRequest R cfg p)) (.ok status)
        (.delivered p status)
  | undelivered {p : Payment} {answer : Except HttpError ℕ} {error : Exn}
      (h : classify answer = .error error) :
      ConsumerMove (.sending p) (.httpResponse (webhookRequest R cfg p)) answer
        (.undelivered p answer error)
  | deliveredAt {p : Payment} {status : ℕ} (now : Time) :
      ConsumerMove (.delivered p status) .now now (.deliveredAt p status now)
  | deliveredFlushed {p : Payment} {status : ℕ} {now : Time} (u : Unit) :
      ConsumerMove (.deliveredAt p status now) (.updatePayment (p.delivered now)) (.ok u)
        (.deliveredFlushed p status now)
  | deliveryLost {p : Payment} {status : ℕ} {now : Time} (e : DbError) :
      ConsumerMove (.deliveredAt p status now) (.updatePayment (p.delivered now)) (.error e)
        (.deliveryLost p status e.toExn)
  | deliveryCommitted {p : Payment} {status : ℕ} {now : Time} (u : Unit) :
      ConsumerMove (.deliveredFlushed p status now) .commit (.ok u) .deliveryCommitted
  | deliveryNotCommitted {p : Payment} {status : ℕ} {now : Time} (e : DbError) :
      ConsumerMove (.deliveredFlushed p status now) .commit (.error e) (.stopped e.toExn)
  | deliveryLostClosed {p : Payment} {status : ℕ} {error : Exn} (u : Unit) :
      ConsumerMove (.deliveryLost p status error) .close u (.failed error)
  | undeliveredFlushed {p : Payment} {answer : Except HttpError ℕ} {error : Exn} (u : Unit) :
      ConsumerMove (.undelivered p answer error)
        (.updatePayment (p.undelivered (errorText R error))) (.ok u)
        (.undeliveredFlushed p answer error)
  | undeliveredNotFlushed {p : Payment} {answer : Except HttpError ℕ} {error : Exn} (e : DbError) :
      ConsumerMove (.undelivered p answer error)
        (.updatePayment (p.undelivered (errorText R error))) (.error e) (.stopped e.toExn)
  | attempted {p : Payment} {answer : Except HttpError ℕ} {error : Exn} (u : Unit) :
      ConsumerMove (.undeliveredFlushed p answer error) .commit (.ok u) (.attempted error)
  | attemptNotCommitted {p : Payment} {answer : Except HttpError ℕ} {error : Exn} (e : DbError) :
      ConsumerMove (.undeliveredFlushed p answer error) .commit (.error e) (.stopped e.toExn)
  | attemptedClosed {error : Exn} (u : Unit) : ConsumerMove (.attempted error) .close u
      (.failed error)
  | deliveryClosed (u : Unit) : ConsumerMove .deliveryCommitted .close u .settled
  | stoppedClosed {error : Exn} (u : Unit) : ConsumerMove (.stopped error) .close u (.failed error)
  | acked (u : Unit) : ConsumerMove .settled .ack (.ok u) .done
  | ackFailed (e : ForeignError) : ConsumerMove .settled .ack (.error e) .requeueing
  | routed {attempt : ℕ} {error : Exn} (ha : currentAttempt m.headers = .ok attempt) (u : Unit) :
      ConsumerMove (.failed error) (.publish (failurePublication R cfg m attempt error)) (.ok u)
        .routed
  | notRouted {attempt : ℕ} {error : Exn} (ha : currentAttempt m.headers = .ok attempt)
      (e : ForeignError) :
      ConsumerMove (.failed error) (.publish (failurePublication R cfg m attempt error)) (.error e)
        .requeueing
  | routedAcked (u : Unit) : ConsumerMove .routed .ack (.ok u) .done
  | routedAckFailed (e : ForeignError) : ConsumerMove .routed .ack (.error e) .requeueing
  | requeued (r : Except ForeignError Unit) : ConsumerMove .requeueing .nack r .done

/-- The protocol of a delivery. -/
abbrev consumerProtocol : Protocol Op Res := ⟨ConsumerPhase, ConsumerMove R cfg m⟩

/-! ## The code follows the protocol -/

variable {R cfg m}

/-- The payment of an event is in the body, which nothing changes. -/
theorem eventPayment_congr {m' : Message} (h : m'.body = m.body) :
    eventPayment R m' = eventPayment R m := by
  rw [eventPayment, eventPayment, h]

theorem routeFailure_eq (attempt : ℕ) (error : Exn) :
    routeFailure R cfg m attempt error = publish (failurePublication R cfg m attempt error) := by
  unfold routeFailure failurePublication
  split
  · rfl
  · split <;> rfl

theorem finalizePayment_follows {id : UUID} (hm : eventPayment R m = some id) :
    (finalizePayment id).wp (consumerProtocol R cfg m).interface (fun _ φ => φ = .finalized)
      (fun e φ => φ = .failed e) .fresh := by
  simp only [finalizePayment, Action.wp_within, Action.wp_bind, wp_selectForUpdate, wp_close]
  refine ⟨fun p => ?_, fun e => ⟨_, .openFailed hm e, fun u => ⟨_, .stoppedClosed u, rfl⟩⟩⟩
  cases p with
  | none => exact ⟨_, .missing hm, fun u => ⟨_, .stoppedClosed u, rfl⟩⟩
  | some p =>
    refine ⟨_, .opened hm p, ?_⟩
    dsimp only
    by_cases h : p.status = .pending
    · rw [if_neg (not_not.mpr h)]
      simp only [charge, Action.wp_bind, wp_now, wp_updatePayment, wp_commit]
      refine fun u => ⟨_, .charging h u, fun r => ?_⟩
      cases r with
      | error e => exact ⟨_, .chargeFailed e, fun u => ⟨_, .stoppedClosed u, rfl⟩⟩
      | ok result =>
        refine ⟨_, .charged result, fun now => ⟨_, .chargedAt now, fun u => ⟨_, .finalFlushed u, ?_⟩,
          fun e => ⟨_, .chargeLost e, fun u => ⟨_, .chargeLostClosed u, rfl⟩⟩⟩⟩
        exact ⟨fun u => ⟨_, .finalCommitted u, fun u => ⟨_, .finalClosed u, rfl⟩⟩,
          fun e => ⟨_, .finalNotCommitted e, fun u => ⟨_, .stoppedClosed u, rfl⟩⟩⟩
    · rw [if_pos h]
      exact fun u => ⟨_, .alreadyFinal h u, rfl⟩

theorem send_follows {p : Payment} (hw : p.wantsWebhook) (hd : p.webhookDeliveredAt = none) :
    (send R cfg p).wp (consumerProtocol R cfg m).interface
      (fun _ φ => ∃ status, φ = .delivered p status)
      (fun e φ => ∃ answer, φ = .undelivered p answer e) (.reopened p) := by
  rw [send, if_pos hw]
  refine fun u => ⟨_, .sending hw hd u, fun answer => ?_⟩
  cases h : classify answer with
  | error e =>
    refine ⟨_, .undelivered h, ?_⟩
    change (Action.ofExcept (classify answer)).wp (consumerProtocol R cfg m).interface _ _ _
    rw [h, Action.wp_ofExcept_error]
    exact ⟨answer, rfl⟩
  | ok u =>
    cases answer with
    | ok status =>
      refine ⟨_, .delivered h, ?_⟩
      change (Action.ofExcept (classify (.ok status))).wp (consumerProtocol R cfg m).interface _ _ _
      rw [h, Action.wp_ofExcept_ok]
      exact ⟨status, rfl⟩
    | error e => cases e <;> simp [classify] at h

theorem deliverWebhook_follows {id : UUID} (hm : eventPayment R m = some id) :
    (deliverWebhook R cfg id).wp (consumerProtocol R cfg m).interface (fun _ φ => φ = .settled)
      (fun e φ => φ = .failed e) .finalized := by
  simp only [deliverWebhook, Action.wp_within, Action.wp_bind, wp_selectForUpdate, wp_close]
  refine ⟨fun p => ?_, fun e => ⟨_, .reopenFailed hm e, fun u => ⟨_, .stoppedClosed u, rfl⟩⟩⟩
  cases p with
  | none => exact ⟨_, .missingAgain hm, fun u => ⟨_, .stoppedClosed u, rfl⟩⟩
  | some p =>
    refine ⟨_, .reopened hm p, ?_⟩
    dsimp only
    by_cases h : ¬p.wantsWebhook ∨ p.webhookDeliveredAt.isSome
    · rw [if_pos h, wp_commit]
      exact ⟨fun u => ⟨_, .nothingToSend h u, fun u => ⟨_, .deliveryClosed u, rfl⟩⟩,
        fun e => ⟨_, .nothingToSendFailed h e, fun u => ⟨_, .stoppedClosed u, rfl⟩⟩⟩
    · obtain ⟨hw, hd⟩ : p.wantsWebhook ∧ p.webhookDeliveredAt = none := by
        simpa using h
      rw [if_neg h, Action.wp_bind, Action.wp_attempt]
      refine Action.wp_mono (send_follows hw hd) ?_ ?_
      · rintro u ψ ⟨status, rfl⟩
        simp only [Action.wp_bind, wp_now, wp_updatePayment, wp_commit]
        exact fun now => ⟨_, .deliveredAt now, fun u => ⟨_, .deliveredFlushed u,
          fun u => ⟨_, .deliveryCommitted u, fun u => ⟨_, .deliveryClosed u, rfl⟩⟩,
          fun e => ⟨_, .deliveryNotCommitted e, fun u => ⟨_, .stoppedClosed u, rfl⟩⟩⟩,
          fun e => ⟨_, .deliveryLost e, fun u => ⟨_, .deliveryLostClosed u, rfl⟩⟩⟩
      · rintro error ψ ⟨answer, rfl⟩
        simp only [Action.wp_bind, wp_updatePayment, wp_commit, Action.wp_throw]
        exact ⟨fun u => ⟨_, .undeliveredFlushed u,
          fun u => ⟨_, .attempted u, fun u => ⟨_, .attemptedClosed u, rfl⟩⟩,
          fun e => ⟨_, .attemptNotCommitted e, fun u => ⟨_, .stoppedClosed u, rfl⟩⟩⟩,
          fun e => ⟨_, .undeliveredNotFlushed e, fun u => ⟨_, .stoppedClosed u, rfl⟩⟩⟩

theorem process_follows {id : UUID} (hm : eventPayment R m = some id) :
    (process R cfg id).wp (consumerProtocol R cfg m).interface (fun _ φ => φ = .settled)
      (fun e φ => φ = .failed e) .fresh := by
  rw [process, Action.wp_bind]
  refine Action.wp_mono (finalizePayment_follows hm) ?_ fun _ _ h => h
  rintro u ψ rfl
  exact deliverWebhook_follows hm

/-- **The consumer keeps to its protocol.** -/
theorem handleDelivery_follows : (handleDelivery R cfg m).run.wp (consumerProtocol R cfg m).interface
    (fun _ φ => φ = .fresh ∨ φ = .done) .fresh := by
  have hnack : ∀ u : Unit, (nack).wp (consumerProtocol R cfg m).interface
      (fun _ φ => φ = .fresh ∨ φ = .done) (fun _ φ => φ = .fresh ∨ φ = .done) .requeueing := fun _ =>
    wp_nack.mpr ⟨fun u => ⟨_, .requeued _, .inr rfl⟩, fun e => ⟨_, .requeued _, .inr rfl⟩⟩
  have hwp : (handleDelivery R cfg m).wp (consumerProtocol R cfg m).interface
      (fun _ φ => φ = .fresh ∨ φ = .done) (fun _ φ => φ = .fresh ∨ φ = .done) .fresh := by
    rw [handleDelivery, Action.wp_bind]
    cases ha : currentAttempt m.headers with
    | error e => exact .inl rfl
    | ok attempt =>
      rw [Action.wp_ofExcept_ok, Action.wp_tryCatch]
      cases hm : R.validateEvent m.body with
      | error text =>
        simp only [sendToDlq, Action.wp_bind, wp_publish, wp_ack]
        exact ⟨fun u => ⟨_, .malformed hm ha u, fun u => ⟨_, .routedAcked u, .inr rfl⟩,
          fun e => ⟨_, .routedAckFailed e, hnack ()⟩⟩,
          fun e => ⟨_, .malformedFailed hm ha e, hnack ()⟩⟩
      | ok event =>
        have hid : eventPayment R m = some event.paymentId := by simp [eventPayment, hm]
        simp only [Action.wp_bind, Action.wp_attempt]
        refine Action.wp_mono (process_follows hid) ?_ ?_
        · rintro u ψ rfl
          simp only [wp_ack]
          exact ⟨fun u => ⟨_, .acked u, .inr rfl⟩, fun e => ⟨_, .ackFailed e, hnack ()⟩⟩
        · rintro e ψ rfl
          simp only [routeFailure_eq, wp_publish, wp_ack]
          exact ⟨fun u => ⟨_, .routed ha u, fun u => ⟨_, .routedAcked u, .inr rfl⟩,
            fun e => ⟨_, .routedAckFailed e, hnack ()⟩⟩,
            fun e => ⟨_, .notRouted ha e, hnack ()⟩⟩
  refine Prog.wp_mono _ hwp ?_
  rintro (e | a) ψ hψ <;> exact hψ

end Payments
