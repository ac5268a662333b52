import PaymentProcessing.System.LifeCycle
import PaymentProcessing.System.Service

/-!
# What a thread knows

Where a thread stands in its protocol says what it has written and not committed, which rows it has
locked and what they are like, and what it has found out about rows that it no longer holds.
`Knows.step` says that its own steps keep this true, and `Knows.frame` that the steps of others do.

The one fact about the database that everything else rests on follows: committed rows only move
along their life cycles (`Exec.evolves`).
-/

namespace Payments

open Effects Python Store

variable (R : Runtime) (cfg : Settings)

/-! ## Requests -/

namespace ApiPhase

/-- The payment that is staged. -/
def writtenPayments (c : CreatePaymentCommand) : ApiPhase → List Payment
  | .staged fingerprint id _ _ now => [(newPayment c fingerprint id).row now]
  | _ => []

/-- The event that is staged. -/
def writtenMessages : ApiPhase → List OutboxMessage
  | .staged _ id messageId occurredAt now => [(newOutboxMessage messageId id occurredAt).row now]
  | _ => []

/-- What is known about committed payments. -/
def Facts (c : CreatePaymentCommand) (w : World) : ApiPhase → Prop
  | .idle => True
  | .failed => True
  | .found p => p.idempotencyKey = c.idempotencyKey ∧
      ∃ p', w.payments.rows p.id = some p' ∧ p.LifeCycle p'
  | .staged fingerprint id messageId _ _ => c.fingerprint R = .ok fingerprint ∧
      w.payments.rows id = none ∧ w.outbox.rows messageId = none
  | .created fingerprint id now => c.fingerprint R = .ok fingerprint ∧
      ∃ p', w.payments.rows id = some p' ∧ ((newPayment c fingerprint id).row now).LifeCycle p'

/-- What a request knows. -/
structure Knows (c : CreatePaymentCommand) (w : World) (t : ℕ) (φ : ApiPhase) : Prop where
  payments : w.payments.Wrote t (φ.writtenPayments c)
  outbox : w.outbox.Wrote t φ.writtenMessages
  facts : φ.Facts R c w

end ApiPhase

/-! ## Calls of the relay -/

namespace RelayPhase

/-- The rows of the batch, those that are dealt with first. -/
def held : RelayPhase → List OutboxMessage
  | .batch _ done todo => done.map Mark.row ++ todo
  | .confirmed _ done row todo => done.map Mark.row ++ row :: todo
  | .postponed _ done row _ todo => done.map Mark.row ++ row :: todo
  | .flushed _ done todo => done.map Mark.row ++ todo
  | .unflushed _ done todo => done.map Mark.row ++ todo
  | _ => []

/-- The notes taken so far. -/
def marks : RelayPhase → List Mark
  | .batch _ done _ => done
  | .confirmed _ done _ _ => done
  | .postponed _ done _ _ _ => done
  | .flushed _ done _ => done
  | .unflushed _ done _ => done
  | _ => []

/-- The rows that are written. -/
def written : RelayPhase → List OutboxMessage
  | .flushed _ done _ => done.map (Mark.result R)
  | _ => []

/-- The time read before the batch was selected. -/
def time : RelayPhase → Option Time
  | .timed now => some now
  | .batch now _ _ => some now
  | .confirmed now _ _ _ => some now
  | .postponed now _ _ _ _ => some now
  | .flushed now _ _ => some now
  | .unflushed now _ _ => some now
  | _ => none

end RelayPhase

/-- The time at which a note was taken. -/
def Mark.time (m : Mark) : Time :=
  match m.note with
  | .published now => now
  | .postponed _ now => now

/-- What a call of the relay knows. -/
structure RelayPhase.Knows (w : World) (t : ℕ) (φ : RelayPhase) : Prop where
  payments : w.payments.Wrote t []
  outbox : w.outbox.Wrote t (φ.written R)
  held : ∀ r ∈ φ.held, w.outbox.Holds t r
  nodup : (φ.held.map OutboxMessage.id).Nodup
  eligible : ∀ r ∈ φ.held, r.publishedAt = none ∧ ∀ now ∈ φ.time, r.nextRetryAt ≤ now
  clock : ∀ now ∈ φ.time, now ≤ w.clock
  noted : ∀ m ∈ φ.marks, ∀ now ∈ φ.time, now ≤ m.time

/-! ## Deliveries -/

/-- A notification has to be sent. -/
structure Payment.Sendable (p : Payment) : Prop where
  isFinal : p.status.isFinal
  wantsWebhook : p.wantsWebhook
  undelivered : p.webhookDeliveredAt = none

namespace ConsumerPhase

/-- The payment that is locked. -/
def held : ConsumerPhase → Option Payment
  | .opened p => some p
  | .charging p => some p
  | .charged p _ => some p
  | .chargedAt p _ _ => some p
  | .finalFlushed p _ _ => some p
  | .chargeLost p _ _ => some p
  | .reopened p => some p
  | .sending p => some p
  | .delivered p _ => some p
  | .deliveredAt p _ _ => some p
  | .deliveredFlushed p _ _ => some p
  | .deliveryLost p _ _ => some p
  | .undelivered p _ _ => some p
  | .undeliveredFlushed p _ _ => some p
  | _ => none

/-- The payment that is written. -/
def written : ConsumerPhase → List Payment
  | .finalFlushed p result now => [p.finalized result now]
  | .deliveredFlushed p _ now => [p.delivered now]
  | .undeliveredFlushed p _ error => [p.undelivered (errorText R error)]
  | _ => []

/-- What is known about the locked payment. -/
def Facts : ConsumerPhase → Prop
  | .charging p => p.status = .pending
  | .charged p _ => p.status = .pending
  | .chargedAt p _ _ => p.status = .pending
  | .finalFlushed p _ _ => p.status = .pending
  | .chargeLost p _ _ => p.status = .pending
  | .reopened p => p.status.isFinal
  | .sending p => p.Sendable
  | .delivered p status => p.Sendable ∧ classify (.ok status) = .ok ()
  | .deliveredAt p status _ => p.Sendable ∧ classify (.ok status) = .ok ()
  | .deliveredFlushed p status _ => p.Sendable ∧ classify (.ok status) = .ok ()
  | .deliveryLost p status _ => p.Sendable ∧ classify (.ok status) = .ok ()
  | .undelivered p answer error => p.Sendable ∧ classify answer = .error error
  | .undeliveredFlushed p answer error => p.Sendable ∧ classify answer = .error error
  | _ => True

/-- What is known about the payment of the event after a transaction. -/
def Known (p : Payment) : ConsumerPhase → Prop
  | .finalCommitted => p.status.isFinal
  | .finalized => p.status.isFinal
  | .deliveryCommitted => p.Settled
  | .settled => p.Settled
  | _ => True

/-- The phases in which something is known about the payment of the event. -/
def committed : ConsumerPhase → Bool
  | .finalCommitted => true
  | .finalized => true
  | .deliveryCommitted => true
  | .settled => true
  | _ => false

/-- What a delivery of `m` knows. -/
structure Knows (m : Message) (w : World) (t : ℕ) (φ : ConsumerPhase) : Prop where
  payments : w.payments.Wrote t (φ.written R)
  outbox : w.outbox.Wrote t []
  held : ∀ p ∈ φ.held, w.payments.Holds t p
  event : ∀ p ∈ φ.held, eventPayment R m = some p.id
  facts : φ.Facts
  known : φ.committed → ∃ id p, eventPayment R m = some id ∧ w.payments.rows id = some p ∧ φ.Known p

end ConsumerPhase

/-! ## Threads -/

/-- **What a thread knows.** -/
def Knows (w : World) (t : ℕ) : Phase → Prop
  | .api c φ => φ.Knows R c w t
  | .relay φ => φ.Knows R w t
  | .consumer m φ => φ.Knows R m w t

/-- The payments a thread has written. -/
def Phase.writtenPayments : Phase → List Payment
  | .api c φ => φ.writtenPayments c
  | .relay _ => []
  | .consumer _ φ => φ.written R

/-- The outbox messages a thread has written. -/
def Phase.writtenMessages : Phase → List OutboxMessage
  | .api _ φ => φ.writtenMessages
  | .relay φ => φ.written R
  | .consumer _ _ => []

variable {R cfg} {w w' : World} {t : ℕ}

theorem Knows.payments {φ : Phase} (h : Knows R w t φ) :
    w.payments.Wrote t (φ.writtenPayments R) := by
  cases φ with
  | api c φ => exact ApiPhase.Knows.payments h
  | relay φ => exact RelayPhase.Knows.payments h
  | consumer m φ => exact ConsumerPhase.Knows.payments h

theorem Knows.outbox {φ : Phase} (h : Knows R w t φ) :
    w.outbox.Wrote t (φ.writtenMessages R) := by
  cases φ with
  | api c φ => exact ApiPhase.Knows.outbox h
  | relay φ => exact RelayPhase.Knows.outbox h
  | consumer m φ => exact ConsumerPhase.Knows.outbox h

/-- What a delivery writes is a step of the payment it holds. -/
theorem ConsumerPhase.Knows.step_of_mem_written {m : Message} {φ : ConsumerPhase}
    (h : φ.Knows R m w t) {p' : Payment} (hp' : p' ∈ φ.written R) :
    ∃ p, φ.held = some p ∧ p.id = p'.id ∧ p.Step p' := by
  have hf := h.facts
  cases φ with
  | finalFlushed p result now =>
    obtain rfl := List.mem_singleton.mp hp'
    exact ⟨p, rfl, rfl, .finalized hf result now⟩
  | deliveredFlushed p status now =>
    obtain rfl := List.mem_singleton.mp hp'
    exact ⟨p, rfl, rfl, .delivered hf.1.isFinal hf.1.wantsWebhook hf.1.undelivered now⟩
  | undeliveredFlushed p answer error =>
    obtain rfl := List.mem_singleton.mp hp'
    exact ⟨p, rfl, rfl, .undelivered hf.1.isFinal hf.1.wantsWebhook hf.1.undelivered _⟩
  | _ => simp [ConsumerPhase.written] at hp'

/-- A written payment is new, or a step from the committed one. -/
theorem Knows.payment_step {φ : Phase} (h : Knows R w t φ) {p p' : Payment}
    (hp' : p' ∈ φ.writtenPayments R) (hp : w.payments.rows p'.id = some p) : p.Step p' := by
  cases φ with
  | api c φ =>
    cases φ with
    | staged fingerprint id messageId occurredAt now =>
      obtain rfl := List.mem_singleton.mp hp'
      have hnone : w.payments.rows id = none := (ApiPhase.Knows.facts h).2.1
      have hsome : w.payments.rows id = some p := hp
      rw [hnone] at hsome
      simp at hsome
    | _ => simp [Phase.writtenPayments, ApiPhase.writtenPayments] at hp'
  | relay φ => simp [Phase.writtenPayments] at hp'
  | consumer m φ =>
    obtain ⟨q, hq, hid, hs⟩ := ConsumerPhase.Knows.step_of_mem_written h hp'
    have hrow := (ConsumerPhase.Knows.held h q hq).row
    rw [hid, hp] at hrow
    rwa [Option.some.inj hrow]

/-- A payment that is written and was not there is the one of a request. -/
theorem Knows.payment_new {φ : Phase} (h : Knows R w t φ) {p' : Payment}
    (hp' : p' ∈ φ.writtenPayments R) (hnone : w.payments.rows p'.id = none) :
    ∃ c fingerprint id messageId occurredAt now,
      φ = .api c (.staged fingerprint id messageId occurredAt now) ∧
      p' = (newPayment c fingerprint id).row now := by
  cases φ with
  | api c φ =>
    cases φ with
    | staged fingerprint id messageId occurredAt now =>
      exact ⟨c, fingerprint, id, messageId, occurredAt, now, rfl, List.mem_singleton.mp hp'⟩
    | _ => simp [Phase.writtenPayments, ApiPhase.writtenPayments] at hp'
  | relay φ => simp [Phase.writtenPayments] at hp'
  | consumer m φ =>
    obtain ⟨q, hq, hid, -⟩ := ConsumerPhase.Knows.step_of_mem_written h hp'
    have hrow := (ConsumerPhase.Knows.held h q hq).row
    rw [hid, hnone] at hrow
    simp at hrow

/-- A note about an eligible row is a step of the row. -/
theorem Mark.step {m : Mark} (h : m.row.publishedAt = none) (hm : m.row.nextRetryAt ≤ m.time) :
    m.row.Step (m.result R) := by
  obtain ⟨row, note⟩ := m
  cases note with
  | published now => exact .published h _
  | postponed error now =>
    have hle : row.nextRetryAt ≤ now := hm
    exact .postponed h _ (hle.trans (Nat.le_add_right _ _))

/-- What the relay writes is a step of a row of the batch. -/
theorem RelayPhase.Knows.step_of_mem_written {φ : RelayPhase} (h : φ.Knows R w t)
    {r' : OutboxMessage} (hr' : r' ∈ φ.written R) :
    ∃ r, r ∈ φ.held ∧ r.id = r'.id ∧ r.Step r' := by
  cases φ with
  | flushed now done todo =>
    obtain ⟨m, hm, rfl⟩ := List.mem_map.mp hr'
    have hmem : m.row ∈ (RelayPhase.flushed now done todo).held :=
      List.mem_append_left _ (List.mem_map_of_mem hm)
    obtain ⟨hn, ht⟩ := h.eligible _ hmem
    exact ⟨m.row, hmem, m.id_result.symm,
      Mark.step hn ((ht now rfl).trans (h.noted m hm now rfl))⟩
  | _ => simp [RelayPhase.written] at hr'

/-- A written outbox message is new, or a step from the committed one. -/
theorem Knows.message_step {φ : Phase} (h : Knows R w t φ) {r r' : OutboxMessage}
    (hr' : r' ∈ φ.writtenMessages R) (hr : w.outbox.rows r'.id = some r) : r.Step r' := by
  cases φ with
  | api c φ =>
    cases φ with
    | staged fingerprint id messageId occurredAt now =>
      obtain rfl := List.mem_singleton.mp hr'
      have hnone : w.outbox.rows messageId = none := (ApiPhase.Knows.facts h).2.2
      have hsome : w.outbox.rows messageId = some r := hr
      rw [hnone] at hsome
      simp at hsome
    | _ => simp [Phase.writtenMessages, ApiPhase.writtenMessages] at hr'
  | relay φ =>
    obtain ⟨q, hq, hid, hs⟩ := RelayPhase.Knows.step_of_mem_written h hr'
    have hrow := (RelayPhase.Knows.held h q hq).row
    rw [hid, hr] at hrow
    rwa [Option.some.inj hrow]
  | consumer m φ => simp [Phase.writtenMessages] at hr'

/-- An outbox message that is written and was not there is the one of a request. -/
theorem Knows.message_new {φ : Phase} (h : Knows R w t φ) {r' : OutboxMessage}
    (hr' : r' ∈ φ.writtenMessages R) (hnone : w.outbox.rows r'.id = none) :
    ∃ c fingerprint id messageId occurredAt now,
      φ = .api c (.staged fingerprint id messageId occurredAt now) ∧
      r' = (newOutboxMessage messageId id occurredAt).row now := by
  cases φ with
  | api c φ =>
    cases φ with
    | staged fingerprint id messageId occurredAt now =>
      exact ⟨c, fingerprint, id, messageId, occurredAt, now, rfl, List.mem_singleton.mp hr'⟩
    | _ => simp [Phase.writtenMessages, ApiPhase.writtenMessages] at hr'
  | relay φ =>
    obtain ⟨q, hq, hid, -⟩ := RelayPhase.Knows.step_of_mem_written h hr'
    have hrow := (RelayPhase.Knows.held h q hq).row
    rw [hid, hnone] at hrow
    simp at hrow
  | consumer m φ => simp [Phase.writtenMessages] at hr'

/-- A payment after a commit: it has moved along its life cycle, or a request has inserted it. -/
theorem Knows.commit_payment {φ : Phase} (h : Knows R w t φ) {id : UUID} {p' : Payment}
    (hp' : (w.payments.commit t).rows id = some p') :
    (∃ p, w.payments.rows id = some p ∧ p.LifeCycle p') ∨
      ∃ c fingerprint messageId occurredAt now,
        φ = .api c (.staged fingerprint id messageId occurredAt now) ∧
        p' = (newPayment c fingerprint id).row now := by
  rcases h.payments.rows_commit_cases hp' with hp | ⟨hmem, rfl⟩
  · exact .inl ⟨p', hp, .refl p'⟩
  · cases hrow : w.payments.rows p'.id with
    | some p => exact .inl ⟨p, rfl, (h.payment_step hmem hrow).lifeCycle⟩
    | none =>
      obtain ⟨c, fingerprint, id, messageId, occurredAt, now, hφ, rfl⟩ := h.payment_new hmem hrow
      exact .inr ⟨c, fingerprint, messageId, occurredAt, now, hφ, rfl⟩

/-- An outbox message after a commit. -/
theorem Knows.commit_message {φ : Phase} (h : Knows R w t φ) {id : UUID} {r' : OutboxMessage}
    (hr' : (w.outbox.commit t).rows id = some r') :
    (∃ r, w.outbox.rows id = some r ∧ r.LifeCycle r') ∨
      ∃ c fingerprint paymentId occurredAt now,
        φ = .api c (.staged fingerprint paymentId id occurredAt now) ∧
        r' = (newOutboxMessage id paymentId occurredAt).row now := by
  rcases h.outbox.rows_commit_cases hr' with hr | ⟨hmem, rfl⟩
  · exact .inl ⟨r', hr, .refl r'⟩
  · cases hrow : w.outbox.rows r'.id with
    | some r => exact .inl ⟨r, rfl, (h.message_step hmem hrow).lifeCycle⟩
    | none =>
      obtain ⟨c, fingerprint, id, messageId, occurredAt, now, hφ, rfl⟩ := h.message_new hmem hrow
      exact .inr ⟨c, fingerprint, id, occurredAt, now, hφ, rfl⟩

/-! ## The steps of others -/

/-- What the other threads see of a step of `t`. -/
structure Seen (t : ℕ) (w w' : World) : Prop where
  clock : w.clock ≤ w'.clock
  payments : w.payments.Step t w'.payments
  outbox : w.outbox.Step t w'.outbox
  evolves : ∀ {id p}, w.payments.rows id = some p →
    ∃ p', w'.payments.rows id = some p' ∧ p.LifeCycle p'

/-- **Committed payments move along their life cycle.** -/
theorem Exec.evolves {o : Op} {r : Res o} {φ : Phase} (h : Exec cfg t o r w w')
    (hk : Knows R w t φ) {id : UUID} {p : Payment} (hp : w.payments.rows id = some p) :
    ∃ p', w'.payments.rows id = some p' ∧ p.LifeCycle p' := by
  rcases h.rows with ⟨hr, -⟩ | ⟨-, hc, -⟩
  · exact ⟨p, by rw [hr, hp], .refl p⟩
  · rw [hc]
    exact hk.payments.evolves Payment.LifeCycle.refl (fun p' hp' q hq =>
      (hk.payment_step hp' hq).lifeCycle) hp

/-- **Committed outbox messages move along their life cycle.** -/
theorem Exec.outbox_evolves {o : Op} {r : Res o} {φ : Phase} (h : Exec cfg t o r w w')
    (hk : Knows R w t φ) {id : UUID} {m : OutboxMessage} (hm : w.outbox.rows id = some m) :
    ∃ m', w'.outbox.rows id = some m' ∧ m.LifeCycle m' := by
  rcases h.rows with ⟨-, hr⟩ | ⟨-, -, hc⟩
  · exact ⟨m, by rw [hr, hm], .refl m⟩
  · rw [hc]
    exact hk.outbox.evolves OutboxMessage.LifeCycle.refl (fun m' hm' q hq =>
      (hk.message_step hm' hq).lifeCycle) hm

theorem Exec.seen {o : Op} {r : Res o} {φ : Phase} (h : Exec cfg t o r w w')
    (hk : Knows R w t φ) : Seen t w w' :=
  ⟨h.clock.ge, h.payments_step, h.outbox_step, h.evolves hk⟩

/-- What stays true of a payment along its life cycle. -/
theorem ConsumerPhase.Known.lifeCycle {φ : ConsumerPhase} {p p' : Payment} (h : φ.Known p)
    (hl : p.LifeCycle p') : φ.Known p' := by
  cases φ with
  | finalCommitted => exact hl.isFinal h
  | finalized => exact hl.isFinal h
  | deliveryCommitted => exact hl.settled h
  | settled => exact hl.settled h
  | _ => trivial

variable {t' : ℕ}

theorem ApiPhase.Facts.frame {c : CreatePaymentCommand} {φ : ApiPhase} (h : φ.Knows R c w t)
    (hs : Seen t' w w') (ht : t ≠ t') : φ.Facts R c w' := by
  have hf := h.facts
  cases φ with
  | idle => trivial
  | failed => trivial
  | found p =>
    obtain ⟨hkey, p', hp', hl⟩ := hf
    obtain ⟨p'', hp'', hl'⟩ := hs.evolves hp'
    exact ⟨hkey, p'', hp'', hl.trans hl'⟩
  | created fingerprint id now =>
    obtain ⟨hfp, p', hp', hl⟩ := hf
    obtain ⟨p'', hp'', hl'⟩ := hs.evolves hp'
    exact ⟨hfp, p'', hp'', hl.trans hl'⟩
  | staged fingerprint id messageId occurredAt now =>
    obtain ⟨hfp, hid, hmid⟩ := hf
    have hp := h.payments id
    have hm := h.outbox messageId
    simp only [writtenPayments, writtenMessages, NewPayment.row, newPayment, NewOutboxMessage.row,
      newOutboxMessage, List.find?_singleton, decide_true, if_true] at hp hm
    exact ⟨hfp, hs.payments.absent_frame ht hp hid, hs.outbox.absent_frame ht hm hmid⟩

/-- **What a thread knows survives the steps of the others.** -/
theorem Knows.frame {φ : Phase} (h : Knows R w t φ) (hs : Seen t' w w') (ht : t ≠ t') :
    Knows R w' t φ := by
  have hp := h.payments.frame hs.payments ht
  have ho := h.outbox.frame hs.outbox ht
  cases φ with
  | api c φ => exact ⟨hp, ho, ApiPhase.Facts.frame h hs ht⟩
  | relay φ =>
    have h : φ.Knows R w t := h
    exact ⟨hp, ho, fun r hr => (h.held r hr).frame hs.outbox ht, h.nodup, h.eligible,
      fun now hn => (h.clock now hn).trans hs.clock, h.noted⟩
  | consumer m φ =>
    have h : φ.Knows R m w t := h
    refine ⟨hp, ho, fun p hp => (h.held p hp).frame hs.payments ht, h.event, h.facts, fun hc => ?_⟩
    obtain ⟨id, p, hid, hrow, hknown⟩ := h.known hc
    obtain ⟨p', hrow', hl⟩ := hs.evolves hrow
    exact ⟨id, p', hid, hrow', hknown.lifeCycle hl⟩

/-! ## A thread's own steps -/

section Step

variable {o : Op} {r : Res o}

theorem ApiPhase.Knows.step {c : CreatePaymentCommand} {φ φ' : ApiPhase} (h : φ.Knows R c w t)
    (hm : ApiMove R c φ o r φ') (hx : Exec cfg t o r w w') : φ'.Knows R c w' t := by
  obtain ⟨hp, ho, hf⟩ := h
  cases hm with
  | now => cases hx; exact ⟨hp, ho, trivial⟩
  | uuid4 => cases hx; exact ⟨hp, ho, trivial⟩
  | missed => cases hx; exact ⟨hp, ho, trivial⟩
  | selectFailed => cases hx; exact ⟨hp, ho, trivial⟩
  | insertFailed => cases hx; exact ⟨hp, ho, trivial⟩
  | found p =>
    cases hx with
    | found hrow hkey => exact ⟨hp, ho, hkey, p, hrow, .refl p⟩
  | inserted hfp id messageId occurredAt now =>
    cases hx with
    | inserted hnow hid hido hmid hmido hkey hkeyo =>
      exact ⟨Table.Wrote.insert hp hid hido, Table.Wrote.insert ho hmid hmido, hfp, hid, hmid⟩
  | committed u =>
    cases hx with
    | committed =>
      refine ⟨Table.wrote_commit, Table.wrote_commit, hf.1, _, ?_, .refl _⟩
      rw [World.payments_commit, hp.rows_commit]
      simp [ApiPhase.writtenPayments, NewPayment.row, newPayment]
  | conflicted e =>
    cases hx with
    | commitFailed => exact ⟨Table.wrote_rollback, Table.wrote_rollback, trivial⟩
  | commitFailed e =>
    cases hx with
    | commitFailed => exact ⟨Table.wrote_rollback, Table.wrote_rollback, trivial⟩
    | commitLost => exact ⟨Table.wrote_commit, Table.wrote_commit, trivial⟩
  | rolledBack hφ =>
    rcases hφ with rfl | rfl | ⟨p, rfl⟩ <;> cases hx with
    | rolledBack => exact ⟨Table.wrote_rollback, Table.wrote_rollback, hf⟩
    | rollbackFailed => exact ⟨hp, ho, hf⟩
  | closed hφ =>
    cases hx with
    | closed =>
      cases φ with
      | staged f id m τ now => exact absurd rfl (hφ f id m τ now)
      | _ => exact ⟨Table.wrote_rollback, Table.wrote_rollback, hf⟩

theorem RelayPhase.knows_closing (hp : w.payments.Wrote t []) (ho : w.outbox.Wrote t []) :
    RelayPhase.closing.Knows R w t :=
  ⟨hp, ho, by simp [RelayPhase.held], by simp [RelayPhase.held], by simp [RelayPhase.held],
    by simp [RelayPhase.time], by simp [RelayPhase.marks]⟩

/-- The next row is dealt with: it moves from the rows to do to those that are done. -/
theorem RelayPhase.held_mark (done : List Mark) (row : OutboxMessage) (note : Note)
    (todo : List OutboxMessage) (now : Time) :
    (RelayPhase.batch now (done ++ [⟨row, note⟩]) todo).held = done.map Mark.row ++ row :: todo := by
  simp [RelayPhase.held]

/-- The next row is noted. -/
theorem RelayPhase.Knows.mark {φ : RelayPhase} (h : φ.Knows R w t) {now : Time} {done : List Mark}
    {row : OutboxMessage} {todo : List OutboxMessage} (hw : φ.written R = [])
    (hheld : φ.held = done.map Mark.row ++ row :: todo) (hmarks : φ.marks = done)
    (htime : φ.time = some now) {note : Note} (hnote : now ≤ Mark.time ⟨row, note⟩) (e : Event) :
    (RelayPhase.batch now (done ++ [⟨row, note⟩]) todo).Knows R (w.record t e) t := by
  have hheld' := (RelayPhase.held_mark done row note todo now).trans hheld.symm
  have houtbox := h.outbox
  have htimes : (RelayPhase.batch now (done ++ [⟨row, note⟩]) todo).time = φ.time := htime.symm
  rw [hw] at houtbox
  refine ⟨h.payments, houtbox, ?_, ?_, ?_, ?_, ?_⟩
  · rw [hheld']
    exact h.held
  · rw [hheld']
    exact h.nodup
  · rw [hheld', htimes]
    exact h.eligible
  · rw [htimes]
    exact h.clock
  · intro m hm τ hτ
    rcases List.mem_append.mp hm with hm | hm
    · exact h.noted m (hmarks ▸ hm) τ (htimes ▸ hτ)
    · obtain rfl := List.mem_singleton.mp hm
      obtain rfl := Option.some.inj hτ
      exact hnote

theorem RelayPhase.Knows.step {limit : ℕ} {φ φ' : RelayPhase} (h : φ.Knows R w t)
    (hm : RelayMove R limit φ o r φ') (hx : Exec cfg t o r w w') : φ'.Knows R w' t := by
  have ⟨hp, ho, hh, hn, he, hc, hs⟩ := h
  cases hm with
  | timed now =>
    cases hx
    exact ⟨hp, ho, by simp [RelayPhase.held], by simp [RelayPhase.held], by simp [RelayPhase.held],
      by simp [RelayPhase.time], by simp [RelayPhase.marks]⟩
  | @batch now rows =>
    cases hx with
    | batch hsel =>
      refine ⟨hp, ho, fun r hr => ?_, ?_, fun r hr => ?_, hc, by simp [RelayPhase.marks]⟩
      · have hr : r ∈ rows := by simpa [RelayPhase.held] using hr
        exact ⟨by simpa using fun hn => absurd rfl (hn r hr), hsel.committed r hr⟩
      · simpa [RelayPhase.held] using hsel.nodup
      · have hr : r ∈ rows := by simpa [RelayPhase.held] using hr
        obtain ⟨hnone, hle⟩ := hsel.eligible r hr
        exact ⟨hnone, by simpa [RelayPhase.time] using hle⟩
  | batchFailed => cases hx; exact knows_closing hp ho
  | confirmed =>
    cases hx
    exact ⟨hp, ho, hh, hn, he, hc, hs⟩
  | postponed =>
    cases hx with
    | confirmationLost => exact ⟨hp, ho, hh, hn, he, hc, hs⟩
    | refused => exact ⟨hp, ho, hh, hn, he, hc, hs⟩
  | markPublished =>
    cases hx
    refine h.mark rfl rfl rfl rfl ?_ _
    exact h.clock _ rfl
  | markPostponed =>
    cases hx
    refine h.mark rfl rfl rfl rfl ?_ _
    exact h.clock _ rfl
  | overflow => cases hx; exact knows_closing Table.wrote_rollback Table.wrote_rollback
  | empty => cases hx; exact knows_closing Table.wrote_rollback Table.wrote_rollback
  | flushed =>
    cases hx with
    | updatedOutbox hl =>
      exact ⟨hp, Table.Wrote.update ho hl, fun r hr => ⟨(hh r hr).lock, (hh r hr).row⟩, hn, he, hc,
        hs⟩
  | flushFailed => cases hx; exact ⟨hp, ho, hh, hn, he, hc, hs⟩
  | unflushedClosed => cases hx; exact knows_closing Table.wrote_rollback Table.wrote_rollback
  | commit =>
    cases hx with
    | committed => exact knows_closing Table.wrote_commit Table.wrote_commit
    | commitLost => exact knows_closing Table.wrote_commit Table.wrote_commit
    | commitFailed => exact knows_closing Table.wrote_rollback Table.wrote_rollback
  | closed => cases hx; exact knows_closing Table.wrote_rollback Table.wrote_rollback

namespace ConsumerPhase

variable {m : Message} {φ φ' : ConsumerPhase}

/-- The phases in which nothing is known. -/
inductive Plain : ConsumerPhase → Prop
  | stopped (error : Exn) : Plain (.stopped error)
  | failed (error : Exn) : Plain (.failed error)
  | attempted (error : Exn) : Plain (.attempted error)
  | requeueing : Plain .requeueing
  | done : Plain .done

theorem Plain.knows (h : φ.Plain) (hp : w.payments.Wrote t []) (ho : w.outbox.Wrote t []) :
    φ.Knows R m w t := by
  have hheld : φ.held = none := by cases h <;> rfl
  have hcommitted : φ.committed = false := by cases h <;> rfl
  exact ⟨by cases h <;> exact hp, ho, by simp [hheld], by simp [hheld], by cases h <;> trivial,
    by simp [hcommitted]⟩

/-- A commit failed: it may have taken effect. -/
theorem Plain.notCommitted (h : φ.Plain) {e : DbError} (hx : Exec cfg t .commit (.error e) w w') :
    φ.Knows R m w' t := by
  cases hx with
  | commitLost => exact h.knows Table.wrote_commit Table.wrote_commit
  | commitFailed => exact h.knows Table.wrote_rollback Table.wrote_rollback

/-- The session is closed. -/
theorem Plain.closed (h : φ.Plain) {u : Unit} (hx : Exec cfg t .close u w w') :
    φ.Knows R m w' t := by
  cases hx with
  | closed => exact h.knows Table.wrote_rollback Table.wrote_rollback

/-- A step that does not touch the database and keeps the payment. -/
theorem Knows.moved (h : φ.Knows R m w t) (hp : w'.payments = w.payments)
    (ho : w'.outbox = w.outbox) (hw : φ'.written R = φ.written R) (hh : φ'.held = φ.held)
    (hf : φ'.Facts) (hc : φ'.committed = false) : φ'.Knows R m w' t :=
  ⟨by rw [hp, hw]; exact h.payments, ho ▸ h.outbox, by rw [hp, hh]; exact h.held,
    by rw [hh]; exact h.event, hf, by simp [hc]⟩

/-- The session is closed after a commit, and the payment stays known. -/
theorem Knows.finished (h : φ.Knows R m w t) (hcommitted : φ.committed)
    (hknown : ∀ {p}, φ.Known p → φ'.Known p) (hw' : φ'.written R = []) (hh' : φ'.held = none)
    (hf : φ'.Facts) {u : Unit} (hx : Exec cfg t .close u w w') : φ'.Knows R m w' t := by
  cases hx with
  | closed =>
    obtain ⟨id, p, hid, hrow, hk⟩ := h.known hcommitted
    exact ⟨hw' ▸ Table.wrote_rollback, Table.wrote_rollback, by simp [hh'], by simp [hh'], hf,
      fun _ => ⟨id, p, hid, hrow, hknown hk⟩⟩

/-- The payment of the event is locked. -/
theorem Knows.locked (h : φ.Knows R m w t) (hw : φ.written R = []) {p : Payment}
    (hp : eventPayment R m = some p.id) (hfree : w.payments.Free t p.id)
    (hrow : w.payments.rows p.id = some p) (hw' : φ'.written R = []) (hh : φ'.held = some p)
    (hf : φ'.Facts) (hc : φ'.committed = false) :
    φ'.Knows R m { w with
      payments := w.payments.acquire t [p.id] (by simpa using hfree) (by simp [hrow]) } t := by
  refine ⟨?_, h.outbox, ?_, ?_, hf, by simp [hc]⟩
  · rw [hw']
    exact Table.Wrote.acquire (hw ▸ h.payments) (by simpa using hfree) (by simp [hrow])
  · intro q hq
    obtain rfl : p = q := by simpa [hh] using hq
    exact ⟨by simp, hrow⟩
  · intro q hq
    obtain rfl : p = q := by simpa [hh] using hq
    exact hp

/-- The locked payment is written. -/
theorem Knows.updated (h : φ.Knows R m w t) (hw : φ.written R = []) {p : Payment}
    (hl : w.payments.lock p.id = some t) (hw' : φ'.written R = [p]) (hh : φ'.held = φ.held)
    (hf : φ'.Facts) (hc : φ'.committed = false) :
    φ'.Knows R m { w with payments := w.payments.update t [p] (by simpa using hl) } t := by
  refine ⟨?_, h.outbox, ?_, by rw [hh]; exact h.event, hf, by simp [hc]⟩
  · rw [hw']
    exact Table.Wrote.update (hw ▸ h.payments) (by simpa using hl)
  · intro q hq
    obtain ⟨hlock, hrow⟩ := h.held q (hh ▸ hq)
    exact ⟨hlock, hrow⟩

/-- What was written is committed. -/
theorem Knows.commit (h : φ.Knows R m w t) {p p' : Payment} (hh : φ.held = some p)
    (hw : φ.written R = [p']) (hid : p'.id = p.id) (hw' : φ'.written R = []) (hh' : φ'.held = none)
    (hf : φ'.Facts) (hk : φ'.Known p') : φ'.Knows R m (w.commit t) t := by
  refine ⟨hw' ▸ Table.wrote_commit, Table.wrote_commit, by simp [hh'], by simp [hh'], hf, fun _ => ?_⟩
  refine ⟨p.id, p', h.event p hh, ?_, hk⟩
  rw [World.payments_commit, h.payments.rows_commit, hw]
  simp [hid]

end ConsumerPhase

theorem classify_ok_iff {status : ℕ} :
    classify (.ok status) = .ok () ↔ 200 ≤ status ∧ status < 300 := by
  simp only [classify]
  split
  · simp_all
  · split <;> simp_all

theorem ConsumerPhase.Knows.step {m : Message} {φ φ' : ConsumerPhase} (h : φ.Knows R m w t)
    (hm : ConsumerMove R cfg m φ o r φ') (hx : Exec cfg t o r w w') : φ'.Knows R m w' t := by
  have hw := h.payments
  have ho := h.outbox
  have hf := h.facts
  cases hm with
  | malformed => cases hx; exact h.moved rfl rfl rfl rfl trivial rfl
  | malformedFailed => cases hx <;> exact h.moved rfl rfl rfl rfl trivial rfl
  | opened hid p =>
    cases hx with
    | locked hfree hrow => exact h.locked rfl hid hfree hrow rfl rfl trivial rfl
  | missing => cases hx; exact h.moved rfl rfl rfl rfl trivial rfl
  | openFailed => cases hx; exact h.moved rfl rfl rfl rfl trivial rfl
  | @alreadyFinal p hne =>
    cases hx with
    | closed =>
      obtain ⟨hlock, hrow⟩ := h.held p rfl
      refine ⟨Table.wrote_rollback, Table.wrote_rollback, by simp [ConsumerPhase.held],
        by simp [ConsumerPhase.held], trivial, fun _ => ⟨p.id, p, h.event p rfl, hrow, ?_⟩⟩
      simpa [ConsumerPhase.Known, PaymentStatus.isFinal] using hne
  | charging hpending => cases hx; exact h.moved rfl rfl rfl rfl hpending rfl
  | charged => cases hx; exact h.moved rfl rfl rfl rfl hf rfl
  | chargeFailed =>
    cases hx
    exact ConsumerPhase.Plain.knows (.stopped _) hw ho
  | chargedAt => cases hx; exact h.moved rfl rfl rfl rfl hf rfl
  | finalFlushed =>
    cases hx with
    | updatedPayment hl => exact h.updated rfl hl rfl rfl hf rfl
  | chargeLost => cases hx; exact h.moved rfl rfl rfl rfl hf rfl
  | @finalCommitted p result now =>
    cases hx with
    | committed => exact h.commit (p := p) rfl rfl rfl rfl rfl trivial result.isFinal
  | finalNotCommitted => exact ConsumerPhase.Plain.notCommitted (.stopped _) hx
  | chargeLostClosed => exact ConsumerPhase.Plain.closed (.failed _) hx
  | finalClosed => exact h.finished rfl id rfl rfl trivial hx
  | reopened hid p =>
    cases hx with
    | locked hfree hrow =>
      obtain ⟨id, q, hid', hrow', hk⟩ := h.known rfl
      obtain rfl : p.id = id := by simpa [hid] using hid'
      obtain rfl : p = q := by simpa [hrow] using hrow'
      exact h.locked rfl hid hfree hrow rfl rfl hk rfl
  | missingAgain =>
    cases hx
    exact ConsumerPhase.Plain.knows (.stopped _) hw ho
  | reopenFailed =>
    cases hx
    exact ConsumerPhase.Plain.knows (.stopped _) hw ho
  | @nothingToSend p hn =>
    cases hx with
    | committed =>
      obtain ⟨hlock, hrow⟩ := h.held p rfl
      refine ⟨Table.wrote_commit, Table.wrote_commit, by simp [ConsumerPhase.held],
        by simp [ConsumerPhase.held], trivial, fun _ => ⟨p.id, p, h.event p rfl, ?_, hf, hn⟩⟩
      rw [World.payments_commit, hw.rows_commit, hrow]
      rfl
  | nothingToSendFailed => exact ConsumerPhase.Plain.notCommitted (.stopped _) hx
  | sending hwants hd => cases hx; exact h.moved rfl rfl rfl rfl ⟨hf, hwants, hd⟩ rfl
  | delivered hok => cases hx; exact h.moved rfl rfl rfl rfl ⟨hf, hok⟩ rfl
  | undelivered herr => cases hx <;> exact h.moved rfl rfl rfl rfl ⟨hf, herr⟩ rfl
  | deliveredAt => cases hx; exact h.moved rfl rfl rfl rfl hf rfl
  | deliveredFlushed =>
    cases hx with
    | updatedPayment hl => exact h.updated rfl hl rfl rfl hf rfl
  | deliveryLost => cases hx; exact h.moved rfl rfl rfl rfl hf rfl
  | @deliveryCommitted p status now =>
    cases hx with
    | committed =>
      exact h.commit (p := p) rfl rfl rfl rfl rfl trivial ⟨hf.1.isFinal, .inr rfl⟩
  | deliveryNotCommitted => exact ConsumerPhase.Plain.notCommitted (.stopped _) hx
  | deliveryLostClosed => exact ConsumerPhase.Plain.closed (.failed _) hx
  | undeliveredFlushed =>
    cases hx with
    | updatedPayment hl => exact h.updated rfl hl rfl rfl hf rfl
  | undeliveredNotFlushed =>
    cases hx
    exact ConsumerPhase.Plain.knows (.stopped _) hw ho
  | attempted =>
    cases hx
    exact ConsumerPhase.Plain.knows (.attempted _) Table.wrote_commit Table.wrote_commit
  | attemptNotCommitted => exact ConsumerPhase.Plain.notCommitted (.stopped _) hx
  | attemptedClosed => exact ConsumerPhase.Plain.closed (.failed _) hx
  | deliveryClosed => exact h.finished rfl id rfl rfl trivial hx
  | stoppedClosed => exact ConsumerPhase.Plain.closed (.failed _) hx
  | acked => cases hx; exact ConsumerPhase.Plain.knows .done hw ho
  | ackFailed => cases hx <;> exact ConsumerPhase.Plain.knows .requeueing hw ho
  | routed => cases hx; exact h.moved rfl rfl rfl rfl trivial rfl
  | notRouted => cases hx <;> exact h.moved rfl rfl rfl rfl trivial rfl
  | routedAcked => cases hx; exact h.moved rfl rfl rfl rfl trivial rfl
  | routedAckFailed => cases hx <;> exact h.moved rfl rfl rfl rfl trivial rfl
  | requeued => cases hx <;> exact h.moved rfl rfl rfl rfl trivial rfl

/-- **What a thread knows after its own step.** -/
theorem Knows.step {φ φ' : Phase} (h : Knows R w t φ) (hm : Move R cfg φ o r φ')
    (hx : Exec cfg t o r w w') : Knows R w' t φ' := by
  cases hm with
  | api hm => exact ApiPhase.Knows.step h hm hx
  | relay hm => exact RelayPhase.Knows.step h hm hx
  | consumer hm => exact ConsumerPhase.Knows.step h hm hx

end Step

end Payments
