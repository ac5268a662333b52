import PaymentProcessing.Broker.Topology
import PaymentProcessing.Foundations.Store.Journal
import PaymentProcessing.Foundations.Store.Table
import PaymentProcessing.System.Operations

/-!
# The world of the service

What the processes of the service act on: the clock, the two tables of the database, the broker, the
gateway and the webhooks of the clients. `Exec` says what may come of an operation: it may succeed,
fail, or take effect and fail all the same, and a lock that is taken makes it wait, which is to say
that it has no outcome yet.

The journal is a history of what happened. No process reads it.
-/

namespace Payments

open Effects Python Store

/-! ## The state -/

/-- What became of a publication: it was confirmed, it reached the broker but the confirmation was
lost, or it did not reach the broker. -/
inductive PublishOutcome
  | confirmed
  | lost
  | refused
  deriving DecidableEq

/-- What the history records. -/
inductive Event
  /-- A process read the clock. -/
  | read (now : Time)
  | inserted (t : ℕ) (paymentId : UUID)
  /-- A commit took effect, but its caller got an exception. -/
  | commitLost (t : ℕ)
  | called (charge : Charge)
  | charged (charge : Charge) (result : GatewayResult)
  | posted (request : WebhookRequest)
  | answered (request : WebhookRequest) (status : ℕ)
  | published (publication : Publication) (outcome : PublishOutcome)

/-- A message inside the broker. -/
structure Envelope where
  message : Message
  /-- The message as the relay first published it; `none` if it came from elsewhere. -/
  origin : Option Message
  /-- The exception it was routed for last. -/
  cause : Option Exn

/-- The broker. -/
structure Broker where
  /-- The messages ready in a queue. -/
  queues : String → List Envelope
  /-- The message delivered to a thread. -/
  delivered : ℕ → Option Envelope
  /-- The delivery has not been settled. -/
  unacked : ℕ → Bool

/-- The table `payments`. -/
abbrev PaymentTable : Type := Table UUID Payment Payment.id

/-- The table `outbox_messages`. -/
abbrev OutboxTable : Type := Table UUID OutboxMessage OutboxMessage.id

/-- The world. -/
structure World where
  clock : Time
  payments : PaymentTable
  outbox : OutboxTable
  broker : Broker
  journal : Journal Event

namespace Broker

variable (B : Broker)

/-- Put a message into queues. -/
def accept (names : List String) (e : Envelope) : Broker :=
  { B with queues := fun q => B.queues q ++ List.replicate (names.count q) e }

/-- A message given to thread `t` leaves its queue. -/
def deliver (t : ℕ) (e : Envelope) (rest : List Envelope) : Broker where
  queues := Function.update B.queues paymentsNewQueueName rest
  delivered := Function.update B.delivered t (some e)
  unacked := Function.update B.unacked t true

/-- The delivery of `t` is settled. -/
def settle (t : ℕ) : Broker := { B with unacked := Function.update B.unacked t false }

/-- The message of an unsettled delivery is ready again. -/
def requeue (t : ℕ) : Broker :=
  match B.delivered t with
  | some e => if B.unacked t then (B.accept [paymentsNewQueueName] e).settle t else B
  | none => B

/-- A message changes queues. -/
def move (name : String) (rest : List Envelope) (names : List String) (e : Envelope) : Broker :=
  { B with queues := Function.update B.queues name rest }.accept names e

end Broker

namespace World

variable (w : World) (t : ℕ)

/-- Thread `t` adds an event to the history. -/
def record (e : Event) : World := { w with journal := w.journal.record t e }

/-- The transaction of `t` takes effect. -/
def commit : World :=
  { w with
    payments := w.payments.commit t
    outbox := w.outbox.commit t
    journal := w.journal.commit t }

/-- The transaction of `t` is undone. -/
def rollback : World :=
  { w with
    payments := w.payments.rollback t
    outbox := w.outbox.rollback t
    journal := w.journal.abort t }

/-- A publication of thread `t` reaches the queues it is routed to. -/
def accept (cfg : Settings) (p : Publication) : World :=
  let origin := (w.broker.delivered t).elim (some p.message) Envelope.origin
  let names := (route cfg p.exchange p.routingKey).map RabbitQueue.name
  { w with broker := w.broker.accept names ⟨p.message, origin, p.cause⟩ }

end World

/-! ## Outcomes -/

/-- Rows the relay may take: eligible, not locked, within the limit and in the order of creation. A
row that is locked when the query comes across it is skipped, so others may be missing. -/
structure Selected (T : OutboxTable) (limit : ℕ) (now : Time) (rows : List OutboxMessage) : Prop where
  nodup : (rows.map OutboxMessage.id).Nodup
  sorted : rows.Pairwise fun r r' => r.createdAt ≤ r'.createdAt
  limit : rows.length ≤ limit
  committed : ∀ r ∈ rows, T.rows r.id = some r
  unlocked : ∀ r ∈ rows, T.lock r.id = none
  eligible : ∀ r ∈ rows, r.publishedAt = none ∧ r.nextRetryAt ≤ now

variable (cfg : Settings)

/-- **What may come of an operation** of thread `t`. -/
inductive Exec (t : ℕ) : (o : Op) → Res o → World → World → Prop
  | now (w : World) : Exec t .now w.clock w (w.record t (.read w.clock))
  | uuid4 (w : World) (id : UUID) : Exec t .uuid4 id w w
  | found {w : World} {key : Str} {p : Payment} (h : w.payments.rows p.id = some p)
      (hkey : p.idempotencyKey = key) :
      Exec t (.selectByIdempotencyKey key) (.ok (some p)) w w
  | notFound {w : World} {key : Str}
      (h : ∀ id p, w.payments.rows id = some p → p.idempotencyKey ≠ key) :
      Exec t (.selectByIdempotencyKey key) (.ok none) w w
  | selectFailed (w : World) (key : Str) (e : DbError) :
      Exec t (.selectByIdempotencyKey key) (.error e) w w
  /-- Both rows are new, and no other row has the key, be it committed or not. -/
  | inserted {w : World} {p : NewPayment} {m : NewOutboxMessage} {now : Time} (hnow : now ≤ w.clock)
      (hp : w.payments.rows p.id = none) (hpo : ∀ t' ≠ t, w.payments.pending t' p.id = none)
      (hm : w.outbox.rows m.id = none) (hmo : ∀ t' ≠ t, w.outbox.pending t' m.id = none)
      (hkey : ∀ id p', w.payments.rows id = some p' → p'.idempotencyKey ≠ p.idempotencyKey)
      (hkeyo : ∀ t' ≠ t, ∀ id p', w.payments.pending t' id = some p' →
        p'.idempotencyKey ≠ p.idempotencyKey) :
      Exec t (.insert p m) (.ok now) w
        { w.record t (.inserted t p.id) with
          payments := w.payments.insert t (p.row now) hp hpo
          outbox := w.outbox.insert t (m.row now) hm hmo }
  | insertFailed (w : World) (p : NewPayment) (m : NewOutboxMessage) (e : DbError) :
      Exec t (.insert p m) (.error e) w w
  | locked {w : World} {p : Payment} (hfree : w.payments.Free t p.id)
      (h : w.payments.rows p.id = some p) :
      Exec t (.selectForUpdate p.id) (.ok (some p)) w
        { w with payments := w.payments.acquire t [p.id] (by simpa using hfree) (by simp [h]) }
  | missing {w : World} {id : UUID} (h : w.payments.rows id = none) :
      Exec t (.selectForUpdate id) (.ok none) w w
  | lockFailed (w : World) (id : UUID) (e : DbError) : Exec t (.selectForUpdate id) (.error e) w w
  | batch {w : World} {limit : ℕ} {now : Time} {rows : List OutboxMessage}
      (h : Selected w.outbox limit now rows) :
      Exec t (.selectBatchForUpdate limit now) (.ok rows) w
        { w with
          outbox := w.outbox.acquire t (rows.map OutboxMessage.id)
            (by simpa using fun r hr => .inl (h.unlocked r hr))
            (by simpa using fun r hr => by rw [h.committed r hr]; rfl) }
  | batchFailed (w : World) (limit : ℕ) (now : Time) (e : DbError) :
      Exec t (.selectBatchForUpdate limit now) (.error e) w w
  | updatedPayment {w : World} {p : Payment} (h : w.payments.lock p.id = some t) :
      Exec t (.updatePayment p) (.ok ()) w
        { w with payments := w.payments.update t [p] (by simpa using h) }
  | updatePaymentFailed (w : World) (p : Payment) (e : DbError) :
      Exec t (.updatePayment p) (.error e) w w
  | updatedOutbox {w : World} {rows : List OutboxMessage}
      (h : ∀ r ∈ rows, w.outbox.lock r.id = some t) :
      Exec t (.updateOutbox rows) (.ok ()) w { w with outbox := w.outbox.update t rows h }
  | updateOutboxFailed (w : World) (rows : List OutboxMessage) (e : DbError) :
      Exec t (.updateOutbox rows) (.error e) w w
  | committed (w : World) : Exec t .commit (.ok ()) w (w.commit t)
  /-- The commit took effect and the answer was lost; an `IntegrityError` is an answer. -/
  | commitLost (w : World) (e : ForeignError) :
      Exec t .commit (.error (.foreign e)) w ((w.record t (.commitLost t)).commit t)
  | commitFailed (w : World) (e : DbError) : Exec t .commit (.error e) w (w.rollback t)
  | rolledBack (w : World) : Exec t .rollback (.ok ()) w (w.rollback t)
  | rollbackFailed (w : World) (e : DbError) : Exec t .rollback (.error e) w w
  | closed (w : World) : Exec t .close () w (w.rollback t)
  | called (w : World) (c : Charge) : Exec t (.gatewayCall c) () w (w.record t (.called c))
  | charged (w : World) (c : Charge) (r : GatewayResult) :
      Exec t (.gatewayReturn c) (.ok r) w (w.record t (.charged c r))
  | chargeFailed (w : World) (c : Charge) (e : ForeignError) :
      Exec t (.gatewayReturn c) (.error e) w w
  | posted (w : World) (q : WebhookRequest) : Exec t (.httpPost q) () w (w.record t (.posted q))
  | answered (w : World) (q : WebhookRequest) (status : ℕ) :
      Exec t (.httpResponse q) (.ok status) w (w.record t (.answered q status))
  | unanswered (w : World) (q : WebhookRequest) (e : HttpError) :
      Exec t (.httpResponse q) (.error e) w w
  | confirmed (w : World) (p : Publication) :
      Exec t (.publish p) (.ok ()) w ((w.accept t cfg p).record t (.published p .confirmed))
  | confirmationLost (w : World) (p : Publication) (e : ForeignError) :
      Exec t (.publish p) (.error e) w ((w.accept t cfg p).record t (.published p .lost))
  | refused (w : World) (p : Publication) (e : ForeignError) :
      Exec t (.publish p) (.error e) w (w.record t (.published p .refused))
  | acked {w : World} (h : w.broker.unacked t = true) :
      Exec t .ack (.ok ()) w { w with broker := w.broker.settle t }
  | ackLost {w : World} (h : w.broker.unacked t = true) (e : ForeignError) :
      Exec t .ack (.error e) w { w with broker := w.broker.settle t }
  | ackFailed (w : World) (e : ForeignError) : Exec t .ack (.error e) w w
  | nacked {w : World} (h : w.broker.unacked t = true) :
      Exec t .nack (.ok ()) w { w with broker := w.broker.requeue t }
  | nackLost {w : World} (h : w.broker.unacked t = true) (e : ForeignError) :
      Exec t .nack (.error e) w { w with broker := w.broker.requeue t }
  | nackFailed (w : World) (e : ForeignError) : Exec t .nack (.error e) w w

/-! ## Reading the state back -/

namespace World

variable (w : World) (t : ℕ) (e : Event) (p : Publication)

@[simp] theorem clock_record : (w.record t e).clock = w.clock := rfl
@[simp] theorem payments_record : (w.record t e).payments = w.payments := rfl
@[simp] theorem outbox_record : (w.record t e).outbox = w.outbox := rfl
@[simp] theorem broker_record : (w.record t e).broker = w.broker := rfl
@[simp] theorem journal_record : (w.record t e).journal = w.journal.record t e := rfl
@[simp] theorem clock_commit : (w.commit t).clock = w.clock := rfl
@[simp] theorem payments_commit : (w.commit t).payments = w.payments.commit t := rfl
@[simp] theorem outbox_commit : (w.commit t).outbox = w.outbox.commit t := rfl
@[simp] theorem broker_commit : (w.commit t).broker = w.broker := rfl
@[simp] theorem journal_commit : (w.commit t).journal = w.journal.commit t := rfl
@[simp] theorem clock_rollback : (w.rollback t).clock = w.clock := rfl
@[simp] theorem payments_rollback : (w.rollback t).payments = w.payments.rollback t := rfl
@[simp] theorem outbox_rollback : (w.rollback t).outbox = w.outbox.rollback t := rfl
@[simp] theorem broker_rollback : (w.rollback t).broker = w.broker := rfl
@[simp] theorem journal_rollback : (w.rollback t).journal = w.journal.abort t := rfl
@[simp] theorem clock_accept : (w.accept t cfg p).clock = w.clock := rfl
@[simp] theorem payments_accept : (w.accept t cfg p).payments = w.payments := rfl
@[simp] theorem outbox_accept : (w.accept t cfg p).outbox = w.outbox := rfl
@[simp] theorem journal_accept : (w.accept t cfg p).journal = w.journal := rfl

end World

/-! ## What an operation can do to the database -/

section Database

variable {cfg} {w w' : World} {t : ℕ} {o : Op} {r : Res o}

theorem Exec.payments_step (h : Exec cfg t o r w w') : w.payments.Step t w'.payments := by
  cases h with
  | inserted _ hp hpo => exact .insert _ hp hpo
  | locked hfree h => exact .acquire _ (by simpa using hfree) (by simp [h])
  | updatedPayment h => exact .update _ (by simpa using h)
  | committed => exact .commit _
  | commitLost => exact .commit _
  | commitFailed => exact .rollback _
  | rolledBack => exact .rollback _
  | closed => exact .rollback _
  | _ => exact .keep _

theorem Exec.outbox_step (h : Exec cfg t o r w w') : w.outbox.Step t w'.outbox := by
  cases h with
  | inserted _ _ _ hm hmo => exact .insert _ hm hmo
  | batch h =>
    exact .acquire _ (by simpa using fun r hr => .inl (h.unlocked r hr))
      (by simpa using fun r hr => by rw [h.committed r hr]; rfl)
  | updatedOutbox h => exact .update _ h
  | committed => exact .commit _
  | commitLost => exact .commit _
  | commitFailed => exact .rollback _
  | rolledBack => exact .rollback _
  | closed => exact .rollback _
  | _ => exact .keep _

theorem Exec.clock (h : Exec cfg t o r w w') : w'.clock = w.clock := by
  cases h <;> rfl

/-- **Committed rows change by commits only**, and all that a transaction wrote is committed
together. -/
theorem Exec.rows (h : Exec cfg t o r w w') :
    (w'.payments.rows = w.payments.rows ∧ w'.outbox.rows = w.outbox.rows) ∨
    (o = .commit ∧ w'.payments = w.payments.commit t ∧ w'.outbox = w.outbox.commit t) := by
  cases h with
  | committed => exact .inr ⟨rfl, rfl, rfl⟩
  | commitLost => exact .inr ⟨rfl, rfl, rfl⟩
  | _ => exact .inl ⟨rfl, rfl⟩

end Database

end Payments
