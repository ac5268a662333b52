import PaymentProcessing.System.Batch
import PaymentProcessing.System.Calm
import PaymentProcessing.System.Copies
import PaymentProcessing.System.LifeCycle
import PaymentProcessing.System.Progress

/-!
# One thread at a time

What a call of the relay and a delivery can come to when no other thread has a transaction open
(`AtRest`) and nothing fails: a batch is published (`publishPendingBatch_possible`), a payment is
settled (`handleDelivery_possible`), a message that says nothing about a payment there is goes to
the dead-letter queue, and one whose counter cannot be read is left alone.
-/

namespace Payments

open Effects Python Store

variable {R : Runtime} {cfg : Settings}

/-! ## Nobody else -/

/-- Without locks the query of the relay returns the first eligible rows. -/
def InOrder (w : World) : (o : Op) → Res o → Prop
  | .selectBatchForUpdate limit now, .ok rows => (∀ id, w.outbox.lock id = none) →
    First OutboxMessage.createdAt (eligible w.outbox now) limit rows
  | _, _ => True

/-- What thread `t` may do in an orderly run. -/
def ExecInOrder (cfg : Settings) (t : ℕ) (o : Op) (r : Res o) (w w' : World) : Prop :=
  Exec cfg t o r w w' ∧ InOrder w o r

/-- No transaction is open. -/
structure AtRest (w : World) : Prop where
  payments : ∀ id, w.payments.lock id = none
  outbox : ∀ id, w.outbox.lock id = none
  wrote : ∀ t, w.payments.Wrote t [] ∧ w.outbox.Wrote t []

/-- A session that did nothing is closed. -/
theorem AtRest.rollback {w : World} (h : AtRest w) (t : ℕ) : AtRest (w.rollback t) where
  payments id := by
    change w.payments.released t id = none
    simp [Table.released, h.payments id]
  outbox id := by
    change w.outbox.released t id = none
    simp [Table.released, h.outbox id]
  wrote t' := by
    by_cases ht : t' = t
    · subst ht
      exact ⟨Table.wrote_rollback, Table.wrote_rollback⟩
    · exact ⟨(h.wrote t').1.frame (.rollback _) ht, (h.wrote t').2.frame (.rollback _) ht⟩

/-! ## Working on a payment -/

/-- Thread `t` works on payment `id`, which is `p` now, and has locked and written these; everything
else is as in `w₀`, and nobody else has a transaction open. -/
structure Handling (t : ℕ) (id : UUID) (w₀ : World) (p : Payment) (lock : Option ℕ)
    (written : List Payment) (w : World) : Prop where
  key : p.id = id
  row : w.payments.rows id = some p
  lock : w.payments.lock id = lock
  free : ∀ id', id' ≠ id → w.payments.lock id' = none
  wrote : w.payments.Wrote t written
  others : ∀ id', id' ≠ id → w.payments.rows id' = w₀.payments.rows id'
  outbox : w.outbox.rows = w₀.outbox.rows
  unlocked : ∀ messageId, w.outbox.lock messageId = none
  idle : w.outbox.Wrote t []
  elsewhere : ∀ t', t' ≠ t → w.payments.Wrote t' [] ∧ w.outbox.Wrote t' []
  broker : w.broker = w₀.broker
  log : ∀ e ∈ w₀.journal.log, e ∈ w.journal.log

namespace Handling

variable {t : ℕ} {id : UUID} {w₀ w : World} {p p' : Payment} {lock : Option ℕ}
  {written : List Payment}

/-- A thread begins to work on a payment. -/
theorem begin (h : AtRest w) (t : ℕ) (hp : w.payments.rows id = some p) :
    Handling t id w p none [] w :=
  ⟨w.payments.key_rows hp, hp, h.payments id, fun id' _ => h.payments id', (h.wrote t).1,
    fun _ _ => rfl, rfl, h.outbox, (h.wrote t).2, fun t' _ => h.wrote t', rfl, fun _ he => he⟩

/-- A thread has ended its work on a payment. -/
theorem atRest (h : Handling t id w₀ p none [] w) : AtRest w where
  payments id' := by
    by_cases hid : id' = id
    · subst hid
      exact h.lock
    · exact h.free id' hid
  outbox := h.unlocked
  wrote t' := by
    by_cases ht : t' = t
    · subst ht
      exact ⟨h.wrote, h.idle⟩
    · exact h.elsewhere t' ht

/-- One transaction after another. -/
theorem trans {w' : World} (h : Handling t id w₀ p none [] w)
    (h' : Handling t id w p' none [] w') : Handling t id w₀ p' none [] w' :=
  ⟨h'.key, h'.row, h'.lock, h'.free, h'.wrote,
    fun id' hid => (h'.others id' hid).trans (h.others id' hid), h'.outbox.trans h.outbox,
    h'.unlocked, h'.idle, h'.elsewhere, h'.broker.trans h.broker, fun e he => h'.log e (h.log e he)⟩

theorem record (h : Handling t id w₀ p lock written w) (e : Event) :
    Handling t id w₀ p lock written (w.record t e) :=
  ⟨h.key, h.row, h.lock, h.free, h.wrote, h.others, h.outbox, h.unlocked, h.idle, h.elsewhere,
    h.broker, fun e' he => List.mem_cons_of_mem e (h.log e' he)⟩

variable (cfg) in
theorem select (h : Handling t id w₀ p none [] w) :
    ∃ w', Exec cfg t (.selectForUpdate id) (.ok (some p)) w w' ∧
      Handling t id w₀ p (some t) [] w' := by
  obtain ⟨rfl, hrow, hlock, hfree, hwrote, hothers, hout, hunlocked, hidle, helse, hbroker, hlog⟩ := h
  refine ⟨_, .locked (.inl hlock) hrow, rfl, hrow, by simp, fun id' hid => ?_, hwrote, hothers, hout,
    hunlocked, hidle, helse, hbroker, hlog⟩
  simpa [hid] using hfree id' hid

variable (cfg) in
theorem update (h : Handling t id w₀ p (some t) [] w) (hid : p'.id = id) :
    ∃ w', Exec cfg t (.updatePayment p') (.ok ()) w w' ∧
      Handling t id w₀ p (some t) [p'] w' := by
  have hl : ∀ r ∈ [p'], w.payments.lock r.id = some t := by
    simpa [hid] using h.lock
  refine ⟨_, .updatedPayment (hl p' (by simp)), h.key, h.row, h.lock, h.free, h.wrote.update hl,
    h.others, h.outbox, h.unlocked, h.idle, fun t' ht => ?_, h.broker, h.log⟩
  exact ⟨(h.elsewhere t' ht).1.frame (.update _ hl) ht, (h.elsewhere t' ht).2⟩

/-- A transaction of one payment takes effect. -/
theorem commit (h : Handling t id w₀ p (some t) written w) (hid : p'.id = id)
    (hwritten : written = [p'] ∨ (written = [] ∧ p' = p)) :
    Handling t id w₀ p' none [] (w.commit t) := by
  refine ⟨hid, ?_, if_pos h.lock, fun id' hne => ?_, Table.wrote_commit, fun id' hne => ?_, ?_,
    fun messageId => ?_, Table.wrote_commit, fun t' ht => ?_, h.broker, h.log⟩
  · refine (h.wrote.rows_commit id).trans ?_
    rcases hwritten with rfl | ⟨rfl, rfl⟩
    · simp [hid]
    · simpa using h.row
  · change w.payments.released t id' = none
    simp [Table.released, h.free id' hne]
  · refine ((h.wrote.rows_commit id').trans ?_).trans (h.others id' hne)
    rcases hwritten with rfl | ⟨rfl, rfl⟩
    · simp [hid, hne.symm]
    · simp
  · refine Eq.trans (funext fun messageId => ?_) h.outbox
    simpa using h.idle.rows_commit messageId
  · change w.outbox.released t messageId = none
    simp [Table.released, h.unlocked messageId]
  · exact ⟨(h.elsewhere t' ht).1.frame (.commit _) ht, (h.elsewhere t' ht).2.frame (.commit _) ht⟩

/-- A transaction ends. -/
theorem close (h : Handling t id w₀ p lock written w) (hl : lock = none ∨ lock = some t) :
    Handling t id w₀ p none [] (w.rollback t) := by
  refine ⟨h.key, h.row, ?_, fun id' hne => ?_, Table.wrote_rollback, h.others, h.outbox,
    fun messageId => ?_, Table.wrote_rollback, fun t' ht => ?_, h.broker, h.log⟩
  · change w.payments.released t id = none
    unfold Table.released
    rcases hl with rfl | rfl <;> simp [show w.payments.lock id = _ from h.lock]
  · change w.payments.released t id' = none
    simp [Table.released, h.free id' hne]
  · change w.outbox.released t messageId = none
    simp [Table.released, h.unlocked messageId]
  · exact ⟨(h.elsewhere t' ht).1.frame (.rollback _) ht,
      (h.elsewhere t' ht).2.frame (.rollback _) ht⟩

end Handling

section Code

variable {t : ℕ} {id : UUID} {w₀ w : World} {p : Payment}

/-- The first transaction can bring the payment to a final status. -/
theorem finalizePayment_possible (h : Handling t id w₀ p none [] w) :
    (finalizePayment id).wp (.possible (ExecInOrder cfg t))
      (fun _ w' => ∃ p', p'.status.isFinal ∧ p.SameNotifications p' ∧
        (p.status = .pending → .called p.charge ∈ w'.journal.log) ∧
        Handling t id w₀ p' none [] w')
      (fun _ _ => False) w := by
  rw [finalizePayment, Action.wp_within, Action.wp_bind]
  obtain ⟨w, hx, h⟩ := h.select cfg
  refine wp_ask_ok ⟨_, _, ⟨hx, trivial⟩, _, rfl, ?_⟩
  dsimp only
  by_cases hs : p.status = .pending
  · rw [if_neg (not_not.mpr hs), charge]
    simp only [Action.wp_bind]
    refine ⟨_, _, ⟨.called _ _, trivial⟩, wp_ask_ok ⟨_, _, ⟨.charged _ _ default, trivial⟩, _, rfl, ?_⟩⟩
    refine ⟨_, _, ⟨.now _, trivial⟩, ?_⟩
    have h := ((h.record (.called p.charge)).record (.charged p.charge default)).record
      (.read w.clock)
    have hid : (p.finalized default w.clock).id = id := h.key
    obtain ⟨w', hx, h⟩ := h.update cfg hid
    refine wp_ask_ok ⟨_, _, ⟨hx, trivial⟩, _, rfl, wp_ask_ok ⟨_, _, ⟨.committed _, trivial⟩, _, rfl, ?_⟩⟩
    have h : Handling t id w₀ (p.finalized default w.clock) none [] (w'.commit t) :=
      h.commit hid (.inl rfl)
    have hlog : .called p.charge ∈ w'.journal.log := by
      cases hx
      simp
    exact ⟨_, _, ⟨.closed _, trivial⟩, p.finalized default w.clock, rfl, ⟨rfl, rfl, rfl⟩,
      fun _ => hlog, h.close (.inl rfl)⟩
  · rw [if_pos hs]
    exact ⟨_, _, ⟨.closed _, trivial⟩, p, by simp [PaymentStatus.isFinal, hs], ⟨rfl, rfl, rfl⟩,
      fun hp => absurd hp hs, h.close (.inr rfl)⟩

/-- The second transaction can notify the client, if there is something to notify about. -/
theorem deliverWebhook_possible (h : Handling t id w₀ p none [] w) (hf : p.status.isFinal) :
    (deliverWebhook R cfg id).wp (.possible (ExecInOrder cfg t))
      (fun _ w' => ∃ p', p'.Settled ∧
        (p.wantsWebhook → p.webhookDeliveredAt = none →
          .posted (webhookRequest R cfg p) ∈ w'.journal.log) ∧
        Handling t id w₀ p' none [] w')
      (fun _ _ => False) w := by
  rw [deliverWebhook, Action.wp_within, Action.wp_bind]
  obtain ⟨w, hx, h⟩ := h.select cfg
  refine wp_ask_ok ⟨_, _, ⟨hx, trivial⟩, _, rfl, ?_⟩
  dsimp only
  by_cases hdone : ¬p.wantsWebhook ∨ p.webhookDeliveredAt.isSome
  · rw [if_pos hdone]
    refine wp_ask_ok ⟨_, _, ⟨.committed _, trivial⟩, _, rfl, ?_⟩
    have h := h.commit h.key (.inr ⟨rfl, rfl⟩)
    refine ⟨_, _, ⟨.closed _, trivial⟩, p, ⟨hf, hdone⟩, fun hw hnone => ?_, h.close (.inl rfl)⟩
    rcases hdone with hdone | hdone
    · exact absurd hw hdone
    · simp [hnone] at hdone
  · have hw : p.wantsWebhook := by_contra fun hw => hdone (.inl hw)
    rw [if_neg hdone, send, if_pos hw]
    simp only [Action.wp_bind, Action.wp_attempt]
    refine ⟨_, _, ⟨.posted _ _, trivial⟩, _, _, ⟨.answered _ _ 200, trivial⟩, ?_⟩
    refine ⟨_, _, ⟨.now _, trivial⟩, ?_⟩
    have h := ((h.record (.posted (webhookRequest R cfg p))).record
      (.answered (webhookRequest R cfg p) 200)).record (.read w.clock)
    have hid : (p.delivered w.clock).id = id := h.key
    obtain ⟨w', hx, h⟩ := h.update cfg hid
    refine wp_ask_ok ⟨_, _, ⟨hx, trivial⟩, _, rfl, wp_ask_ok ⟨_, _, ⟨.committed _, trivial⟩, _, rfl, ?_⟩⟩
    have h : Handling t id w₀ (p.delivered w.clock) none [] (w'.commit t) :=
      h.commit hid (.inl rfl)
    have hlog : .posted (webhookRequest R cfg p) ∈ w'.journal.log := by
      cases hx
      simp
    exact ⟨_, _, ⟨.closed _, trivial⟩, p.delivered w.clock, ⟨hf, .inr rfl⟩, fun _ _ => hlog,
      h.close (.inl rfl)⟩

variable (R cfg) in
/-- What has been done about `p`: if it was pending it has been charged, and its client has been
notified, if there was something to notify about. -/
structure Done (p : Payment) (log : List Event) : Prop where
  charged : p.status = .pending → .called p.charge ∈ log
  notified : p.wantsWebhook → p.webhookDeliveredAt = none →
    ∃ p', p'.id = p.id ∧ .posted (webhookRequest R cfg p') ∈ log

/-- **A message can be handled**: its payment is settled, and the message is acknowledged. -/
theorem handleDelivery_possible {m : Message} {attempt : ℕ}
    (ha : currentAttempt m.headers = .ok attempt) (hm : eventPayment R m = some id)
    (hu : w.broker.unacked t = true) (h : Handling t id w p none [] w) :
    (handleDelivery R cfg m).wp (.possible (ExecInOrder cfg t))
      (fun _ w' => ∃ p', p'.Settled ∧ Done R cfg p w'.journal.log ∧
        Handling t id { w with broker := w.broker.settle t } p' none [] w')
      (fun _ _ => False) w := by
  rw [handleDelivery, ha, Action.wp_bind, Action.wp_ofExcept_ok, Action.wp_tryCatch]
  cases hv : R.validateEvent m.body with
  | error text => simp [eventPayment, hv] at hm
  | ok event =>
    obtain rfl : event.paymentId = id := by simpa [eventPayment, hv] using hm
    dsimp only
    rw [Action.wp_bind, Action.wp_attempt, process, Action.wp_bind]
    refine Action.wp_mono (finalizePayment_possible h) ?_ fun _ _ h => h.elim
    rintro _ w₁ ⟨p₁, hf, hsame, hcalled, h₁⟩
    refine Action.wp_mono (deliverWebhook_possible (.begin h₁.atRest t h₁.row) hf) ?_
      fun _ _ h => h.elim
    rintro _ w₂ ⟨p₂, hset, hposted, h₂⟩
    have h₂' := h₁.trans h₂
    have hu₂ : w₂.broker.unacked t = true := by
      rw [h₂'.broker]
      exact hu
    refine wp_ask_ok ⟨_, _, ⟨.acked hu₂, trivial⟩, _, rfl, p₂, hset,
      ⟨fun hp => h₂.log _ (hcalled hp), fun hw hnone => ?_⟩, ?_⟩
    · refine ⟨p₁, h₁.key.trans h.key.symm, hposted ?_ (hsame.webhookDeliveredAt.trans hnone)⟩
      rwa [Payment.wantsWebhook, hsame.webhookUrl]
    · exact ⟨h₂'.key, h₂'.row, h₂'.lock, h₂'.free, h₂'.wrote, h₂'.others, h₂'.outbox, h₂'.unlocked,
        h₂'.idle, h₂'.elsewhere, by rw [h₂'.broker], h₂'.log⟩

/-- A message whose counter cannot be read is left alone. -/
theorem handleDelivery_unreadable {m : Message} {error : Exn}
    (ha : currentAttempt m.headers = .error error) :
    (handleDelivery R cfg m).wp (.possible (ExecInOrder cfg t)) (fun _ _ => False) (fun _ w' => w' = w) w := by
  rw [handleDelivery, ha, Action.wp_bind, Action.wp_ofExcept_error]

/-- What a message does that is given up: it goes to the dead-letter queue, and is acknowledged. -/
structure Discarded (t : ℕ) (w w' : World) : Prop where
  atRest : AtRest w'
  payments : w'.payments.rows = w.payments.rows
  outbox : w'.outbox.rows = w.outbox.rows
  broker : ∃ e, w'.broker = (w.broker.accept [dlqName] e).settle t

/-- A message can be published to the dead-letter queue and acknowledged. -/
theorem sendToDlq_possible {m : Message} {attempt : ℕ} {error : Exn} (h : AtRest w)
    (hu : w.broker.unacked t = true) {err : Exn → World → Prop} :
    (do
      sendToDlq R m attempt error
      ack).wp (.possible (ExecInOrder cfg t)) (fun _ w' => Discarded t w w') err w := by
  have hroute : route cfg (dlqPublication R m attempt error).exchange
      (dlqPublication R m attempt error).routingKey = [dlqQueue] := route_dlx cfg
  rw [Action.wp_bind]
  refine wp_ask_ok ⟨_, _, ⟨.confirmed _ _, trivial⟩, _, rfl, ?_⟩
  refine wp_ask_ok ⟨_, _, ⟨.acked hu, trivial⟩, _, rfl, ⟨h.payments, h.outbox, h.wrote⟩, rfl, rfl,
    ⟨routedMessage R m attempt error,
      (w.broker.delivered t).elim (some (routedMessage R m attempt error)) Envelope.origin,
      some error⟩, ?_⟩
  change (w.accept t cfg (dlqPublication R m attempt error)).broker.settle t = _
  unfold World.accept
  rw [hroute]
  rfl

/-- **A message that says nothing about a payment there is can be given up.** -/
theorem handleDelivery_discarded {m : Message} {attempt : ℕ}
    (ha : currentAttempt m.headers = .ok attempt)
    (hm : ∀ id ∈ eventPayment R m, w.payments.rows id = none)
    (hu : w.broker.unacked t = true) (h : AtRest w) :
    (handleDelivery R cfg m).wp (.possible (ExecInOrder cfg t)) (fun _ w' => Discarded t w w')
      (fun _ _ => False) w := by
  rw [handleDelivery, ha, Action.wp_bind, Action.wp_ofExcept_ok, Action.wp_tryCatch]
  cases hv : R.validateEvent m.body with
  | error text => exact sendToDlq_possible h hu
  | ok event =>
    have hnone : w.payments.rows event.paymentId = none := hm _ (by simp [eventPayment, hv])
    dsimp only
    rw [Action.wp_bind, Action.wp_attempt, process, Action.wp_bind, finalizePayment,
      Action.wp_within, Action.wp_bind]
    refine wp_ask_ok ⟨_, _, ⟨.missing hnone, trivial⟩, _, rfl, ?_⟩
    refine ⟨_, _, ⟨.closed _, trivial⟩, ?_⟩
    change (routeFailure R cfg m attempt (.paymentNotFound event.paymentId) >>= fun _ => ack).wp _ _ _ _
    rw [routeFailure, if_pos (show (Exn.paymentNotFound event.paymentId).isPermanent = true from rfl)]
    exact Action.wp_mono (sendToDlq_possible (h.rollback t) hu)
      (fun _ w' hg => ⟨hg.atRest, hg.payments, hg.outbox, hg.broker⟩) fun _ _ he => he

end Code

/-! ## Publishing a batch -/

/-- A row as the broker gets it from thread `t`. -/
def Broker.envelope (R : Runtime) (t : ℕ) (B : Broker) (row : OutboxMessage) : Envelope :=
  let message := (outboxPublication R row).message
  ⟨message, (B.delivered t).elim (some message) Envelope.origin, none⟩

/-- Thread `t` has handed rows to the broker, and nothing else has changed there. -/
structure Broker.Took (R : Runtime) (t : ℕ) (rows : List OutboxMessage) (B B' : Broker) : Prop where
  delivered : B'.delivered = B.delivered
  main : B'.queues paymentsNewQueueName =
    B.queues paymentsNewQueueName ++ rows.map (B.envelope R t)
  others : ∀ name, name ≠ paymentsNewQueueName → B'.queues name = B.queues name

/-- Thread `t` has handed rows to the broker, and nothing else has changed. -/
structure HandedOver (R : Runtime) (t : ℕ) (rows : List OutboxMessage) (w w' : World) : Prop where
  clock : w'.clock = w.clock
  payments : w'.payments = w.payments
  outbox : w'.outbox = w.outbox
  broker : w.broker.Took R t rows w'.broker

/-- A row can be published. -/
theorem publishOne_possible {t : ℕ} {row : OutboxMessage} {w : World}
    (hk : row.routingKey = paymentsNewRoutingKey) :
    (publishOne R row).wp (.possible (ExecInOrder cfg t))
      (fun out w' => out = (row.published w.clock, true) ∧ HandedOver R t [row] w w')
      (fun _ _ => False) w := by
  have hroute : route cfg (outboxPublication R row).exchange (outboxPublication R row).routingKey =
      [paymentsNewQueue] := by
    rw [← route_payments cfg, ← hk]
    rfl
  have hbroker : (w.accept t cfg (outboxPublication R row)).broker =
      w.broker.accept [paymentsNewQueueName] (w.broker.envelope R t row) := by
    unfold World.accept
    rw [hroute]
    rfl
  simp only [publishOne, Action.wp_bind, Action.wp_attempt]
  refine wp_ask_ok ⟨_, _, ⟨.confirmed _ _, trivial⟩, _, rfl, ?_⟩
  refine ⟨_, _, ⟨.now _, trivial⟩, rfl, rfl, rfl, rfl, ?_, ?_, fun name hname => ?_⟩
  · change (w.accept t cfg (outboxPublication R row)).broker.delivered = _
    rw [hbroker]
    rfl
  · change (w.accept t cfg (outboxPublication R row)).broker.queues paymentsNewQueueName = _
    rw [hbroker]
    simp [Broker.accept]
  · change (w.accept t cfg (outboxPublication R row)).broker.queues name = _
    rw [hbroker]
    simp [Broker.accept, hname.symm]

/-- So can all rows of a batch, one after the other. -/
theorem publishRows_possible {t : ℕ} {rows : List OutboxMessage} {w : World}
    (hk : ∀ row ∈ rows, row.routingKey = paymentsNewRoutingKey) :
    (publishRows R rows).wp (.possible (ExecInOrder cfg t))
      (fun out w' => out.1 = rows.map (OutboxMessage.published · w.clock) ∧ HandedOver R t rows w w')
      (fun _ _ => False) w := by
  induction rows generalizing w with
  | nil => exact ⟨rfl, rfl, rfl, rfl, rfl, (List.append_nil _).symm, fun _ _ => rfl⟩
  | cons row rows ih =>
    rw [publishRows, Action.wp_bind]
    refine Action.wp_mono (publishOne_possible (hk row (by simp))) ?_ fun _ _ h => h.elim
    rintro _ w₁ ⟨rfl, h₁⟩
    simp only [if_true, Action.wp_bind]
    refine Action.wp_mono (ih fun r hr => hk r (by simp [hr])) ?_ fun _ _ h => h.elim
    rintro out w₂ ⟨hout, h₂⟩
    refine ⟨?_, h₂.clock.trans h₁.clock, h₂.payments.trans h₁.payments, h₂.outbox.trans h₁.outbox,
      h₂.broker.delivered.trans h₁.broker.delivered, ?_,
      fun name hname => (h₂.broker.others name hname).trans (h₁.broker.others name hname)⟩
    · simp [hout, h₁.clock]
    · rw [h₂.broker.main, h₁.broker.main]
      simp [Broker.envelope, h₁.broker.delivered]

/-- What becomes of the outbox when a batch is published. -/
structure AllPublished (rows : List OutboxMessage) (now : Time) (T T' : OutboxTable) : Prop where
  published : ∀ row ∈ rows, T'.rows row.id = some (row.published now)
  others : ∀ id, (∀ row ∈ rows, row.id ≠ id) → T'.rows id = T.rows id

/-- **A batch can be published**: the relay takes `rows`, and the broker takes all of them. -/
theorem publishBatch_possible {t : ℕ} {rows : List OutboxMessage} {w : World}
    (h : AtRest w) (hfirst : FirstEligible cfg w.outbox w.clock rows) (hne : rows ≠ [])
    (hk : ∀ row ∈ rows, row.routingKey = paymentsNewRoutingKey) :
    (publishPendingBatch R cfg).wp (.possible (ExecInOrder cfg t))
      (fun _ w' => AtRest w' ∧ w'.payments.rows = w.payments.rows ∧
        AllPublished rows w.clock w.outbox w'.outbox ∧ w.broker.Took R t rows w'.broker)
      (fun _ _ => False) w := by
  have hsel := Quiet.selected ⟨h.outbox, (h.wrote t).2⟩ hfirst
  obtain ⟨row, rows, rfl⟩ := List.exists_cons_of_ne_nil hne
  have hfree : ∀ id ∈ (row :: rows).map OutboxMessage.id, w.outbox.Free t id := fun id _ =>
    .inl (h.outbox id)
  have hrow : ∀ id ∈ (row :: rows).map OutboxMessage.id, (w.outbox.rows id).isSome := by
    simp only [List.mem_map]
    rintro _ ⟨r, hr, rfl⟩
    rw [hsel.committed r hr]
    rfl
  have hlock : ∀ r ∈ (row :: rows).map (OutboxMessage.published · w.clock),
      (w.outbox.acquire t _ hfree hrow).lock r.id = some t := by
    simp only [List.mem_map]
    rintro _ ⟨r, hr, rfl⟩
    exact if_pos (List.mem_map_of_mem (f := OutboxMessage.id) hr)
  rw [publishPendingBatch]
  simp only [Action.wp_bind, Action.wp_within]
  refine ⟨_, _, ⟨.now _, trivial⟩, ?_⟩
  refine wp_ask_ok ⟨_, _, ⟨.batch (w := w.record t (.read w.clock)) hsel, fun _ => hfirst⟩, _, rfl, ?_⟩
  dsimp only
  rw [Action.wp_bind]
  refine Action.wp_mono (publishRows_possible hk) ?_ fun _ _ h => h.elim
  rintro out w₁ ⟨hout, h₁⟩
  have hout : out.1 = (row :: rows).map (OutboxMessage.published · w.clock) := hout
  have hlock₁ : ∀ r ∈ out.1, w₁.outbox.lock r.id = some t := by
    rw [hout, h₁.outbox]
    exact hlock
  have hrows₁ : w₁.outbox.rows = w.outbox.rows := by rw [h₁.outbox]; rfl
  have hwrote : (w₁.outbox.update t out.1 hlock₁).Wrote t out.1 := by
    refine Table.Wrote.update ?_ hlock₁
    rw [h₁.outbox]
    exact (h.wrote t).2.acquire hfree hrow
  rw [Action.wp_bind]
  refine wp_ask_ok ⟨_, _, ⟨.updatedOutbox hlock₁, trivial⟩, _, rfl, ?_⟩
  rw [Action.wp_bind]
  refine wp_ask_ok ⟨_, _, ⟨.committed _, trivial⟩, _, rfl, ?_⟩
  refine ⟨_, _, ⟨.closed _, trivial⟩, ?_⟩
  have hcommit : ∀ id, ((w₁.outbox.update t out.1 hlock₁).commit t).rows id =
      (out.1.find? fun r => r.id = id).or (w.outbox.rows id) := fun id => by
    rw [hwrote.rows_commit id, Table.rows_update, hrows₁]
  refine ⟨⟨fun id => ?_, fun id => ?_, fun t' => ?_⟩, ?_, ⟨fun r hr => ?_, fun id hid => ?_⟩,
    h₁.broker⟩
  · change (w₁.payments.commit t).released t id = none
    simp [Table.released, show w₁.payments.lock id = none by rw [h₁.payments]; exact h.payments id]
  · change ((w₁.outbox.update t out.1 hlock₁).commit t).released t id = none
    have hacquired : ∀ id, (w₁.outbox.update t out.1 hlock₁).lock id =
        if id ∈ (row :: rows).map OutboxMessage.id then some t else w.outbox.lock id := fun id => by
      rw [Table.lock_update, h₁.outbox]
      exact Table.lock_acquire hfree hrow
    rw [Table.released_commit, released_of_acquired hacquired fun id _ => h.outbox id]
    simp [Table.released, h.outbox id]
  · by_cases ht : t' = t
    · subst ht
      exact ⟨Table.wrote_rollback, Table.wrote_rollback⟩
    · have hpay : w₁.payments.Wrote t' [] := by
        rw [h₁.payments]
        exact (h.wrote t').1
      have hout : w₁.outbox.Wrote t' [] := by
        rw [h₁.outbox]
        exact (h.wrote t').2.frame (.acquire _ hfree hrow) ht
      exact ⟨(hpay.frame (.commit _) ht).frame (.rollback _) ht,
        ((hout.frame (.update _ hlock₁) ht).frame (.commit _) ht).frame (.rollback _) ht⟩
  · change (w₁.payments.commit t).rows = _
    funext id
    rw [h₁.payments]
    simpa using (h.wrote t).1.rows_commit id
  · have hnodup : (out.1.map OutboxMessage.id).Nodup := by
      rw [hout, List.map_map]
      exact hsel.nodup
    have hmem : r.published w.clock ∈ out.1 := by
      rw [hout]
      exact List.mem_map_of_mem hr
    refine (hcommit r.id).trans ?_
    rw [show out.1.find? (fun b => b.id = r.id) = some (r.published w.clock) from
      find?_of_nodup_map hnodup hmem]
    rfl
  · have hnone : out.1.find? (fun b => b.id = id) = none := by
      rw [List.find?_eq_none, hout]
      simp only [List.mem_map, decide_eq_true_eq]
      rintro _ ⟨r, hr, rfl⟩
      exact hid r hr
    refine (hcommit id).trans ?_
    rw [hnone]
    rfl

/-! ## From the request to the notification -/

/-- The payment `p` is pending, the message about it is the first in `payments.new`, and no
transaction is open. -/
structure Announced (R : Runtime) (c : CreatePaymentCommand) (p : Payment) (m : OutboxMessage)
    (w : World) : Prop where
  atRest : AtRest w
  payment : w.payments.rows p.id = some p
  pending : p.status = .pending
  webhookUrl : p.webhookUrl = c.webhookUrl
  undelivered : p.webhookDeliveredAt = none
  payload : m.payload.paymentId = p.id
  main : ∃ after, w.broker.queues paymentsNewQueueName = relayed R m :: after

variable (R cfg) in
/-- The event of an accepted payment can be published. -/
theorem publishPendingBatch_accepting (c : CreatePaymentCommand) (f : Str) (clock : Time) (t₀ t : ℕ) :
    ∃ p m, (World.accepting c f clock t₀).payments.rows p.id = some p ∧
      (code R cfg .relay).wp (.possible (ExecInOrder cfg t)) (fun _ => Announced R c p m)
        (World.accepting c f clock t₀) := by
  obtain ⟨p, m, hacc, hun⟩ := accepted_accepting c f clock t₀
  have hrest : AtRest (World.accepting c f clock t₀) := ⟨fun _ => rfl, hun.free, hacc.wrote⟩
  generalize World.accepting c f clock t₀ = w at *
  refine ⟨p, m, hacc.payment, ?_⟩
  obtain ⟨rows, hfirst⟩ : ∃ rows, FirstEligible cfg w.outbox w.clock rows :=
    exists_first (finite_eligible _ _) _
  have hm : ∀ row ∈ rows, row = m := fun row hrow => hun.only _ _ (hfirst.mem row hrow).1
  have hne : rows ≠ [] := by
    rintro rfl
    obtain ⟨hlen, -⟩ := hfirst.complete m ⟨hacc.message, hacc.unpublished, hacc.eligible⟩ (by simp)
    exact absurd hlen.symm (Nat.one_le_iff_ne_zero.mp cfg.outboxBatchSize_ge)
  have hbatch := publishBatch_possible (R := R) (t := t) hrest hfirst hne fun row hrow => by
    rw [hm row hrow]
    exact hacc.routingKey
  refine Prog.wp_mono _ hbatch fun out w' hpost => ?_
  cases out with
  | error e => exact hpost.elim
  | ok count =>
    obtain ⟨hrest', hpay, -, htook⟩ := hpost
    refine ⟨hrest', hpay ▸ hacc.payment, hacc.pending, hacc.webhookUrl, hacc.undelivered,
      hacc.payload, ?_⟩
    obtain ⟨row, rows, rfl⟩ := List.exists_cons_of_ne_nil hne
    obtain rfl : row = m := hm row (by simp)
    refine ⟨rows.map (w.broker.envelope R t), ?_⟩
    rw [htook.main, hacc.broker]
    rfl

namespace Announced

variable {c : CreatePaymentCommand} {p : Payment} {m : OutboxMessage} {w : World} {t : ℕ}
  {after : List Envelope}

theorem eventPayment (h : Announced R c p m w) :
    Payments.eventPayment R (relayed R m).message = some p.id := by
  rw [← h.payload]
  exact eventPayment_outboxPublication m

/-- The payment is charged, and its client is notified. -/
theorem handled (h : Announced R c p m w) :
    (code R cfg (.deliver (relayed R m))).wp (.possible (ExecInOrder cfg t))
      (fun _ w' => ∃ p', w'.payments.rows p.id = some p' ∧ p'.Settled ∧
        Done R cfg p w'.journal.log)
      { w with broker := w.broker.deliver t (relayed R m) after } := by
  let w₁ : World := { w with broker := w.broker.deliver t (relayed R m) after }
  have hrest : AtRest w₁ := ⟨h.atRest.payments, h.atRest.outbox, h.atRest.wrote⟩
  have hp : w₁.payments.rows p.id = some p := h.payment
  have hattempt : currentAttempt (relayed R m).message.headers = .ok 0 := rfl
  refine Prog.wp_mono _ (handleDelivery_possible hattempt h.eventPayment (Function.update_self ..)
    (.begin hrest t hp)) fun out w' hpost => ?_
  cases out with
  | error e => exact hpost.elim
  | ok u =>
    obtain ⟨p', hset, hdone, hh⟩ := hpost
    exact ⟨p', hh.row, hset, hdone⟩

variable (cfg t after) in
/-- The client answers that it is not available, and the message waits in the first retry queue. -/
theorem retried (h : Announced R c p m w) (hw : p.wantsWebhook) (hmax : 1 ≤ cfg.maxRetries) :
    (code R cfg (.deliver (relayed R m))).wp (calm cfg t)
      (fun _ x => ∃ e ∈ x.1.broker.queues (retryQueueName 1), e.origin.isSome ∧
        currentAttempt e.message.headers = .ok 1)
      ({ w with broker := w.broker.deliver t (relayed R m) after }, fun _ => .status 503) := by
  have hsees : Sees t p.id (w.broker.deliver t (relayed R m) after) p none [] (fun _ => .status 503)
      ({ w with broker := w.broker.deliver t (relayed R m) after }, fun _ => .status 503) :=
    ⟨rfl, h.payment, h.atRest.payments _, (h.atRest.wrote t).1, rfl, rfl⟩
  have hattempt : currentAttempt (relayed R m).message.headers = .ok 0 := rfl
  refine Prog.wp_mono _ (handleDelivery_calm hattempt h.eventPayment (Function.update_self ..)
    hsees hw h.undelivered) fun out x hpost => ?_
  cases out with
  | error e => exact hpost.elim
  | ok u =>
    have hpost : Handled R cfg t p.id (w.broker.deliver t (relayed R m) after) (relayed R m).message
      0 p (fun _ => .status 503) x := hpost
    cases hpost with
    | delivered _ hσ _ =>
      have hd : 200 ≤ 503 ∧ 503 < 300 := (WebhookOutcome.of_classify_ok hσ).1
      omega
    | @routed p₁ error _ hσ hsees' =>
      have hperm : error.isPermanent = false :=
        (WebhookOutcome.of_classify_error hσ).2.mp (.inl (by decide))
      have hpub : failurePublication R cfg (relayed R m).message 0 error =
          retryPublication R (relayed R m).message 1 error := by
        simp [failurePublication, hperm, show ¬cfg.maxRetries < 1 by omega]
      have hroute : route cfg (retryPublication R (relayed R m).message 1 error).exchange
          (retryPublication R (relayed R m).message 1 error).routingKey = [retryQueue cfg 1] :=
        route_retry cfg le_rfl hmax
      rw [hsees'.broker, hpub]
      refine ⟨⟨routedMessage R (relayed R m).message 1 error, some (outboxPublication R m).message,
        some error⟩, ?_, rfl, currentAttempt_routedHeaders ..⟩
      refine List.mem_append_right _ ?_
      rw [hroute]
      simp only [Broker.deliver, retryQueue, buildRetryQueue, List.map_cons, List.map_nil,
        List.count_singleton_self, List.replicate_one, List.mem_singleton, Function.update_self]
      rfl

end Announced

/-- **An accepted payment can be charged, and its client notified.** -/
theorem exists_done {s : (service R cfg).State} (hi : Idle s) {c : CreatePaymentCommand} {f : Str}
    {clock : Time} {t : ℕ} (hw : s.world = World.accepting c f clock t) :
    ∃ (s' : (service R cfg).State) (p p' : Payment), (service R cfg).Run s s' ∧
      s.world.payments.rows p.id = some p ∧ p.status = .pending ∧ p.webhookUrl = c.webhookUrl ∧
      p.webhookDeliveredAt = none ∧ s'.world.payments.rows p.id = some p' ∧ p'.Settled ∧
      Done R cfg p s'.world.journal.log := by
  obtain ⟨p, m, hp, hbatch⟩ := publishPendingBatch_accepting R cfg c f clock t s.born
  rw [← hw] at hp hbatch
  obtain ⟨s₁, hr₁, hi₁, hann⟩ := exists_returned hi (.relay _) (Prog.wp_possible_mono And.left hbatch)
  obtain ⟨after, hmain⟩ := hann.main
  obtain ⟨s₂, hr₂, -, p', hp', hset, hdone⟩ := exists_returned hi₁ (.head hmain)
    (Prog.wp_possible_mono And.left hann.handled)
  exact ⟨s₂, p, p', hr₁.trans hr₂, hp, hann.pending, hann.webhookUrl, hann.undelivered, hp',
    hset, hdone⟩

/-- What a thread executes in calm weather is a run. -/
theorem run_of_calm {s : (service R cfg).State} {t : ℕ} {k : Kind} {p : Prog Op Res (Out k)}
    (ht : s.threads t = .running k p) {x x' : World × Outcomes} (hw : s.world = x.1) {out : Out k}
    (hx : p.Executes (CalmExec cfg t) x out x') :
    (service R cfg).Run s ⟨x'.1, Function.update s.threads t (.running k (.ret out)), s.born⟩ := by
  induction hx generalizing s with
  | ret a =>
    rw [← hw, ← ht, Function.update_eq_self]
    exact .refl
  | op hop _ ih =>
    cases hop with
    | @intro w w' σ σ' clock hc hexec _ =>
      obtain rfl : s.world = w := hw
      have htick : (service R cfg).Step s ⟨{ s.world with clock := clock }, s.threads, s.born⟩ :=
        .env (.tick hc)
      have hr := ih (s := ⟨w', Function.update s.threads t _, s.born⟩) (Function.update_self ..) rfl
      rw [Function.update_idem] at hr
      exact .head htick (.head (.exec ht hexec) hr)

/-- A message about the book waits in the first retry queue. -/
theorem exists_book_retried : ∃ (s : (service .transparent default).State) (e : Envelope),
    (service .transparent default).Reachable s ∧
    e ∈ s.world.broker.queues (retryQueueName 1) ∧ e.origin.isSome ∧
    currentAttempt e.message.headers = .ok 1 := by
  obtain ⟨f, hf⟩ := bookCommand_validated.exists_fingerprint .transparent
  obtain ⟨s, h, hi, hw, -⟩ := exists_accepting default hf
  obtain ⟨p, m, -, hbatch⟩ := publishPendingBatch_accepting .transparent default bookCommand
    f 0 0 s.born
  rw [← hw] at hbatch
  obtain ⟨s₁, hr₁, -, hann⟩ := exists_returned hi (.relay _) (Prog.wp_possible_mono And.left hbatch)
  obtain ⟨after, hmain⟩ := hann.main
  have hwants : p.wantsWebhook := by
    rw [Payment.wantsWebhook, hann.webhookUrl]
    decide
  have hwp := hann.retried default s₁.born after hwants (by decide)
  obtain ⟨out, x, hx⟩ := Prog.exists_executes hwp
  obtain ⟨e, he, ho, ha⟩ := hx.of_wp hwp
  have hstart := Machine.Step.start (M := service .transparent default) (s := s₁) (.head hmain)
  exact ⟨_, e, ((h.run hr₁).step hstart).run (run_of_calm (Function.update_self ..) rfl hx), he,
    ho, ha⟩

/-- The book is paid for, and the shop is notified. -/
theorem exists_book_done : ∃ (s s' : (service .transparent default).State) (p p' : Payment),
    (service .transparent default).Reachable s ∧ (service .transparent default).Run s s' ∧
    s.world.payments.rows p.id = some p ∧ p.status = .pending ∧
    s'.world.payments.rows p.id = some p' ∧ p'.Settled ∧ p'.webhookDeliveredAt.isSome ∧
    .called p.charge ∈ s'.world.journal.log ∧
    ∃ q, q.id = p.id ∧ .posted (webhookRequest .transparent default q) ∈ s'.world.journal.log := by
  obtain ⟨f, hf⟩ := bookCommand_validated.exists_fingerprint .transparent
  obtain ⟨s, h, hi, hw, -⟩ := exists_accepting default hf
  obtain ⟨s', p, p', hr, hp, hpending, hurl, hnone, hp', hset, hdone⟩ := exists_done hi hw
  have hwants : p.wantsWebhook := by
    rw [Payment.wantsWebhook, hurl]
    decide
  have hdelivered : p'.webhookDeliveredAt.isSome := by
    obtain ⟨v, v', hv, htr, hrun, htr'⟩ :=
      Machine.Spec.tracked_run (serviceSpec .transparent default) h hr
    obtain ⟨p₁, hp₁, hl⟩ := run_payments hv hrun (by rw [htr.world]; exact hp)
    rw [htr'.world, hp'] at hp₁
    obtain rfl := Option.some.inj hp₁
    exact hset.2.resolve_left (by rw [hl.request.wantsWebhook, hwants]; decide)
  exact ⟨s, s', p, p', h, hr, hp, hpending, hp', hset, hdelivered, hdone.charged hpending,
    hdone.notified hwants hnone⟩

end Payments
