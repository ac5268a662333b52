import PaymentProcessing.Foundations.Effects.Termination
import PaymentProcessing.System.Service

/-!
# A payment is accepted and published

From the beginning, a request whose body has a fingerprint can be accepted, and a call of the relay
can then publish its event (`exists_published`). What is said of the reachable states of the service
is also said of this one.
-/

namespace Payments

open Effects Python Store

variable {R : Runtime} {cfg : Settings}

/-- No thread has an operation to execute. -/
def Idle (s : (service R cfg).State) : Prop := ∀ t k o c, s.threads t ≠ .running k (.op o c)

/-! ## The request -/

/-- The request `c` has been accepted, and nothing else has happened. -/
structure Accepted (c : CreatePaymentCommand) (p : Payment) (m : OutboxMessage) (w : World) :
    Prop where
  payment : w.payments.rows p.id = some p
  pending : p.status = .pending
  webhookUrl : p.webhookUrl = c.webhookUrl
  undelivered : p.webhookDeliveredAt = none
  message : w.outbox.rows m.id = some m
  unlocked : w.outbox.lock m.id = none
  unpublished : m.publishedAt = none
  eligible : m.nextRetryAt ≤ w.clock
  routingKey : m.routingKey = paymentsNewRoutingKey
  payload : m.payload.paymentId = p.id
  wrote : ∀ t, w.payments.Wrote t [] ∧ w.outbox.Wrote t []
  broker : w.broker = ⟨fun _ => [], fun _ => none, fun _ => false⟩

/-- Neither the payment nor its event has been tried. -/
structure Untried (p : Payment) (m : OutboxMessage) (w : World) : Prop where
  unlocked : w.payments.lock p.id = none
  failureReason : p.failureReason = none
  webhookAttempts : p.webhookAttempts = 0
  webhookLastError : p.webhookLastError = none
  attempts : m.attempts = 0
  lastError : m.lastError = none
  only : ∀ id row, w.outbox.rows id = some row → row = m
  free : ∀ id, w.outbox.lock id = none

/-- A request with a new key can be accepted: its rows are new, and nobody has written anything. -/
structure Admissible (c : CreatePaymentCommand) (id messageId : UUID) (w : World) : Prop where
  key : ∀ id p, w.payments.rows id = some p → p.idempotencyKey ≠ c.idempotencyKey
  payment : w.payments.rows id = none
  message : w.outbox.rows messageId = none
  wrote : ∀ t, w.payments.Wrote t [] ∧ w.outbox.Wrote t []

section Admissible

variable {c : CreatePaymentCommand} {id messageId : UUID} {w : World}
  (h : Admissible c id messageId w) (t : ℕ)

include h

theorem Admissible.unwritten : w.payments.pending t id = none := (h.wrote t).1 id

theorem Admissible.unwritten_message : w.outbox.pending t messageId = none :=
  (h.wrote t).2 messageId

end Admissible

theorem admissible_initial (c : CreatePaymentCommand) (clock : Time) :
    Admissible c 0 0 (World.initial clock) where
  key := by simp [World.initial, Table.empty]
  payment := rfl
  message := rfl
  wrote _ := ⟨Table.wrote_empty, Table.wrote_empty⟩

/-- Thread `t` accepts a request and commits, and nothing else happens. -/
def World.create {c : CreatePaymentCommand} {id messageId : UUID} (w : World) (t : ℕ)
    (h : Admissible c id messageId w) (f : Str) : World :=
  let w' := (w.record t (.read w.clock)).record t (.inserted t id)
  let inserted : World :=
    { w' with
      payments := w.payments.insert t ((newPayment c f id).row w.clock) h.payment
        fun t' _ => h.unwritten t'
      outbox := w.outbox.insert t ((newOutboxMessage messageId id w.clock).row w.clock) h.message
        fun t' _ => h.unwritten_message t' }
  (inserted.commit t).rollback t

variable (cfg) in
/-- A request can be accepted. -/
theorem createPayment_possible {c : CreatePaymentCommand} {f : Str} (hf : c.fingerprint R = .ok f)
    {id messageId : UUID} {w : World} (h : Admissible c id messageId w) (t : ℕ) :
    (createPayment R c).wp (.possible (Exec cfg t))
      (fun result w' => result = ⟨(newPayment c f id).row w.clock, false⟩ ∧ w' = w.create t h f)
      (fun _ _ => False) w := by
  have hnobody : ∀ t' ≠ t, ∀ id p, w.payments.pending t' id = some p →
      p.idempotencyKey ≠ c.idempotencyKey := by
    intro t' _ id p hp
    cases ((h.wrote t').1 id).symm.trans hp
  rw [createPayment, withDbSession, Action.wp_within, Action.wp_tryCatch, create, hf]
  simp only [Except.mapError, Action.wp_bind, Action.wp_ofExcept_ok]
  refine wp_ask_ok ⟨_, _, .notFound h.key, _, rfl, ?_⟩
  simp only [Action.wp_bind, Action.wp_tryCatch]
  refine ⟨_, _, .uuid4 _ id, _, _, .now _, _, _, .uuid4 _ messageId, ?_⟩
  refine wp_ask_ok ⟨_, _, .inserted (w := w.record t (.read w.clock)) (p := newPayment c f id)
    (m := newOutboxMessage messageId id w.clock) (le_refl w.clock) h.payment
    (fun t' _ => h.unwritten t') h.message (fun t' _ => h.unwritten_message t') h.key hnobody, _, rfl,
    ?_⟩
  refine wp_ask_ok ⟨_, _, .committed _, _, rfl, ?_⟩
  exact ⟨_, _, .closed _, rfl, rfl⟩

variable (cfg) in
/-- A request whose payment is there can be answered with it. -/
theorem createPayment_replayed {c : CreatePaymentCommand} {w : World} {p : Payment}
    (hf : c.fingerprint R = .ok p.requestFingerprint) (hp : w.payments.rows p.id = some p)
    (hkey : p.idempotencyKey = c.idempotencyKey) (t : ℕ) :
    (createPayment R c).wp (.possible (Exec cfg t))
      (fun result w' => result = ⟨p, true⟩ ∧ w' = w.rollback t) (fun _ _ => False) w := by
  rw [createPayment, withDbSession, Action.wp_within, Action.wp_tryCatch, create, hf]
  simp only [Except.mapError, Action.wp_bind, Action.wp_ofExcept_ok]
  refine wp_ask_ok ⟨_, _, .found hp hkey, _, rfl, ?_⟩
  simp only [replay, ne_eq, not_true_eq_false, if_false, Action.wp_ofExcept_ok]
  exact ⟨_, _, .closed _, trivial, rfl⟩

section Create

variable {c : CreatePaymentCommand} {id messageId : UUID} {w : World}
  (h : Admissible c id messageId w) (t : ℕ) (f : Str)

theorem World.rows_create (id' : UUID) : (w.create t h f).payments.rows id' =
    if id' = id then some ((newPayment c f id).row w.clock) else w.payments.rows id' := by
  refine (((h.wrote t).1.insert h.payment fun t' _ => h.unwritten t').rows_commit id').trans ?_
  by_cases hid : id' = id
  · simp [hid, newPayment, NewPayment.row]
  · simp [hid, Ne.symm hid, newPayment, NewPayment.row]

theorem World.messages_create (id' : UUID) : (w.create t h f).outbox.rows id' =
    if id' = messageId then some ((newOutboxMessage messageId id w.clock).row w.clock)
    else w.outbox.rows id' := by
  refine (((h.wrote t).2.insert h.message fun t' _ => h.unwritten_message t').rows_commit
    id').trans ?_
  by_cases hid : id' = messageId
  · simp [hid, newOutboxMessage, NewOutboxMessage.row]
  · simp [hid, Ne.symm hid, newOutboxMessage, NewOutboxMessage.row]

theorem World.wrote_create (t' : ℕ) :
    (w.create t h f).payments.Wrote t' [] ∧ (w.create t h f).outbox.Wrote t' [] := by
  by_cases ht : t' = t
  · subst ht
    exact ⟨Table.wrote_rollback, Table.wrote_rollback⟩
  · have hp := (h.wrote t').1.frame (.insert (r := (newPayment c f id).row w.clock) _ h.payment
      fun t' _ => h.unwritten t') ht
    have hm := (h.wrote t').2.frame (.insert
      (r := (newOutboxMessage messageId id w.clock).row w.clock) _ h.message
      fun t' _ => h.unwritten_message t') ht
    exact ⟨(hp.frame (.commit _) ht).frame (.rollback _) ht,
      (hm.frame (.commit _) ht).frame (.rollback _) ht⟩

/-- What nobody has locked stays so. -/
theorem World.lock_create {id' : UUID} (hfree : w.outbox.lock id' = none) :
    (w.create t h f).outbox.lock id' = none := by
  simp [World.create, World.commit, World.rollback, Table.released, Table.insert, hfree]

end Create

/-- The world in which a request has been accepted, by thread `t`, and nothing else has happened. -/
def World.accepting (c : CreatePaymentCommand) (f : Str) (clock : Time) (t : ℕ) : World :=
  (World.initial clock).create t (admissible_initial c clock) f

/-- The payment of an accepted request is the only one. -/
theorem World.rows_accepting {c : CreatePaymentCommand} {f : Str} {clock : Time} {t : ℕ} {id : UUID}
    {p : Payment} : (World.accepting c f clock t).payments.rows id = some p ↔
      id = 0 ∧ p = (newPayment c f 0).row clock := by
  rw [World.accepting, World.rows_create]
  by_cases hid : id = 0
  · subst hid
    simp [World.initial, eq_comm]
  · have hid' : id ≠ 0#128 := hid
    simp [hid', World.initial, Table.empty]

theorem accepted_accepting (c : CreatePaymentCommand) (f : Str) (clock : Time) (t : ℕ) :
    ∃ p m, Accepted c p m (World.accepting c f clock t) ∧
      Untried p m (World.accepting c f clock t) := by
  refine ⟨(newPayment c f 0).row clock, (newOutboxMessage 0 0 clock).row clock,
    ⟨World.rows_accepting.mpr ⟨rfl, rfl⟩, rfl, rfl, rfl, ?_, rfl, rfl, le_rfl, rfl, rfl,
      World.wrote_create _ _ _, rfl⟩,
    ⟨rfl, rfl, rfl, rfl, rfl, rfl, fun id row hrow => ?_, fun _ => rfl⟩⟩
  · exact (World.messages_create ..).trans (if_pos rfl)
  · rw [World.accepting, World.messages_create] at hrow
    split at hrow
    · exact (Option.some.inj hrow).symm
    · cases hrow

/-! ## The relay -/

/-- What the relay hands to the broker for a row. -/
def relayed (R : Runtime) (m : OutboxMessage) : Envelope :=
  ⟨(outboxPublication R m).message, some (outboxPublication R m).message, none⟩

/-- The event of an accepted payment is in the queue `payments.new`, and nothing else has happened.
-/
structure Relayed (R : Runtime) (c : CreatePaymentCommand) (p : Payment) (m : OutboxMessage)
    (w : World) : Prop where
  payment : w.payments.rows p.id = some p
  pending : p.status = .pending
  webhookUrl : p.webhookUrl = c.webhookUrl
  undelivered : p.webhookDeliveredAt = none
  message : w.outbox.rows m.id = some m
  published : m.publishedAt.isSome
  payload : m.payload.paymentId = p.id
  main : w.broker.queues paymentsNewQueueName = [relayed R m]
  retry : ∀ n, w.broker.queues (retryQueueName n) = []

/-- The relay can take the event. -/
theorem Accepted.selected {c : CreatePaymentCommand} {p : Payment} {m : OutboxMessage} {w : World}
    (h : Accepted c p m w) (cfg : Settings) :
    Selected w.outbox cfg.outboxBatchSize w.clock [m] :=
  ⟨by simp, by simp, cfg.outboxBatchSize_ge, by simpa using h.message, by simpa using h.unlocked,
    by simpa using ⟨h.unpublished, h.eligible⟩⟩

theorem publishPendingBatch_possible {c : CreatePaymentCommand} {p : Payment} {m : OutboxMessage}
    {w : World} (h : Accepted c p m w) (t : ℕ) :
    (publishPendingBatch R cfg).wp (.possible (Exec cfg t)) (fun _ w => ∃ m, Relayed R c p m w)
      (fun _ _ => False) w := by
  have hsel := h.selected cfg
  have hfree : ∀ id ∈ [m].map OutboxMessage.id, w.outbox.Free t id := by
    simpa using .inl h.unlocked
  have hrow : ∀ id ∈ [m].map OutboxMessage.id, (w.outbox.rows id).isSome := by simp [h.message]
  have hlock : ∀ r ∈ [m.published w.clock], (w.outbox.acquire t _ hfree hrow).lock r.id = some t := by
    simp [OutboxMessage.published]
  have hwrote := ((h.wrote t).2.acquire hfree hrow).update hlock
  rw [publishPendingBatch]
  simp only [Action.wp_bind, Action.wp_within]
  refine ⟨_, _, .now _, ?_⟩
  refine wp_ask_ok ⟨_, _, .batch (w := w.record t (.read w.clock)) hsel, _, rfl, ?_⟩
  simp only [publishRows, publishOne, Action.wp_bind, Action.wp_attempt]
  refine wp_ask_ok ⟨_, _, .confirmed _ _, _, rfl, ?_⟩
  refine ⟨_, _, .now _, ?_⟩
  refine wp_ask_ok ⟨_, _, .updatedOutbox hlock, _, rfl, ?_⟩
  refine wp_ask_ok ⟨_, _, .committed _, _, rfl, ?_⟩
  refine ⟨_, _, .closed _, ?_⟩
  refine ⟨m.published w.clock, ⟨?_, h.pending, h.webhookUrl, h.undelivered, ?_, rfl, h.payload, ?_,
    fun n => ?_⟩⟩
  · exact ((h.wrote t).1.rows_commit p.id).trans h.payment
  · refine (hwrote.rows_commit m.id).trans ?_
    simp [OutboxMessage.published]
  · change (w.accept t cfg (outboxPublication R m)).broker.queues paymentsNewQueueName = _
    simp only [World.accept, Broker.accept, h.broker, outboxPublication, h.routingKey, route_payments]
    rfl
  · change (w.accept t cfg (outboxPublication R m)).broker.queues (retryQueueName n) = _
    have hname : (retryQueueName n) ≠ paymentsNewQueue.name := (retryQueueName_ne n).1
    simp [World.accept, Broker.accept, h.broker, outboxPublication, h.routingKey, route_payments,
      hname.symm]

/-- The publication is refused by the broker, and can be tried again later. -/
theorem publishPendingBatch_refused {c : CreatePaymentCommand} {p : Payment} {m : OutboxMessage}
    {w : World} (h : Accepted c p m w) (hlt : m.attempts + 1 < maxPowerOfTwo) {error : ForeignError}
    (hdown : error.connectionLike = true) (t : ℕ) :
    (publishPendingBatch R cfg).wp (.possible (Exec cfg t))
      (fun _ w' => ∃ m', m'.attempts = m.attempts + 1 ∧
        m'.lastError = some (errorText R (.foreign error)) ∧
        ∀ clock, m'.nextRetryAt ≤ clock → Accepted c p m' { w' with clock := clock })
      (fun _ _ => False) w := by
  let m' := m.postponed (errorText R (.foreign error)) (w.clock + backoff (m.attempts + 1))
  have hsel := h.selected cfg
  have hfree : ∀ id ∈ [m].map OutboxMessage.id, w.outbox.Free t id := by
    simpa using .inl h.unlocked
  have hrow : ∀ id ∈ [m].map OutboxMessage.id, (w.outbox.rows id).isSome := by simp [h.message]
  have hlock : ∀ r ∈ [m'], (w.outbox.acquire t _ hfree hrow).lock r.id = some t := by
    simp [m', OutboxMessage.postponed]
  have hwrote := ((h.wrote t).2.acquire hfree hrow).update hlock
  have hdown' : looksLikeBrokerDown (.foreign error) = true := hdown
  rw [publishPendingBatch]
  simp only [Action.wp_bind, Action.wp_within]
  refine ⟨_, _, .now _, ?_⟩
  refine wp_ask_ok ⟨_, _, .batch (w := w.record t (.read w.clock)) hsel, _, rfl, ?_⟩
  simp only [publishRows, publishOne, Action.wp_bind, Action.wp_attempt]
  refine wp_ask_error ⟨_, _, .refused _ _ error, _, rfl, ?_⟩
  rw [nextRetryAt, if_neg (by omega), hdown']
  simp only [Action.wp_bind]
  refine (Action.wp_lift Op.now).mpr ⟨_, _, .now _, ?_⟩
  refine wp_ask_ok ⟨_, _, .updatedOutbox hlock, _, rfl, ?_⟩
  refine wp_ask_ok ⟨_, _, .committed _, _, rfl, ?_⟩
  refine ⟨_, _, .closed _, ?_⟩
  refine ⟨m', rfl, rfl, fun clock hclock => ⟨?_, h.pending, h.webhookUrl, h.undelivered, ?_, ?_,
    h.unpublished, hclock, h.routingKey, h.payload, fun t' => ?_, h.broker⟩⟩
  · exact ((h.wrote t).1.rows_commit p.id).trans h.payment
  · refine (hwrote.rows_commit m.id).trans ?_
    simp [m', OutboxMessage.postponed]
  · simp [World.commit, World.rollback, Table.released, m', OutboxMessage.postponed]
  · by_cases ht : t' = t
    · subst ht
      exact ⟨Table.wrote_rollback, Table.wrote_rollback⟩
    · constructor
      · exact ((h.wrote t').1.frame (.commit _) ht).frame (.rollback _) ht
      · have hacquired := (h.wrote t').2.frame (.acquire _ hfree hrow) ht
        exact ((hacquired.frame (.update _ hlock) ht).frame (.commit _) ht).frame (.rollback _) ht

/-! ## The run -/

/-- The event of an accepted payment has been published; the threads that did it have returned. -/
structure Published (c : CreatePaymentCommand) (p : Payment) (m : OutboxMessage)
    (s : (service R cfg).State) : Prop where
  reachable : (service R cfg).Reachable s
  idle : Idle s
  relayed : Relayed R c p m s.world

/-- A thread is started for `k` and returns. -/
theorem exists_ended {s : (service R cfg).State} (hi : Idle s) {k : Kind} {w : World}
    (hstart : Start s.born k s.world w) {Q : Out k → World → Prop}
    (hp : (code R cfg k).wp (.possible (Exec cfg s.born)) Q w) :
    ∃ (s' : (service R cfg).State) (out : Out k), (service R cfg).Run s s' ∧ Idle s' ∧
      Q out s'.world ∧ s'.threads = Function.update s.threads s.born (.running k (.ret out)) ∧
      s'.born = s.born + 1 := by
  obtain ⟨out, w', hpost, hrun⟩ := Machine.run_of_wp (M := service R cfg)
    (s := ⟨w, Function.update s.threads s.born (.running k (code R cfg k)), s.born + 1⟩)
    (Function.update_self ..) hp
  refine ⟨_, out, .head (.start hstart) hrun, fun t k' o c ht => ?_, hpost,
    Function.update_idem .., rfl⟩
  by_cases htb : t = s.born
  · subst htb
    cases (Function.update_self ..).symm.trans ht
  · rw [Function.update_idem] at ht
    exact hi t k' o c ((Function.update_of_ne htb _ _).symm.trans ht)

theorem exists_returned {s : (service R cfg).State} (hi : Idle s) {k : Kind} {w : World}
    (hstart : Start s.born k s.world w) {Q : World → Prop}
    (hp : (code R cfg k).wp (.possible (Exec cfg s.born)) (fun _ => Q) w) :
    ∃ s' : (service R cfg).State, (service R cfg).Run s s' ∧ Idle s' ∧ Q s'.world := by
  obtain ⟨s', -, hr, hi', hQ, -⟩ := exists_ended hi hstart hp
  exact ⟨s', hr, hi', hQ⟩

variable (cfg) in
/-- A request with a new key is accepted, and nothing else happens. -/
theorem exists_created {s : (service R cfg).State} (hi : Idle s) {c : CreatePaymentCommand} {f : Str}
    (hf : c.fingerprint R = .ok f) {id messageId : UUID} (h : Admissible c id messageId s.world) :
    ∃ s' : (service R cfg).State, (service R cfg).Run s s' ∧ Idle s' ∧
      s'.world = s.world.create s.born h f ∧ s'.born = s.born + 1 ∧
      s'.threads = Function.update s.threads s.born
        (.running (.create c) (.ret (.ok ⟨(newPayment c f id).row s.world.clock, false⟩))) := by
  obtain ⟨s', out, hr, hi', hpost, hthreads, hborn⟩ := exists_ended hi (.create c _)
    (createPayment_possible cfg hf h s.born)
  cases out with
  | error e => exact hpost.elim
  | ok result =>
    obtain ⟨rfl, hw⟩ := hpost
    exact ⟨s', hr, hi', hw, hborn, hthreads⟩

variable (cfg) in
/-- A request is accepted, and nothing else happens, in one run of the service. -/
theorem exists_accepting {c : CreatePaymentCommand} {f : Str} (hf : c.fingerprint R = .ok f) :
    ∃ s : (service R cfg).State, (service R cfg).Reachable s ∧ Idle s ∧
      s.world = World.accepting c f 0 0 ∧ s.born = 1 ∧ s.threads 0 =
        .running (.create c) (.ret (.ok ⟨(newPayment c f 0).row 0, false⟩)) := by
  let s₀ : (service R cfg).State := ⟨World.initial 0, fun _ => .unborn, 0⟩
  have h₀ : (service R cfg).Reachable s₀ := ⟨s₀, ⟨⟨0, rfl⟩, fun _ => rfl, rfl⟩, .refl⟩
  have hi₀ : Idle s₀ := fun _ _ _ _ ht => nomatch ht
  obtain ⟨s, hr, hi, hw, hborn, hthreads⟩ := exists_created cfg hi₀ hf (admissible_initial c 0)
  refine ⟨s, h₀.run hr, hi, hw, hborn, ?_⟩
  rw [hthreads]
  exact Function.update_self ..

/-- A request is accepted, and then the same request is answered with the payment of the first. -/
theorem exists_replayed {c : CreatePaymentCommand} {f : Str} (hf : c.fingerprint R = .ok f) :
    ∃ (p : Payment) (s : (service R cfg).State), (service R cfg).Reachable s ∧
      s.threads 0 = .running (.create c) (.ret (.ok ⟨p, false⟩)) ∧
      s.threads 1 = .running (.create c) (.ret (.ok ⟨p, true⟩)) := by
  obtain ⟨s, h, hi, hw, hborn, hfirst⟩ := exists_accepting cfg hf
  let p := (newPayment c f 0).row 0
  have hp : s.world.payments.rows p.id = some p := by
    rw [hw]
    exact World.rows_accepting.mpr ⟨rfl, rfl⟩
  obtain ⟨s', out, hr, -, hpost, hthreads, -⟩ := exists_ended hi (.create c _)
    (createPayment_replayed cfg (p := p) hf hp rfl s.born)
  cases out with
  | error e => exact hpost.elim
  | ok result =>
    obtain ⟨rfl, -⟩ := hpost
    rw [hborn] at hthreads
    refine ⟨p, s', h.run hr, ?_, ?_⟩
    · rw [hthreads, Function.update_of_ne zero_ne_one, hfirst]
    · rw [hthreads, Function.update_self]

/-- A request is accepted, in one run of the service. -/
theorem exists_accepted {c : CreatePaymentCommand} {f : Str} (hf : c.fingerprint R = .ok f) :
    ∃ (p : Payment) (m : OutboxMessage) (s : (service R cfg).State), (service R cfg).Reachable s ∧
      Idle s ∧ Accepted c p m s.world ∧ Untried p m s.world := by
  obtain ⟨s, h, hi, hw, -⟩ := exists_accepting cfg hf
  obtain ⟨p, m, hacc, hun⟩ := accepted_accepting c f 0 0
  exact ⟨p, m, s, h, hi, hw ▸ hacc, hw ▸ hun⟩

/-- **An accepted request is published**, in one run of the service. -/
theorem exists_published {c : CreatePaymentCommand} {f : Str} (hf : c.fingerprint R = .ok f) :
    ∃ (p : Payment) (m : OutboxMessage) (s : (service R cfg).State), Published c p m s := by
  obtain ⟨p, m, s, h, hi, hacc, -⟩ := exists_accepted hf
  obtain ⟨s', hr, hi', m', hrel⟩ := exists_returned (Q := fun w => ∃ m, Relayed R c p m w) hi
    (.relay _) (Prog.wp_mono _ (publishPendingBatch_possible hacc s.born) fun out w => by
      cases out with
      | ok count => exact id
      | error e => exact False.elim)
  exact ⟨p, m', s', h.run hr, hi', hrel⟩

/-- The broker cannot be reached. -/
def unreachable : ForeignError where
  typeName := Str.ofString "ConnectionError"
  text := Str.ofString "broker down"
  permanent := false
  connectionLike := true

variable (cfg) in
/-- An event is refused by the broker any number of times, as long as the delays have values. -/
theorem exists_postponed {c : CreatePaymentCommand} {f : Str} (hf : c.fingerprint R = .ok f) {n : ℕ}
    (hn : n < maxPowerOfTwo) :
    ∃ (p : Payment) (m : OutboxMessage) (s : (service R cfg).State), (service R cfg).Reachable s ∧
      Idle s ∧ Accepted c p m s.world ∧ m.attempts = n ∧
      ∀ text ∈ m.lastError, text = errorText R (.foreign unreachable) := by
  induction n with
  | zero =>
    obtain ⟨p, m, s, h, hi, hacc, hun⟩ := exists_accepted hf
    exact ⟨p, m, s, h, hi, hacc, hun.attempts, by simp [hun.lastError]⟩
  | succ n ih =>
    obtain ⟨p, m, s, h, hi, hacc, hattempts, -⟩ := ih (by omega)
    obtain ⟨s', hr, hi', m', hattempts', herror, hacc'⟩ := exists_returned
      (Q := fun w' => ∃ m', m'.attempts = m.attempts + 1 ∧
        m'.lastError = some (errorText R (.foreign unreachable)) ∧
        ∀ clock, m'.nextRetryAt ≤ clock → Accepted c p m' { w' with clock := clock }) hi
      (.relay _) (Prog.wp_mono _ (publishPendingBatch_refused hacc (by omega) rfl s.born)
        fun out w => by
        cases out with
        | ok count => exact id
        | error e => exact False.elim)
    let clock := max s'.world.clock m'.nextRetryAt
    refine ⟨p, m', ⟨{ s'.world with clock := clock }, s'.threads, s'.born⟩,
      (h.run hr).step (.env (.tick (le_max_left _ _))), hi', hacc' clock (le_max_right _ _), by omega, ?_⟩
    rw [herror]
    rintro _ ⟨⟩
    rfl

/-- A request to pay one and a half roubles for a book. -/
def bookCommand : CreatePaymentCommand where
  idempotencyKey := Str.ofString "order-1"
  amount := ⟨false, 15, -1⟩
  currency := .rub
  description := Str.ofString "book"
  metadata := []
  webhookUrl := some (Str.ofString "https://shop.example/hooks")

theorem bookCommand_validated : bookCommand.Validated where
  amount := ⟨150, by omega, by omega, by norm_num [bookCommand, Decimal.value]⟩
  description := Str.valid_ofString _
  metadata := ⟨⟨.nil, trivial⟩, trivial⟩
  webhookUrl := by simp [bookCommand, Str.valid_ofString]

/-- The same request under another key. -/
def secondCommand : CreatePaymentCommand :=
  { bookCommand with idempotencyKey := Str.ofString "order-2" }

/-- Validation of the body does not look at the key. -/
theorem CreatePaymentCommand.Validated.under {c : CreatePaymentCommand} (h : c.Validated) (key : Str) :
    { c with idempotencyKey := key }.Validated :=
  ⟨h.amount, h.description, h.metadata, h.webhookUrl⟩

theorem secondCommand_validated : secondCommand.Validated := bookCommand_validated.under _

theorem idempotencyKey_ne : bookCommand.idempotencyKey ≠ secondCommand.idempotencyKey :=
  fun heq => absurd (Str.ofString_injective heq) (by decide)

/-- There are two events, and nobody has tried to publish them. -/
structure TwoEvents (m m' : OutboxMessage) (w : World) : Prop where
  rows : ∀ id, w.outbox.rows id = if id = m'.id then some m' else if id = m.id then some m else none
  ne : m.id ≠ m'.id
  free : ∀ id, w.outbox.lock id = none
  wrote : ∀ t, w.outbox.Wrote t []
  untried : ∀ row ∈ [m, m'], row.createdAt = w.clock ∧ row.publishedAt = none ∧ row.attempts = 0 ∧
    row.nextRetryAt = w.clock ∧ row.lastError = none

/-- The relay can take both. -/
theorem TwoEvents.selected {m m' : OutboxMessage} {w : World} (h : TwoEvents m m' w) {limit : ℕ}
    (hlimit : 2 ≤ limit) : Selected w.outbox limit w.clock [m, m'] := by
  have hm := h.untried m (by simp)
  have hm' := h.untried m' (by simp)
  refine ⟨by simpa using h.ne, by simp [hm.1, hm'.1], hlimit, ?_, fun r _ => h.free r.id, ?_⟩
  · simp [h.rows, h.ne]
  · simp [hm, hm']

variable (cfg) in
/-- Two requests are accepted, in one run of the service. -/
theorem exists_two_accepted (R : Runtime) :
    ∃ (m m' : OutboxMessage) (s : (service R cfg).State), (service R cfg).Reachable s ∧ Idle s ∧
      TwoEvents m m' s.world := by
  obtain ⟨f, hf⟩ := bookCommand_validated.exists_fingerprint R
  obtain ⟨f', hf'⟩ := secondCommand_validated.exists_fingerprint R
  obtain ⟨s, h, hi, hw, -⟩ := exists_accepting cfg hf
  have hone : (1 : UUID) ≠ 0 := by decide
  have hfree : Admissible secondCommand 1 1 s.world := by
    rw [hw]
    refine ⟨fun id p hp => ?_, ?_, ?_, World.wrote_create _ _ _⟩
    · obtain ⟨-, rfl⟩ := World.rows_accepting.mp hp
      exact idempotencyKey_ne
    · exact (World.rows_create ..).trans (if_neg hone)
    · exact (World.messages_create ..).trans (if_neg hone)
  obtain ⟨s', hr, hi', hw', -⟩ := exists_created cfg hi hf' hfree
  have hclock : s.world.clock = 0 := by
    rw [hw]
    rfl
  refine ⟨(newOutboxMessage 0 0 0).row 0, (newOutboxMessage 1 1 0).row 0, s', h.run hr, hi', ?_⟩
  rw [hw']
  refine ⟨fun id => ?_, hone.symm, fun id => ?_, fun t => (World.wrote_create ..).2, ?_⟩
  · rw [World.messages_create, hclock, hw]
    exact if_congr Iff.rfl rfl (World.messages_create ..)
  · refine World.lock_create _ _ _ ?_
    rw [hw]
    exact World.lock_create _ _ _ rfl
  · have hclock' : (s.world.create s.born hfree f').clock = 0 := hclock
    rw [hclock']
    simp [newOutboxMessage, NewOutboxMessage.row]

/-- The request for the book is published, with the default settings. -/
theorem exists_book_published :
    ∃ (p : Payment) (m : OutboxMessage) (s : (service .transparent default).State),
      Published bookCommand p m s := by
  obtain ⟨f, hf⟩ := bookCommand_validated.exists_fingerprint .transparent
  exact exists_published hf

end Payments
