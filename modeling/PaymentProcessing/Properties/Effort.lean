import PaymentProcessing.System.Progress
import PaymentProcessing.System.Tariff

/-!
# How much the service does about a payment

A payment does not keep the service or the client busy without end. Every copy of its event that the
broker accepts, and every message about it that gets back into `payments.new`, is good for one
message in the queues and for `max_retries + 1` notifications, whatever fails and in whatever order
(`notification_effort`).
-/

namespace Payments

open Effects Python Store Finset

variable {R : Runtime} {cfg : Settings} {id : UUID}

/-! ## What a delivery may still do -/

namespace ConsumerPhase

/-- A notification may still be sent. -/
def mayPost : ConsumerPhase → Bool
  | .fresh => true
  | .opened _ => true
  | .charging _ => true
  | .charged _ _ => true
  | .chargedAt _ _ _ => true
  | .finalFlushed _ _ _ => true
  | .finalCommitted => true
  | .finalized => true
  | .reopened _ => true
  | _ => false

/-- A copy of the message may still be published. -/
def mayRoute : ConsumerPhase → Bool
  | .routed => false
  | .requeueing => false
  | .done => false
  | _ => true

end ConsumerPhase

variable (id) in
/-- A move of a delivery publishes a copy, sends a notification, or spends nothing. -/
theorem ConsumerMove.spends_cases {m : Message} {φ φ' : ConsumerPhase} {o : Op} {r : Res o}
    (hm : ConsumerMove R cfg m φ o r φ') :
    (∃ p, o = .publish p ∧ Routed R cfg m p ∧ φ.mayRoute ∧ φ'.mayRoute = false ∧
      φ'.mayPost = false) ∨
    (∃ p, o = .httpPost (webhookRequest R cfg p) ∧ p ∈ φ.held ∧ φ.mayPost ∧ φ'.mayPost = false ∧
      φ.mayRoute) ∨
    ((∀ copy post, o.spends cfg id copy post = 0) ∧ (φ'.mayPost → φ.mayPost) ∧
      (φ'.mayRoute → φ.mayRoute)) := by
  cases hm with
  | @malformed text _ _ ha =>
    exact .inl ⟨_, rfl, .dlq ha (.inr (.inl ⟨text, rfl⟩)), rfl, rfl, rfl⟩
  | @malformedFailed text _ _ ha =>
    exact .inl ⟨_, rfl, .dlq ha (.inr (.inl ⟨text, rfl⟩)), rfl, rfl, rfl⟩
  | routed ha => exact .inl ⟨_, rfl, routed_failurePublication ha _, rfl, rfl, rfl⟩
  | notRouted ha => exact .inl ⟨_, rfl, routed_failurePublication ha _, rfl, rfl, rfl⟩
  | sending => exact .inr (.inl ⟨_, rfl, rfl, rfl, rfl, rfl⟩)
  | _ =>
    exact .inr (.inr ⟨fun _ _ => rfl, by simp [ConsumerPhase.mayPost],
      by simp [ConsumerPhase.mayRoute]⟩)

/-- The retry counter, if it can be read. -/
def Message.attempt (m : Message) : ℕ :=
  match currentAttempt m.headers with
  | .ok attempt => attempt
  | .error _ => 0

theorem Message.attempt_congr {m m' : Message}
    (h : ∀ key, key ∉ brokerOwnedHeaders → m'.headers key = m.headers key) :
    m'.attempt = m.attempt := by
  have hcount : m'.headers retryCountHeader = m.headers retryCountHeader := h _ (by decide)
  simp only [Message.attempt, currentAttempt, hcount]

variable (id) in
/-- A copy of a failed message goes to one queue, and its counter says how often it failed. -/
theorem Routed.spends {m : Message} {p : Publication} (h : Routed R cfg m p) :
    eventPayment R p.message = eventPayment R m ∧
    ∃ q, (∀ copy post, (Op.publish p).spends cfg id copy post = copy q p.message) ∧
      (q = dlqName ∨ (m.attempt < cfg.maxRetries ∧ p.message.attempt = m.attempt + 1)) := by
  refine ⟨eventPayment_congr h.descends.body, ?_⟩
  cases h with
  | dlq ha _ =>
    refine ⟨dlqName, fun copy post => ?_, .inl rfl⟩
    simp [Op.spends, dlqPublication, route_dlx, dlqQueue]
  | @retry attempt error ha hle =>
    have hm : m.attempt = attempt := by simp [Message.attempt, ha]
    refine ⟨retryQueueName (attempt + 1), fun copy post => ?_, .inr ⟨by omega, ?_⟩⟩
    · simp [Op.spends, retryPublication, route_retry cfg (Nat.le_add_left 1 attempt) hle,
        retryQueue, buildRetryQueue]
    · rw [hm]
      simp [Message.attempt, retryPublication, routedMessage]

/-! ## Counting messages -/

section Copies

variable (R cfg id)

/-- A message about the payment is one, in every queue. -/
def copyWorth (m : Message) : ℕ := if eventPayment R m = some id then 1 else 0

/-- A delivery may still publish a copy. -/
def copyCredit (m : Message) (φ : ConsumerPhase) : ℕ :=
  if eventPayment R m = some id then φ.mayRoute.toNat else 0

variable {R cfg id}

theorem copyWorth_le (m : Message) : copyWorth R id m ≤ 1 := by
  unfold copyWorth
  split
  · exact le_rfl
  · exact Nat.zero_le 1

theorem copyCredit_move {m : Message} {φ φ' : ConsumerPhase} {o : Op} {r : Res o}
    (hm : ConsumerMove R cfg m φ o r φ') :
    o.spends cfg id (fun _ => copyWorth R id) 0 + copyCredit R id m φ' ≤ copyCredit R id m φ := by
  rcases hm.spends_cases id with ⟨p, rfl, hp, hroute, hroute', -⟩ |
    ⟨p, rfl, -, -, -, hroute⟩ | ⟨hzero, -, hroute⟩
  · obtain ⟨hbody, q, hspends, -⟩ := hp.spends id
    simp [hspends, copyWorth, copyCredit, hbody, hroute, hroute']
  · simp only [Op.spends, ite_self, copyCredit, hroute, Nat.zero_add]
    split
    · exact Bool.toNat_le _
    · exact le_rfl
  · rw [hzero, Nat.zero_add]
    unfold copyCredit
    split
    · exact Bool.toNat_le_toNat hroute
    · exact le_rfl

variable (R cfg id)

/-- **Messages are counted.** -/
def copiesTariff : Tariff R cfg id where
  copy _ := copyWorth R id
  post := 0
  delivery := copyCredit R id
  price := 1
  other h := if_neg h
  copy_le := copyWorth_le
  expired hbody _ := (congrArg (if · = some id then 1 else 0) (eventPayment_congr hbody)).le
  fresh _ := le_rfl
  move hm _ := copyCredit_move hm

end Copies

/-! ## Counting notifications -/

section Notifications

variable (R cfg id)

/-- A message that is not given up is good for one notification now, and for one in every attempt
that is left. -/
def notificationWorth (q : String) (m : Message) : ℕ :=
  if eventPayment R m = some id ∧ q ≠ dlqName then 1 + (cfg.maxRetries - m.attempt) else 0

/-- A delivery may still send a notification, and it may still publish a copy that is good for the
attempts that are left. -/
def notificationCredit (m : Message) (φ : ConsumerPhase) : ℕ :=
  if eventPayment R m = some id then
    φ.mayPost.toNat + φ.mayRoute.toNat * (cfg.maxRetries - m.attempt)
  else 0

variable {R cfg id}

theorem notificationWorth_main (m : Message) : notificationWorth R cfg id paymentsNewQueueName m =
    if eventPayment R m = some id then 1 + (cfg.maxRetries - m.attempt) else 0 := by
  simp [notificationWorth, paymentsNewQueueName_ne_dlqName]

theorem notificationWorth_le (m : Message) :
    notificationWorth R cfg id paymentsNewQueueName m ≤ cfg.maxRetries + 1 := by
  rw [notificationWorth_main]
  split
  · omega
  · exact Nat.zero_le _

theorem notificationWorth_expired {n : ℕ} {m m' : Message} (hbody : m'.body = m.body)
    (hkeys : ∀ key, key ∉ brokerOwnedHeaders → m'.headers key = m.headers key) :
    notificationWorth R cfg id paymentsNewQueueName m' ≤
      notificationWorth R cfg id (retryQueueName n) m := by
  simp [notificationWorth, eventPayment_congr hbody, Message.attempt_congr hkeys,
    (retryQueueName_ne n).2, paymentsNewQueueName_ne_dlqName]

theorem notificationCredit_fresh (m : Message) :
    notificationCredit R cfg id m .fresh ≤ notificationWorth R cfg id paymentsNewQueueName m := by
  simp [notificationWorth_main, notificationCredit, ConsumerPhase.mayPost, ConsumerPhase.mayRoute]

theorem notificationCredit_move {m : Message} {φ φ' : ConsumerPhase} {o : Op} {r : Res o}
    (hm : ConsumerMove R cfg m φ o r φ') (hheld : ∀ p ∈ φ.held, eventPayment R m = some p.id) :
    o.spends cfg id (notificationWorth R cfg id) 1 + notificationCredit R cfg id m φ' ≤
      notificationCredit R cfg id m φ := by
  rcases hm.spends_cases id with ⟨p, rfl, hp, hroute, hroute', hpost'⟩ |
    ⟨p, rfl, hp, hpost, hpost', hroute⟩ | ⟨hzero, hpost, hroute⟩
  · obtain ⟨hbody, q, hspends, hq⟩ := hp.spends id
    rw [hspends]
    rcases hq with rfl | ⟨hlt, hattempt⟩
    · simp [notificationWorth, notificationCredit, hroute', hpost']
    · simp only [notificationWorth, notificationCredit, hbody, hattempt, hroute, hroute', hpost']
      by_cases hid : eventPayment R m = some id
      · have hle : (if eventPayment R m = some id ∧ q ≠ dlqName then
            1 + (cfg.maxRetries - (m.attempt + 1)) else 0) ≤ cfg.maxRetries - m.attempt := by
          split
          · omega
          · exact Nat.zero_le _
        simp only [if_pos hid, Bool.toNat_false, Bool.toNat_true]
        omega
      · simp [hid]
  · have hid : eventPayment R m = some id ↔ p.id = id := by
      rw [hheld p hp, Option.some.injEq]
    have hreq : (webhookRequest R cfg p).payload.paymentId = p.id := rfl
    simp only [Op.spends, notificationCredit, hreq, hid, hpost, hpost', hroute, Bool.toNat_true,
      Bool.toNat_false]
    split
    · have hle := Nat.mul_le_mul_right (cfg.maxRetries - m.attempt) (Bool.toNat_le φ'.mayRoute)
      omega
    · exact le_rfl
  · rw [hzero, Nat.zero_add]
    unfold notificationCredit
    split
    · exact Nat.add_le_add (Bool.toNat_le_toNat hpost)
        (Nat.mul_le_mul_right _ (Bool.toNat_le_toNat hroute))
    · exact le_rfl

variable (R cfg id)

/-- **Notifications are counted.** -/
def notificationTariff : Tariff R cfg id where
  copy := notificationWorth R cfg id
  post := 1
  delivery := notificationCredit R cfg id
  price := cfg.maxRetries + 1
  other h := if_neg fun hq => h hq.1
  copy_le := notificationWorth_le
  expired := notificationWorth_expired
  fresh := notificationCredit_fresh
  move := notificationCredit_move

end Notifications

/-! ## The publications of the relay -/

variable {v : View R cfg}

/-- What goes to the main exchange is a copy of an outbox row. -/
theorem exists_copies (h : (serviceSpec R cfg).Reachable v) {p : Publication} {o : PublishOutcome}
    (hp : .published p o ∈ v.world.journal.log) (he : p.exchange = paymentsExchange) :
    ∃ messageId, p.copies messageId := by
  refine mem_log (P := fun _ e => e = .published p o → ∃ messageId, p.copies messageId) ?_ ?_ h hp
    rfl
  · rintro v v' _ hv hs hlog rfl
    obtain ⟨ht, hm, hr⟩ := recorded hs hlog
    cases hr
    rcases hm.publish_cases (knows hv ht) with ⟨ψ, row, -, -, rfl⟩ | ⟨m, ψ, -, hrouted⟩
    · exact ⟨row.id, by simp [copies_outboxPublication]⟩
    · have hne : ∀ x ∈ [dlxExchange, retryExchange], x ≠ paymentsExchange := by decide
      cases hrouted with
      | dlq => exact absurd he (hne _ (by simp [dlqPublication]))
      | retry => exact absurd he (hne _ (by simp [retryPublication]))
  · exact fun _ _ ih => ih

/-- The publications about a payment are those of its outbox row. -/
theorem countP_enqueues (h : (serviceSpec R cfg).Reachable v) {messageId : UUID} {m : OutboxMessage}
    (hm : v.world.outbox.rows messageId = some m) (ha : m.aggregateId = id) :
    v.world.journal.log.countP (Event.enqueues R id) =
      v.world.journal.log.countP (Event.accepts messageId) := by
  have hpaired := paired h
  have hiff : ∀ {p : Publication} {o : PublishOutcome}, .published p o ∈ v.world.journal.log →
      (p.exchange = paymentsExchange ∧ eventPayment R p.message = some id ↔
        p.copies messageId = true) := by
    intro p o hp
    constructor
    · rintro ⟨he, hid⟩
      obtain ⟨messageId', hc⟩ := exists_copies h hp he
      obtain ⟨row, hrow, rfl⟩ := published_copy h hp hc
      have hpay := (hpaired.payment _ _ hrow).2.1
      rw [eventPayment_outboxPublication, hpay, Option.some.injEq] at hid
      obtain rfl := hpaired.unique _ _ _ _ hrow hm (hid.trans ha.symm)
      exact hc
    · intro hc
      obtain ⟨row, hrow, rfl⟩ := published_copy h hp hc
      obtain rfl : row = m := by simpa [hm] using hrow.symm
      refine ⟨rfl, ?_⟩
      rw [eventPayment_outboxPublication, (hpaired.payment _ _ hm).2.1, ha]
  refine List.countP_congr fun e he => ?_
  cases e with
  | published p o =>
    cases o with
    | refused => simp [Event.enqueues, Event.accepts, Event.confirms, Event.loses]
    | _ => simp [Event.enqueues, Event.accepts, Event.confirms, Event.loses, hiff he]
  | _ => simp [Event.enqueues, Event.accepts, Event.confirms, Event.loses]

/-! ## The bound -/

theorem sum_copyWorth (l : List Envelope) :
    (l.map fun e => copyWorth R id e.message).sum =
      l.countP fun e => eventPayment R e.message = some id := by
  induction l with
  | nil => rfl
  | cons e l ih =>
    rw [List.map_cons, List.sum_cons, ih, List.countP_cons, Nat.add_comm]
    simp [copyWorth]

/-- **The work on a payment is bounded.** As many messages about it are in queues, at most, as the
broker accepted copies of its event and took messages about it back, and `max_retries + 1` times as
many notifications are sent. -/
theorem notification_effort {s₀ s : (service R cfg).State} {n : ℕ}
    (h₀ : (service R cfg).Initial s₀)
    (hr : Tally (service R cfg).Step (fun s s' => Readmitted R id s.world s'.world) s₀ n s)
    {messageId : UUID} {m : OutboxMessage} (hm : s.world.outbox.rows messageId = some m)
    (ha : m.aggregateId = id) :
    ∑ q ∈ queueNames cfg,
        (s.world.broker.queues q).countP (fun e => eventPayment R e.message = some id) ≤
      s.world.journal.log.countP (Event.accepts messageId) + n ∧
    s.world.journal.log.countP (Event.posts id) ≤
      (cfg.maxRetries + 1) * (s.world.journal.log.countP (Event.accepts messageId) + n) := by
  let v₀ : View R cfg := ⟨s₀.world, fun _ => .unborn, 0⟩
  have hv₀ : (serviceSpec R cfg).Initial v₀ := ⟨h₀.1, fun _ => rfl, rfl⟩
  have htr₀ : (serviceSpec R cfg).Tracks s₀ v₀ := by
    refine ⟨rfl, fun t => ?_, h₀.2.2.symm⟩
    rw [h₀.2.1 t]
    exact .unborn
  obtain ⟨v, hv, htr⟩ := htr₀.tally (Readmitted R id) hr
  rw [← htr.world] at hm ⊢
  rw [← countP_enqueues ⟨v₀, hv₀, hv.run⟩ hm ha]
  constructor
  · have hle := (copiesTariff R cfg id).bounded hv₀ hv
    have hworth : (copiesTariff R cfg id).worth v.world.broker = ∑ q ∈ queueNames cfg,
        (v.world.broker.queues q).countP fun e => eventPayment R e.message = some id :=
      sum_congr rfl fun q _ => sum_copyWorth _
    simp only [Tariff.account, Tariff.outlay, Tariff.income, hworth] at hle
    change _ + _ ≤ 1 * _ + 1 * n at hle
    omega
  · have hle := (notificationTariff R cfg id).bounded hv₀ hv
    simp only [Tariff.account, Tariff.outlay, Tariff.income] at hle
    change 1 * _ + _ + _ ≤ (cfg.maxRetries + 1) * _ + (cfg.maxRetries + 1) * n at hle
    rw [Nat.mul_add]
    omega

/-- The event of the payment for the book is delivered to a process that is killed. -/
theorem notification_effort_redelivered :
    ∃ (p : Payment) (m : OutboxMessage) (s : (service .transparent default).State) (n : ℕ),
      0 < n ∧ s.world.broker.queues paymentsNewQueueName = [relayed .transparent m] ∧
      s.world.journal.log.countP (Event.posts p.id) ≤
        4 * (s.world.journal.log.countP (Event.accepts m.id) + n) := by
  obtain ⟨p, m, s, h⟩ := exists_book_published
  obtain ⟨-, -, -, -, hm, -, hpay, hmain, -⟩ := h.relayed
  obtain ⟨s₀, h₀, hrun⟩ := h.reachable
  obtain ⟨v, hv, htr⟩ := Machine.Spec.tracked (serviceSpec .transparent default) h.reachable
  have ha : m.aggregateId = p.id :=
    ((paired hv).payment _ _ (htr.world ▸ hm)).2.1.symm.trans hpay
  obtain ⟨n, hn⟩ : ∃ n, Tally (service .transparent default).Step
      (fun s s' => Readmitted .transparent p.id s.world s'.world) s₀ n s :=
    Tally.exists_of_run hrun
  have hstart : (service .transparent default).start s.born (.deliver (relayed .transparent m))
      s.world _ := .deliver (show _ = [] ++ relayed .transparent m :: [] from hmain)
  have hdelivered := hn.plain (.start hstart) fun hre => by
    obtain ⟨e, -, he⟩ := hre.main
    simp [hmain, Broker.deliver] at he
  have hback : (s.world.broker.deliver s.born (relayed .transparent m) []).requeue s.born =
      ((s.world.broker.deliver s.born (relayed .transparent m) []).accept [paymentsNewQueueName]
        (relayed .transparent m)).settle s.born := by
    simp [Broker.requeue, Broker.deliver]
  have hcrash := hdelivered.marked (.crash (Function.update_self ..) rfl) <| by
    refine ⟨rfl, fun n => ?_, relayed .transparent m, ?_, ?_⟩
    · change (Broker.requeue _ _).queues _ = _
      rw [List.append_nil, hback]
      simp [Broker.accept, Broker.settle, Broker.deliver, (retryQueueName_ne n).1,
        (retryQueueName_ne n).1.symm]
    · exact (eventPayment_outboxPublication m).trans (congrArg some hpay)
    · change (Broker.requeue _ _).queues _ = _
      rw [List.append_nil, hback]
      simp [Broker.accept, Broker.settle, Broker.deliver]
  refine ⟨p, m, _, n + 1, n.succ_pos, ?_, (notification_effort h₀ hcrash hm ha).2⟩
  change (Broker.requeue _ _).queues _ = _
  rw [List.append_nil, hback]
  simp [Broker.accept, Broker.settle, Broker.deliver]

end Payments
