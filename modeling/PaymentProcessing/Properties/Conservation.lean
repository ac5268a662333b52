import PaymentProcessing.Properties.Publication
import PaymentProcessing.Properties.Routing
import PaymentProcessing.System.Progress

/-!
# No payment is lost

A payment that is accepted is settled, or waits in the outbox, or is carried by a message that has
yet to be handled (`payment_conservation`). A message stops being a carrier when a copy of it is in
a queue or the payment is settled, and only then is it acknowledged.
-/

namespace Payments

open Effects Python Store Relation

variable {R : Runtime} {cfg : Settings} {v v' : View R cfg} {id : UUID}

/-! ## Carriers -/

variable (R cfg) in
/-- A message about the payment is in a queue. -/
inductive Queued (B : Broker) (id : UUID) : Prop
  | intro {q : RabbitQueue} {e : Envelope} (hq : q ∈ queues cfg) (he : e ∈ B.queues q.name)
      (hid : eventPayment R e.message = some id)

/-- A message about the payment is delivered and will not be acknowledged before it is handled. -/
inductive InHand (v : View R cfg) (id : UUID) : Prop
  | intro {t : ℕ} {e : Envelope} (hd : v.world.broker.delivered t = some e)
      (hu : v.world.broker.unacked t = true) (hid : eventPayment R e.message = some id)
      (hr : ∀ m, v.status t ≠ .active (.consumer m .routed))

/-- The payment is settled or has a carrier. -/
inductive Carried (v : View R cfg) (id : UUID) : Prop
  | settled {p : Payment} (hp : v.world.payments.rows id = some p) (hs : p.Settled)
  | queued (h : Queued R cfg v.world.broker id)
  | inHand (h : InHand v id)

theorem paymentsNewQueue_mem : paymentsNewQueue ∈ queues cfg :=
  mem_queues_of_mem_route cfg (by rw [route_payments]; exact List.mem_singleton_self _)

/-! ## Queues -/

namespace Queued

variable {B : Broker} {e : Envelope} {t : ℕ}

theorem main (he : e ∈ B.queues paymentsNewQueueName) (hid : eventPayment R e.message = some id) :
    Queued R cfg B id :=
  ⟨paymentsNewQueue_mem, he, hid⟩

theorem accept (h : Queued R cfg B id) {names : List String} :
    Queued R cfg (B.accept names e) id := by
  obtain ⟨hq, he, hid⟩ := h
  exact ⟨hq, Broker.mem_accept_of_mem he, hid⟩

theorem requeue (h : Queued R cfg B id) : Queued R cfg (B.requeue t) id := by
  obtain ⟨hq, he, hid⟩ := h
  exact ⟨hq, Broker.mem_requeue_of_mem he, hid⟩

/-- A message that is put into one of the queues it is routed to. -/
theorem accepted {p : Publication} (hp : p.Deliverable cfg)
    (hid : eventPayment R p.message = some id) {w : World} :
    Queued R cfg (w.accept t cfg p).broker id := by
  obtain ⟨q, hq, hroute⟩ := hp.bound
  refine ⟨hq, Broker.mem_accept_self ?_, hid⟩
  rw [hroute]
  exact List.mem_singleton_self _

/-- A message that leaves its queue for others is in one of these. -/
theorem move (h : Queued R cfg B id) {name : String} {names : List String}
    {before after : List Envelope} {e' : Envelope} (hq : B.queues name = before ++ e :: after)
    (he' : eventPayment R e'.message = eventPayment R e.message)
    (hnames : paymentsNewQueueName ∈ names) :
    Queued R cfg (B.move name (before ++ after) names e') id := by
  obtain @⟨q', e₁, hq', he, hid⟩ := h
  by_cases hname : q'.name = name
  · rw [hname, hq] at he
    rcases List.mem_cons.mp (List.perm_middle.mem_iff.mp he) with rfl | hrest
    · exact main (Broker.mem_accept_self hnames) (he'.trans hid)
    · refine ⟨hq', Broker.mem_accept_of_mem ?_, hid⟩
      simpa [hname] using hrest
  · refine ⟨hq', Broker.mem_accept_of_mem ?_, hid⟩
    simpa [hname] using he

end Queued

/-! ## One step -/

/-- A message that leaves `payments.new` is in the hands of a new delivery. -/
theorem Queued.deliver (h : Queued R cfg v.world.broker id) {t : ℕ} {e : Envelope}
    {before after : List Envelope}
    (hq : v.world.broker.queues paymentsNewQueueName = before ++ e :: after)
    (hw : v'.world.broker = v.world.broker.deliver t e (before ++ after))
    (hst : v'.status t = .active (.consumer e.message .fresh)) : Carried v' id := by
  obtain @⟨q, e', hq', he, hid⟩ := h
  by_cases hname : q.name = paymentsNewQueueName
  · rw [hname, hq] at he
    rcases List.mem_cons.mp (List.perm_middle.mem_iff.mp he) with rfl | hrest
    · refine .inHand (.intro (t := t) (e := e') ?_ ?_ hid fun m h => ?_)
      · rw [hw]
        exact Function.update_self ..
      · rw [hw]
        exact Function.update_self ..
      · cases hst.symm.trans h
    · refine .queued (.main (e := e') ?_ hid)
      rw [hw]
      simpa [Broker.deliver] using hrest
  · refine .queued (.intro (e := e') hq' ?_ hid)
    rw [hw]
    simpa [Broker.deliver, hname] using he

section Exec

variable {w w' : World} {t : ℕ} {o : Op} {r : Res o} {m : Message} {ψ ψ' : ConsumerPhase}

theorem Queued.exec (h : Queued R cfg w.broker id) (hx : Exec cfg t o r w w') :
    Queued R cfg w'.broker id := by
  rcases hx.broker_cases with heq | ⟨p, -, heq⟩ | ⟨-, heq⟩ | ⟨-, heq⟩ <;> rw [heq]
  · exact h
  · exact h.accept
  · obtain ⟨hq, he, hid⟩ := h
    exact ⟨hq, he, hid⟩
  · exact h.requeue

/-- A delivery of which a copy is routed has published the copy. -/
theorem ConsumerMove.published (hm : ConsumerMove R cfg m ψ o r .routed)
    (hx : Exec cfg t o r w w') :
    ∃ p, Routed R cfg m p ∧ w'.broker = (w.accept t cfg p).broker := by
  cases hm with
  | @malformed text attempt _ ha =>
    cases hx
    exact ⟨_, .dlq ha (.inr (.inl ⟨text, rfl⟩)), rfl⟩
  | @routed attempt error ha =>
    cases hx
    exact ⟨_, routed_failurePublication ha error, rfl⟩

/-- **How a delivery lets go of its message**: the payment is settled, a copy is published, or the
message is ready again. -/
theorem ConsumerMove.release (hm : ConsumerMove R cfg m ψ o r ψ') (hx : Exec cfg t o r w w')
    (hψ : ψ ≠ .routed) :
    ψ = .settled ∨ (∃ p, Routed R cfg m p ∧ w'.broker = (w.accept t cfg p).broker) ∨
      (ψ' ≠ .routed ∧ (w'.broker.unacked = w.broker.unacked ∨ w'.broker = w.broker.requeue t)) := by
  by_cases hψ' : ψ' = .routed
  · subst hψ'
    exact .inr (.inl (hm.published hx))
  · rcases hx.broker_cases with heq | ⟨p, -, heq⟩ | ⟨rfl, -⟩ | ⟨-, heq⟩
    · exact .inr (.inr ⟨hψ', .inl (by rw [heq])⟩)
    · exact .inr (.inr ⟨hψ', .inl (by rw [heq]; rfl)⟩)
    · cases hm with
      | acked => exact .inl rfl
      | ackFailed => exact .inl rfl
      | routedAcked => exact absurd rfl hψ
      | routedAckFailed => exact absurd rfl hψ
    · exact .inr (.inr ⟨hψ', .inr heq⟩)

end Exec

/-- Messages are given back. -/
theorem carried_of_requeue {t i : ℕ} {e : Envelope} (hd : v.world.broker.delivered t = some e)
    (hu : v.world.broker.unacked t = true) (hid : eventPayment R e.message = some id)
    (hw : v'.world.broker = v.world.broker.requeue i)
    (hr : ∀ m, v'.status t ≠ .active (.consumer m .routed)) : Carried v' id := by
  rcases Broker.held_requeue hd hu i with hu' | he
  · refine .inHand (.intro (t := t) (e := e) ?_ ?_ hid hr)
    · rw [hw, Broker.delivered_requeue, hd]
    · rw [hw, hu']
  · refine .queued (.main (e := e) ?_ hid)
    rwa [hw]

/-- A message in a queue remains one, or is handed to a new delivery. -/
theorem Queued.step (hs : (serviceSpec R cfg).Step v v') (hq : Queued R cfg v.world.broker id) :
    Carried v' id := by
  cases hs with
  | start hst =>
    cases hst with
    | create => exact .queued hq
    | relay => exact .queued hq
    | deliver hqueue => exact hq.deliver hqueue rfl (Function.update_self ..)
  | exec ht hm hx => exact .queued (hq.exec hx)
  | @crash t φ w ht hw =>
    obtain rfl : w = World.crash v.world t := hw
    exact .queued hq.requeue
  | env he =>
    cases he with
    | tick => exact .queued hq
    | expired he =>
      obtain ⟨n, before, after, e, headers, hqueue, -, rfl⟩ := he.retry
      exact .queued (hq.move hqueue (eventPayment_congr rfl) (List.mem_singleton_self _))
    | foreign m => exact .queued hq.accept
    | channelLost t => exact .queued hq.requeue

/-- What becomes of the message of a delivery that acts. -/
theorem carried_of_exec (h : (serviceSpec R cfg).Reachable v) {t : ℕ} {e : Envelope} {φ φ' : Phase}
    {o : Op} {r : Res o} {w : World} (hd : v.world.broker.delivered t = some e)
    (hu : v.world.broker.unacked t = true) (hid : eventPayment R e.message = some id)
    (hr : ∀ m, v.status t ≠ .active (.consumer m .routed)) (ht : v.status t = .active φ)
    (hm : Move R cfg φ o r φ') (hx : Exec cfg t o r v.world w) :
    Carried (v := ⟨w, Function.update v.status t (.active φ'), v.born⟩) id := by
  obtain ⟨ψ, rfl⟩ := consumer_of_delivered h ht hd
  have hk := knows h ht
  have hs := Machine.Spec.Step.exec ht hm hx
  cases hm with
  | @consumer _ _ ψ' _ _ hm =>
    have hψ : ψ ≠ .routed := fun hψ => hr e.message (by rw [ht, hψ])
    rcases hm.release hx hψ with rfl | ⟨p, hp, heq⟩ | ⟨hψ', heq⟩
    · obtain ⟨id', p, hid', hrow, hset⟩ := ConsumerPhase.Knows.known hk rfl
      obtain rfl : id = id' := by simpa [hid] using hid'
      obtain ⟨p', hp', hl⟩ := step_payments h hs hrow
      exact .settled hp' (hl.settled hset)
    · refine .queued ?_
      change Queued R cfg w.broker id
      rw [heq]
      exact .accepted hp.deliverable ((eventPayment_congr hp.descends.body).trans hid)
    · have hr' : ∀ m, Function.update v.status t (.active (.consumer e.message ψ')) t ≠
          .active (.consumer m .routed) := fun m hst => by
        rw [Function.update_self] at hst
        cases hst
        exact hψ' rfl
      rcases heq with heq | heq
      · refine .inHand (.intro (t := t) (e := e) ?_ ?_ hid hr')
        · exact (congrFun (Exec.delivered hx) t).trans hd
        · exact (congrFun heq t).trans hu
      · exact carried_of_requeue hd hu hid heq hr'

/-- A message in the hands of a delivery remains there, or finds its place. -/
theorem InHand.step (h : (serviceSpec R cfg).Reachable v) (hs : (serviceSpec R cfg).Step v v')
    (hi : InHand v id) : Carried v' id := by
  obtain @⟨t, e, hd, hu, hid, hr⟩ := hi
  cases hs with
  | start hst =>
    have ht : t ≠ v.born := by
      rintro rfl
      have hnone := delivering h v.born
      rw [h.unborn.mpr le_rfl] at hnone
      exact absurd (hd.symm.trans hnone) (by simp)
    have hr' : ∀ m y, Function.update v.status v.born y t ≠ .active (.consumer m .routed) :=
      fun m y => by rw [Function.update_of_ne ht]; exact hr m
    cases hst with
    | create => exact .inHand ⟨hd, hu, hid, fun m => hr' m _⟩
    | relay => exact .inHand ⟨hd, hu, hid, fun m => hr' m _⟩
    | deliver =>
      exact .inHand ⟨(Function.update_of_ne ht _ _).trans hd,
        (Function.update_of_ne ht _ _).trans hu, hid, fun m => hr' m _⟩
  | @exec t' φ φ' o r w ht hm hx =>
    by_cases htt : t = t'
    · subst htt
      exact carried_of_exec h hd hu hid hr ht hm hx
    · refine .inHand (.intro (t := t) (e := e) ?_ ?_ hid fun m hst => ?_)
      · exact (congrFun (Exec.delivered hx) t).trans hd
      · exact (Exec.unacked hx htt).trans hu
      · exact hr m ((Function.update_of_ne htt _ _).symm.trans hst)
  | @crash t' φ w ht hw =>
    obtain rfl : w = World.crash v.world t' := hw
    refine carried_of_requeue (i := t') hd hu hid rfl fun m hst => ?_
    by_cases htt : t = t'
    · subst htt
      cases (Function.update_self t _ v.status).symm.trans hst
    · exact hr m ((Function.update_of_ne htt _ _).symm.trans hst)
  | env he =>
    cases he with
    | tick => exact .inHand ⟨hd, hu, hid, hr⟩
    | expired he =>
      cases he
      exact .inHand ⟨hd, hu, hid, hr⟩
    | foreign => exact .inHand ⟨hd, hu, hid, hr⟩
    | channelLost t' => exact carried_of_requeue hd hu hid rfl hr

/-- **A payment keeps a carrier until it is settled.** -/
theorem Carried.step (h : (serviceSpec R cfg).Reachable v) (hs : (serviceSpec R cfg).Step v v')
    (hc : Carried v id) : Carried v' id := by
  cases hc with
  | settled hp hset =>
    obtain ⟨p', hp', hl⟩ := step_payments h hs hp
    exact .settled hp' (hl.settled hset)
  | queued hq => exact hq.step hs
  | inHand hi => exact hi.step h hs

/-! ## Runs -/

/-- A step that records a confirmation has put the message into a queue. -/
theorem queued_of_confirmed (h : (serviceSpec R cfg).Reachable v)
    (hs : (serviceSpec R cfg).Step v v') {p : Publication}
    (hlog : v'.world.journal.log = .published p .confirmed :: v.world.journal.log)
    (hid : eventPayment R p.message = some id) : Queued R cfg v'.world.broker id := by
  have hp : p.Deliverable cfg :=
    published_deliverable (h.step hs) (by rw [hlog]; exact List.mem_cons_self ..)
  have hne : v'.world.journal.log ≠ v.world.journal.log := fun heq =>
    absurd (congrArg List.length (heq.symm.trans hlog)) (by simp)
  rcases exec_or_same hs with ⟨heq, -⟩ | ⟨t, φ, φ', o, r, -, -, hx⟩
  · exact absurd heq hne
  · generalize v'.world = w at hx hlog hne ⊢
    cases hx with
    | confirmed =>
      obtain rfl : _ = p := by simpa using hlog
      exact .accepted hp hid
    | _ => first
      | exact absurd rfl hne
      | simp at hlog

/-- **A confirmed publication carries its payment.** -/
theorem carried_of_confirmed (h : (serviceSpec R cfg).Reachable v) {p : Publication}
    (hp : .published p .confirmed ∈ v.world.journal.log)
    (hid : eventPayment R p.message = some id) : Carried v id := by
  refine mem_log (P := fun v e => e = .published p .confirmed → Carried v id) ?_ ?_ h hp rfl
  · rintro v v' _ hv hs hlog rfl
    exact .queued (queued_of_confirmed hv hs hlog hid)
  · exact fun hv hs ih he => (ih he).step hv hs

variable (R cfg) in
/-- A message about the payment is ready, delivered and not settled, waiting to be tried again, or
given up. -/
def HasMessage (B : Broker) (id : UUID) : Prop :=
  ∃ e, eventPayment R e.message = some id ∧
    (e ∈ B.queues paymentsNewQueueName ∨
      (∃ t, B.delivered t = some e ∧ B.unacked t = true) ∨
      (∃ n, 1 ≤ n ∧ n ≤ cfg.maxRetries ∧ e ∈ B.queues (retryQueueName n)) ∨
      e ∈ B.queues dlqName)

theorem Queued.hasMessage {B : Broker} (h : Queued R cfg B id) : HasMessage R cfg B id := by
  obtain @⟨q, e, hq, he, hid⟩ := h
  rcases name_of_mem_queues cfg hq with hname | hname | ⟨n, h1, hn, hname⟩ <;> rw [hname] at he
  · exact ⟨e, hid, .inl he⟩
  · exact ⟨e, hid, .inr (.inr (.inr he))⟩
  · exact ⟨e, hid, .inr (.inr (.inl ⟨n, h1, hn, he⟩))⟩

/-- **No accepted payment is lost.** It is settled, or its event is in the outbox and not published,
or a message about it is in the broker; and a message that comes from the outbox is about a payment
that exists. -/
theorem payment_conservation {s : (service R cfg).State} (h : (service R cfg).Reachable s) :
    (∀ id p, s.world.payments.rows id = some p → p.Settled ∨
      (∃ messageId m, s.world.outbox.rows messageId = some m ∧ m.aggregateId = id ∧
        m.publishedAt = none) ∨ HasMessage R cfg s.world.broker id) ∧
    ∀ e, e.origin.isSome →
      ((∃ q, e ∈ s.world.broker.queues q) ∨ ∃ t, s.world.broker.delivered t = some e) →
      ∃ id p, eventPayment R e.message = some id ∧ s.world.payments.rows id = some p := by
  obtain ⟨v, hv, htr⟩ := Machine.Spec.tracked (serviceSpec R cfg) h
  rw [← htr.world]
  have hpaired := paired hv
  refine ⟨fun id p hp => ?_, fun e ho he => ?_⟩
  · obtain ⟨messageId, m, hm, ha⟩ := hpaired.message id (by rw [hp]; rfl)
    cases hpub : m.publishedAt with
    | none => exact .inr (.inl ⟨messageId, m, hm, ha, hpub⟩)
    | some τ =>
      have hid : eventPayment R (outboxPublication R m).message = some id := by
        rw [eventPayment_outboxPublication, (hpaired.payment messageId m hm).2.1, ha]
      have hconf := published_confirmed hv hm (by rw [hpub]; rfl)
      cases carried_of_confirmed hv hconf hid with
      | settled hp' hs =>
        obtain rfl := Option.some.inj (hp.symm.trans hp')
        exact .inl hs
      | queued hq => exact .inr (.inr hq.hasMessage)
      | inHand hi =>
        obtain @⟨t, e, hd, hu, he, -⟩ := hi
        exact .inr (.inr ⟨e, he, .inr (.inl ⟨t, hd, hu⟩)⟩)
  · obtain ⟨m₀, ho⟩ := Option.isSome_iff_exists.mp ho
    obtain ⟨q, hs⟩ := (copies_sound hv).sound he ho
    obtain ⟨messageId, m, hm, rfl⟩ := hs.row
    obtain ⟨hrow, hpay, -, -⟩ := hpaired.payment messageId m hm
    obtain ⟨p, hp⟩ := Option.isSome_iff_exists.mp hrow
    refine ⟨m.aggregateId, p, ?_, hp⟩
    rw [eventPayment_congr hs.descends.body, eventPayment_outboxPublication, hpay]

/-- The payment for the book waits for its delivery. -/
theorem payment_conservation_published :
    ∃ (s : (service .transparent default).State) (p : Payment),
      s.world.payments.rows p.id = some p ∧ (p.Settled ∨
        (∃ messageId m, s.world.outbox.rows messageId = some m ∧ m.aggregateId = p.id ∧
          m.publishedAt = none) ∨ HasMessage .transparent default s.world.broker p.id) := by
  obtain ⟨p, m, s, h⟩ := exists_book_published
  exact ⟨s, p, h.relayed.payment, (payment_conservation h.reachable).1 p.id p h.relayed.payment⟩

end Payments
