import PaymentProcessing.System.Copies
import PaymentProcessing.System.Handling

/-!
# Queues and headers

Where a message is and what it carries agree, whatever becomes of deliveries, settlements and
consumers (`retry_topology`): a message in a retry queue has the number of the queue as its counter,
a message that is to be processed has failed as often as is allowed at most, and no transient
failure is given up early. Whatever the service publishes reaches a queue.
-/

namespace Payments

open Effects

variable {R : Runtime} {cfg : Settings} {v : View R cfg}

/-! ## Publications -/

variable (cfg) in
/-- A publication reaches one queue, and has no headers of the broker. -/
structure Publication.Deliverable (p : Publication) : Prop where
  bound : ∃ q ∈ queues cfg, route cfg p.exchange p.routingKey = [q]
  headers : ∀ key ∈ brokerOwnedHeaders, p.message.headers key = none

theorem Publication.deliverable {p : Publication} {q : RabbitQueue}
    (hq : route cfg p.exchange p.routingKey = [q])
    (hh : ∀ key ∈ brokerOwnedHeaders, p.message.headers key = none) : p.Deliverable cfg :=
  ⟨⟨q, mem_queues_of_mem_route cfg (hq ▸ List.mem_singleton_self q), hq⟩, hh⟩

theorem Routed.deliverable {m : Message} {p : Publication} (h : Routed R cfg m p) :
    p.Deliverable cfg := by
  cases h with
  | @dlq attempt error =>
    exact Publication.deliverable (route_dlx cfg) fun _ hk => routedHeaders_brokerOwned _ _ _ _ hk
  | @retry attempt error _ hmax =>
    exact Publication.deliverable (route_retry cfg (Nat.le_add_left 1 attempt) hmax)
      fun _ hk => routedHeaders_brokerOwned _ _ _ _ hk

/-- **Whatever is published reaches a queue.** -/
theorem published_deliverable (h : (serviceSpec R cfg).Reachable v) {p : Publication}
    {o : PublishOutcome} (hp : .published p o ∈ v.world.journal.log) : p.Deliverable cfg := by
  refine mem_log (P := fun _ e => e = .published p o → p.Deliverable cfg) ?_ ?_ h hp rfl
  · rintro v v' _ hv hs hlog rfl
    obtain ⟨ht, hm, he⟩ := recorded hs hlog
    cases he
    rcases hm.publish_cases (knows hv ht) with ⟨ψ, row, rfl, hheld, rfl⟩ | ⟨m, ψ, rfl, hr⟩
    · obtain ⟨-, -, -, hkey⟩ := (paired hv).payment row.id row hheld.row
      have hroute : route cfg paymentsExchange row.routingKey = [paymentsNewQueue] := by
        rw [hkey, route_payments]
      refine Publication.deliverable hroute fun key hk => if_neg ?_
      rintro rfl
      exact absurd hk (by decide)
    · exact hr.deliverable
  · exact fun _ _ ih => ih

/-! ## The topology -/

/-- **Queues and counters agree.** This is about the messages that come from the relay; others may
be published to `payments.new` all the while. -/
theorem retry_topology {s : (service R cfg).State} (h : (service R cfg).Reachable s) :
    (∀ n e, e ∈ s.world.broker.queues (retryQueueName n) → e.origin.isSome →
      1 ≤ n ∧ n ≤ cfg.maxRetries ∧ e.message.headers retryCountHeader = some (.int n)) ∧
    (∀ e, (e ∈ s.world.broker.queues paymentsNewQueueName ∨
        ∃ t, s.world.broker.delivered t = some e ∧ s.world.broker.unacked t) → e.origin.isSome →
      ∃ attempt, attempt ≤ cfg.maxRetries ∧ currentAttempt e.message.headers = .ok attempt) ∧
    (∀ e ∈ s.world.broker.queues dlqName, e.origin.isSome →
      (∃ error, e.cause = some error ∧ (error.isPermanent ∨ ∃ text, error = .validation text)) ∨
        e.message.headers retryCountHeader = some (.int cfg.maxRetries)) ∧
    (∀ e m₀, ((∃ q, e ∈ s.world.broker.queues q) ∨ ∃ t, s.world.broker.delivered t = some e) →
      e.origin = some m₀ →
      e.message.body = m₀.body ∧ e.message.messageId = m₀.messageId ∧
        e.message.headers eventTypeHeader = m₀.headers eventTypeHeader ∧
        ∃ id row, s.world.outbox.rows id = some row ∧ m₀ = (outboxPublication R row).message) ∧
    ∀ p o, .published p o ∈ s.world.journal.log →
      (∃ q ∈ queues cfg, route cfg p.exchange p.routingKey = [q]) ∧
        ∀ key ∈ brokerOwnedHeaders, p.message.headers key = none := by
  obtain ⟨v, hv, htr⟩ := Machine.Spec.tracked (serviceSpec R cfg) h
  rw [← htr.world]
  have hsound := copies_sound hv
  refine ⟨fun n e he ho => ?_, fun e he ho => ?_, fun e he ho => ?_, fun e m₀ he ho => ?_,
    fun p o hp => ?_⟩
  · obtain ⟨m₀, ho⟩ := Option.isSome_iff_exists.mp ho
    exact (hsound.ready _ e m₀ he ho).placed.retry n rfl
  · obtain ⟨m₀, ho⟩ := Option.isSome_iff_exists.mp ho
    rcases he with he | ⟨t, hd, -⟩
    · exact (hsound.ready _ e m₀ he ho).placed.main rfl
    · exact (hsound.delivered t e m₀ hd ho).placed.main rfl
  · obtain ⟨m₀, ho⟩ := Option.isSome_iff_exists.mp ho
    exact (hsound.ready _ e m₀ he ho).placed.dlq rfl
  · obtain ⟨q, hs⟩ := hsound.sound he ho
    exact ⟨hs.descends.body, hs.descends.messageId, hs.descends.eventType, hs.row⟩
  · obtain ⟨hbound, hheaders⟩ := published_deliverable hv hp
    exact ⟨hbound, hheaders⟩

/-- The message about the payment for the book waits in its retry queue, with its counter. -/
theorem retry_topology_published :
    ∃ (s : (service .transparent default).State) (e : Envelope),
      e ∈ s.world.broker.queues (retryQueueName 1) ∧ 1 ≤ (default : Settings).maxRetries ∧
        e.message.headers retryCountHeader = some (.int (1 : ℕ)) := by
  obtain ⟨s, e, h, he, ho, -⟩ := exists_book_retried
  obtain ⟨-, hn, hcount⟩ := (retry_topology h).1 1 e he ho
  exact ⟨s, e, he, hn, hcount⟩

end Payments
