import PaymentProcessing.System.History

/-!
# Payments and their events

Committed payments and committed outbox messages come in pairs (`paired`): a request commits the two
together, and from then on neither changes what it is about.
-/

namespace Payments

open Effects Python Store

variable {R : Runtime} {cfg : Settings} {v : View R cfg}

/-- Committed payments and outbox messages belong together. -/
structure Paired (T : PaymentTable) (U : OutboxTable) : Prop where
  payment : ∀ messageId m, U.rows messageId = some m →
    (T.rows m.aggregateId).isSome ∧ m.payload.paymentId = m.aggregateId ∧
      m.eventType = paymentCreated ∧ m.routingKey = paymentsNewRoutingKey
  message : ∀ id, (T.rows id).isSome → ∃ messageId m, U.rows messageId = some m ∧ m.aggregateId = id
  unique : ∀ messageId messageId' m m', U.rows messageId = some m → U.rows messageId' = some m' →
    m.aggregateId = m'.aggregateId → messageId = messageId'

/-- Commits keep the pairs, if they insert a payment with its event or nothing. -/
theorem Paired.evolves {T T' : PaymentTable} {U U' : OutboxTable} (h : Paired T U)
    {o : Option OutboxMessage}
    (hnew : ∀ m ∈ o, U'.rows m.id = some m ∧ T.rows m.aggregateId = none ∧
      m.payload.paymentId = m.aggregateId ∧ m.eventType = paymentCreated ∧
      m.routingKey = paymentsNewRoutingKey)
    (hT : ∀ id, (T'.rows id).isSome ↔ (T.rows id).isSome ∨ ∃ m ∈ o, m.aggregateId = id)
    (hback : ∀ messageId m', U'.rows messageId = some m' →
      (∃ m, U.rows messageId = some m ∧ m.LifeCycle m') ∨ m' ∈ o)
    (hfore : ∀ messageId m, U.rows messageId = some m →
      ∃ m', U'.rows messageId = some m' ∧ m.LifeCycle m') : Paired T' U' where
  payment messageId m' hm' := by
    rw [hT]
    rcases hback messageId m' hm' with ⟨m, hm, hl⟩ | hins
    · obtain ⟨hp, hrest⟩ := h.payment messageId m hm
      rw [hl.aggregateId, hl.payload, hl.eventType, hl.routingKey]
      exact ⟨.inl hp, hrest⟩
    · exact ⟨.inr ⟨m', hins, rfl⟩, (hnew m' hins).2.2⟩
  message id hid := by
    rcases (hT id).mp hid with hold | ⟨m, hins, ha⟩
    · obtain ⟨messageId, m, hm, ha⟩ := h.message id hold
      obtain ⟨m', hm', hl⟩ := hfore messageId m hm
      exact ⟨messageId, m', hm', hl.aggregateId.trans ha⟩
    · exact ⟨m.id, m, (hnew m hins).1, ha⟩
  unique messageId messageId' m m' hm hm' ha := by
    -- an old message is not about the payment that is inserted
    have hfresh : ∀ {messageId n n'}, U.rows messageId = some n → n' ∈ o →
        n.aggregateId ≠ n'.aggregateId := fun {messageId n n'} hn hins heq => by
      have hsome := (h.payment messageId n hn).1
      rw [heq, (hnew n' hins).2.1] at hsome
      simp at hsome
    rcases hback messageId m hm with ⟨n, hn, hl⟩ | hins <;>
      rcases hback messageId' m' hm' with ⟨n', hn', hl'⟩ | hins'
    · exact h.unique messageId messageId' n n' hn hn' (by rw [← hl.aggregateId, ha, hl'.aggregateId])
    · exact absurd (hl.aggregateId.symm.trans ha) (hfresh hn hins')
    · exact absurd (hl'.aggregateId.symm.trans ha.symm) (hfresh hn' hins)
    · obtain rfl : m = m' := by simpa [Option.mem_def.mp hins] using hins'
      rw [← U'.key_rows hm, ← U'.key_rows hm']

/-- The event that a commit inserts. -/
def Phase.inserted : Phase → Option OutboxMessage
  | .api _ (.staged _ id messageId occurredAt now) =>
    some ((newOutboxMessage messageId id occurredAt).row now)
  | _ => none

theorem Phase.mem_inserted {φ : Phase} {m : OutboxMessage} (h : m ∈ φ.inserted) :
    ∃ c fingerprint id messageId occurredAt now,
      φ = .api c (.staged fingerprint id messageId occurredAt now) ∧
      m = (newOutboxMessage messageId id occurredAt).row now := by
  unfold Phase.inserted at h
  split at h
  · exact ⟨_, _, _, _, _, _, rfl, (Option.some.inj h).symm⟩
  · simp at h

/-- **Every payment has its event and every event its payment.** -/
theorem paired (h : (serviceSpec R cfg).Reachable v) : Paired v.world.payments v.world.outbox := by
  refine committed_invariant (P := fun T U _ => Paired T U) ?_ ?_ ?_ h
  · intro T T' U U' _ hT hU hp
    exact ⟨by rw [hT, hU]; exact hp.payment, by rw [hT, hU]; exact hp.message,
      by rw [hU]; exact hp.unique⟩
  · exact ⟨by simp [Table.empty], by simp [Table.empty], by simp [Table.empty]⟩
  · intro v t φ tr hv hp ht _ _
    have hk := knows hv ht
    refine hp.evolves (o := φ.inserted) (fun m hm => ?_) (fun id => ⟨fun hid => ?_, ?_⟩)
      (fun messageId m' hm' => ?_)
      fun messageId m hrow => hk.outbox.evolves OutboxMessage.LifeCycle.refl
        (fun m' hm' q hq => (hk.message_step hm' hq).lifeCycle) hrow
    · obtain ⟨c, fingerprint, id, messageId, occurredAt, now, rfl, rfl⟩ := Phase.mem_inserted hm
      have hk : ApiPhase.Knows R c v.world t (.staged fingerprint id messageId occurredAt now) := hk
      refine ⟨?_, hk.facts.2.1, rfl, rfl, rfl⟩
      rw [hk.outbox.rows_commit]
      simp [ApiPhase.writtenMessages]
    · obtain ⟨p', hp'⟩ := Option.isSome_iff_exists.mp hid
      rcases hk.commit_payment hp' with ⟨p, hrow, -⟩ | ⟨c, f, mid, o, n, rfl, -⟩
      · exact .inl (by rw [hrow]; rfl)
      · exact .inr ⟨_, rfl, rfl⟩
    · rintro (hsome | ⟨m, hm, rfl⟩)
      · obtain ⟨p, hrow⟩ := Option.isSome_iff_exists.mp hsome
        obtain ⟨p', hp', -⟩ := hk.payments.evolves Payment.LifeCycle.refl
          (fun p' hp' q hq => (hk.payment_step hp' hq).lifeCycle) hrow
        rw [hp']
        rfl
      · obtain ⟨c, fingerprint, id, messageId, occurredAt, now, rfl, rfl⟩ := Phase.mem_inserted hm
        have hk : ApiPhase.Knows R c v.world t (.staged fingerprint id messageId occurredAt now) := hk
        rw [hk.payments.rows_commit]
        simp [ApiPhase.writtenPayments, NewPayment.row, newPayment, NewOutboxMessage.row,
          newOutboxMessage]
    · rcases hk.commit_message hm' with hold | ⟨c, f, pid, o, n, rfl, rfl⟩
      · exact .inl hold
      · exact .inr rfl

end Payments
