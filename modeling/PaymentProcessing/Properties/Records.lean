import PaymentProcessing.System.Handling
import PaymentProcessing.System.History

/-!
# Records of payments

Every committed payment is consistent, in every state the service can reach, and between any two
moments of a run it has moved along its life cycle and no other way (`payment_records`).
-/

namespace Payments

open Effects Python Store

variable {R : Runtime} {cfg : Settings}

/-- Committed payments are consistent. -/
theorem consistent {v : View R cfg} (h : (serviceSpec R cfg).Reachable v) {id : UUID} {p : Payment}
    (hp : v.world.payments.rows id = some p) : p.Consistent := by
  refine committed_invariant (P := fun T _ _ => ∀ id p, T.rows id = some p → p.Consistent)
    ?_ ?_ ?_ h id p hp
  · intro T T' _ _ _ hT _ ih id p hp
    exact ih id p (hT ▸ hp)
  · simp [Table.empty]
  · intro v t φ tr hv ih ht _ _ id p hp
    have hk := knows hv ht
    rcases hk.payments.rows_commit_cases hp with hp | ⟨hmem, rfl⟩
    · exact ih id p hp
    · cases hrow : v.world.payments.rows p.id with
      | some q => exact (hk.payment_step hmem hrow).consistent (ih _ _ hrow)
      | none =>
        obtain ⟨c, fingerprint, id, messageId, occurredAt, now, -, rfl⟩ := hk.payment_new hmem hrow
        exact Payment.consistent_row _ rfl now

/-- **Payments stay consistent and only move along their life cycle**, whatever runs at the same
time and wherever it is killed. -/
theorem payment_records {s s' : (service R cfg).State} (h : (service R cfg).Reachable s)
    (hr : (service R cfg).Run s s') {id : UUID} {p : Payment}
    (hp : s.world.payments.rows id = some p) :
    p.Consistent ∧ ∃ p', s'.world.payments.rows id = some p' ∧ p.LifeCycle p' := by
  obtain ⟨v, v', hv, htr, hrun, htr'⟩ := Machine.Spec.tracked_run (serviceSpec R cfg) h hr
  rw [← htr.world] at hp
  rw [← htr'.world]
  exact ⟨consistent hv hp, run_payments hv hrun hp⟩

/-- The payment for the book is accepted and then settled. -/
theorem payment_records_published :
    ∃ (s s' : (service .transparent default).State) (p p' : Payment),
      s.world.payments.rows p.id = some p ∧ p.status = .pending ∧ p.Consistent ∧
      s'.world.payments.rows p.id = some p' ∧ p'.Settled ∧ p'.Consistent ∧ p.LifeCycle p' := by
  obtain ⟨s, s', p, p', h, hr, hp, hpending, hp', hset, -⟩ := exists_book_done
  obtain ⟨hc, p₁, hp₁, hl⟩ := payment_records h hr hp
  obtain rfl := Option.some.inj (hp'.symm.trans hp₁)
  exact ⟨s, s', p, p', hp, hpending, hc, hp', hset, (payment_records (h.run hr) .refl hp').1, hl⟩

end Payments
