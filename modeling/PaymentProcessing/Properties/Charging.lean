import PaymentProcessing.System.Handling
import PaymentProcessing.System.History

/-!
# Charging

A payment is charged once, but for the one window in which the answer of the gateway can be lost:
between the moment it returns and the commit that writes it. `gateway_charges` counts exactly.
-/

namespace Payments

open Effects Python Store

variable {R : Runtime} {cfg : Settings}

/-- A result of the gateway is in a transaction that was committed, aborted or is open. -/
theorem charged_cases {v : View R cfg} (h : (serviceSpec R cfg).Reachable v) {c : Charge}
    {result : GatewayResult} (hc : .charged c result ∈ v.world.journal.log)
    (hno : v.world.journal.aborted.countP (fun tr => tr.any (Event.charges c.paymentId)) = 0)
    {p : Payment} (hp : v.world.payments.rows c.paymentId = some p) (hf : p.status.isFinal) :
    p.status = result.status ∧ p.failureReason = result.failureReason := by
  have hany : ∀ {tr : List Event}, .charged c result ∈ tr → tr.any (Event.charges c.paymentId) :=
    fun htr => List.any_eq_true.mpr ⟨_, htr, by simp [Event.charges]⟩
  rcases (balanced h).mem hc with ⟨tr, htr, he⟩ | ⟨tr, htr, he⟩ | ⟨t, he⟩
  · obtain ⟨q, hq, hst, hre⟩ := charged_result h htr he
    obtain rfl : p = q := by simpa [hp] using hq
    exact ⟨hst, hre⟩
  · exact absurd (hany he) (List.countP_eq_zero.mp hno tr htr)
  · obtain ⟨q, hq, hid, hpending⟩ := open_charges h (hany he)
    have hrow := hq.row
    rw [hid, hp] at hrow
    exact absurd (Option.some.inj hrow ▸ hpending) (Payment.not_pending_of_isFinal hf)

/-- A payment has an answer that is committed or one that is about to be. -/
theorem charged_or_open {v : View R cfg} (h : (serviceSpec R cfg).Reachable v) (id : UUID) :
    ((v.world.payments.rows id).elim 0 fun p => if p.status.isFinal then 1 else 0) +
      openWith (Event.charges id) v.world.journal v.born ≤ 1 := by
  obtain ⟨hle, hopen⟩ := openWith_le (v := v) (f := Event.charges id) (i := id)
    (q := fun p => p.status = .pending) fun t hany => open_charges h hany
  by_cases h0 : openWith (Event.charges id) v.world.journal v.born = 0
  · rw [h0]
    cases v.world.payments.rows id with
    | none => exact Nat.zero_le 1
    | some p =>
      change (if p.status.isFinal then 1 else 0) ≤ 1
      split <;> omega
  · obtain ⟨p, hp, hpending⟩ := hopen h0
    have hfinal : p.status.isFinal = false := by rw [hpending]; rfl
    rw [hp]
    simpa [hfinal] using hle

/-- **The gateway returns a result for a payment once**, and once more for each delivery that was
aborted after the gateway returned and before its commit. Without such an abort the committed answer
is that of the gateway, and once there is one the gateway is not called any more. -/
theorem gateway_charges {s s' : (service R cfg).State} (h : (service R cfg).Reachable s)
    (hr : (service R cfg).Run s s') (id : UUID) :
    s.world.journal.log.countP (Event.charges id) =
        ((s.world.payments.rows id).elim 0 fun p => if p.status.isFinal then 1 else 0) +
        openWith (Event.charges id) s.world.journal s.born +
        s.world.journal.aborted.countP (fun tr => tr.any (Event.charges id)) ∧
      (s.world.journal.aborted.countP (fun tr => tr.any (Event.charges id)) = 0 →
        s.world.journal.log.countP (Event.charges id) ≤ 1 ∧
        ∀ c result p, .charged c result ∈ s.world.journal.log → c.paymentId = id →
          s.world.payments.rows id = some p → p.status.isFinal →
          p.status = result.status ∧ p.failureReason = result.failureReason) ∧
      ∀ p, s.world.payments.rows id = some p → p.status.isFinal →
        s'.world.journal.log.countP (Event.calls id) =
          s.world.journal.log.countP (Event.calls id) := by
  obtain ⟨v, v', hv, htr, hrun, htr'⟩ := Machine.Spec.tracked_run (serviceSpec R cfg) h hr
  rw [← htr.world, ← htr.born, ← htr'.world]
  have htotal := total_charges hv id
  have hone := charged_or_open hv id
  refine ⟨by omega, fun hno => ⟨by omega, ?_⟩, fun p hp hf => calls_run hv hrun hp hf⟩
  rintro c result p hc rfl hp hf
  exact charged_cases hv hc hno hp hf

/-- The payment for the book is final, and has been charged. -/
theorem gateway_charges_published :
    ∃ (s : (service .transparent default).State) (p : Payment),
      s.world.payments.rows p.id = some p ∧ p.status.isFinal ∧
        s.world.journal.log.countP (Event.charges p.id) =
          1 + openWith (Event.charges p.id) s.world.journal s.born +
            s.world.journal.aborted.countP (fun tr => tr.any (Event.charges p.id)) := by
  obtain ⟨s, s', p, p', h, hr, -, -, hp', hset, -⟩ := exists_book_done
  have hid : p'.id = p.id := s'.world.payments.key_rows hp'
  have hcount := (gateway_charges (h.run hr) .refl p.id).1
  rw [hp', Option.elim_some, if_pos hset.1] at hcount
  exact ⟨s', p', hid ▸ hp', hset.1, hid ▸ hcount⟩

end Payments
