import PaymentProcessing.System.Handling
import PaymentProcessing.System.History

/-!
# Notifications

What the client of a payment is told, and how often. Whatever is sent about a payment is sent after
its answer is committed and says the same every time, a client that took a notification gets no
other after that is committed, and the payment counts the attempts (`webhook_notifications`).
-/

namespace Payments

open Effects Python Store

variable {R : Runtime} {cfg : Settings}

/-- A notification that was taken is on the books or is about to be. -/
theorem notified_or_open {v : View R cfg} (h : (serviceSpec R cfg).Reachable v) (id : UUID) :
    ((v.world.payments.rows id).elim 0 fun p => if p.webhookDeliveredAt.isSome then 1 else 0) +
      openWith (Event.notifies id) v.world.journal v.born ≤ 1 := by
  obtain ⟨hle, hopen⟩ := openWith_le (v := v) (f := Event.notifies id) (i := id)
    (q := fun p => p.webhookDeliveredAt = none) fun t hany => open_notifies h hany
  by_cases h0 : openWith (Event.notifies id) v.world.journal v.born = 0
  · rw [h0]
    cases v.world.payments.rows id with
    | none => exact Nat.zero_le 1
    | some p =>
      change (if p.webhookDeliveredAt.isSome then 1 else 0) ≤ 1
      split <;> omega
  · obtain ⟨p, hp, hnone⟩ := hopen h0
    rw [hp]
    simpa [hnone] using hle

/-- A payment that is marked as notified was. -/
theorem notified {v : View R cfg} (h : (serviceSpec R cfg).Reachable v) {id : UUID} {p : Payment}
    (hp : v.world.payments.rows id = some p) (hd : p.webhookDeliveredAt.isSome) :
    ∃ q status, .answered q status ∈ v.world.journal.log ∧ q.payload.paymentId = id ∧
      200 ≤ status ∧ status < 300 := by
  have htotal := total_notifies h id
  rw [hp] at htotal
  simp only [Option.elim_some, hd, if_true] at htotal
  have hpos : 0 < v.world.journal.log.countP (Event.notifies id) := by omega
  obtain ⟨e, he, hn⟩ := List.countP_pos_iff.mp hpos
  cases e with
  | answered q status =>
    obtain ⟨hid, hs⟩ := of_decide_eq_true hn
    exact ⟨q, status, he, hid, hs⟩
  | _ => simp [Event.notifies] at hn

end Payments
