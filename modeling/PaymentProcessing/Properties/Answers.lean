import PaymentProcessing.System.History
import PaymentProcessing.System.Live
import PaymentProcessing.System.Progress

/-!
# The answers of the gateway are recorded

`GatewayResult` takes a reason of any length, the column `failure_reason` one of 255 characters.
`gateway_answer_iff`: the answer of the gateway is committed, and the gateway is not called again,
if and only if the reason fits the column. If it does not, the payment is pending as before,
although the gateway has been called, and the next delivery calls it again.
-/

namespace Payments

open Effects Python Store

/-- The database is live, and the gateway answers with `result`. -/
def gatewayAnswer (result : GatewayResult) (w : World) : (o : Op) → Res o → Prop
  | .gatewayReturn _, r => r = .ok result
  | o, r => Live w o r

/-- How a delivery is executed. -/
abbrev Finalizing (result : GatewayResult) (cfg : Settings) (t : ℕ) :
    (o : Op) → Res o → Logged → Logged → Prop :=
  WithHistory (Amid (Ticks (· ≤ ·)) (gatewayAnswer result) cfg t)

/-- The payment `p` is pending, and thread `t` may lock it. -/
structure Chargeable (t : ℕ) (p : Payment) (w : World) : Prop where
  row : w.payments.rows p.id = some p
  pending : p.status = .pending
  free : w.payments.Free t p.id
  wrote : w.payments.Wrote t []
  fits : p.Fits

/-- The reason of an answer fits its column. -/
def GatewayResult.Fits (result : GatewayResult) : Prop :=
  ∀ reason ∈ result.failureReason, Varchar 255 reason

theorem Payment.fits_finalized_iff {p : Payment} (h : p.Fits) {result : GatewayResult} {τ : Time} :
    (p.finalized result τ).Fits ↔ result.Fits :=
  ⟨fun h' => h'.failureReason, fun h' => ⟨h', h.webhookAttempts, h.webhookLastError⟩⟩

theorem Payment.isFinal_finalized (p : Payment) (result : GatewayResult) (τ : Time) :
    (p.finalized result τ).status.isFinal = true := result.isFinal

section Finalizing

variable {cfg : Settings} {result : GatewayResult} {t : ℕ} {p : Payment} {w : World}
  {log : History Op Res World} {err : Exn → Logged → Prop}

/-- The payment is locked. -/
theorem wp_lock_finalizing (h : Chargeable t p w) {ok : Option Payment → Logged → Prop}
    (hok : ∀ w', w'.payments.rows = w.payments.rows → w'.payments.Wrote t [] →
      w'.payments.lock p.id = some t →
      ok (some p) (w', log ++ [⟨.selectForUpdate p.id, .ok (some p), w'⟩])) :
    (selectForUpdate p.id).wp (.executing (Finalizing result cfg t)) ok err (w, log) := by
  refine wp_ask.mpr (pre_withHistory ?_ ?_)
  · exact ⟨_, _, w, ⟨_, le_rfl, rfl⟩, .locked _ _, .locked h.free h.row⟩
  · rintro r w' ⟨_, ⟨_, -, rfl⟩, hlive, hx⟩
    change Live _ _ _ at hlive
    cases hlive with
    | locked _ q =>
      obtain ⟨hrow, -, -, hwrote, -⟩ := h
      generalize hid : p.id = id at hx hrow hok ⊢
      cases hx with
      | @locked _ q _ hq =>
        obtain rfl : p = q := Option.some.inj (hrow.symm.trans hq)
        exact hok _ rfl hwrote (by simp)
      | missing hnone => exact absurd (hrow.symm.trans hnone) (by simp)
    | other h => cases h

/-- The gateway is called and answers. -/
theorem wp_charge_finalizing {c : Charge} {ok : GatewayResult → Logged → Prop}
    (hok : ∀ w' w'', w''.payments = w.payments →
      ok result (w'', log ++ [⟨.gatewayCall c, (), w'⟩] ++ [⟨.gatewayReturn c, .ok result, w''⟩])) :
    (charge c).wp (.executing (Finalizing result cfg t)) ok err (w, log) := by
  refine (Action.wp_bind _ _).mpr
    (pre_withHistory ⟨_, _, w, ⟨_, le_rfl, rfl⟩, .other rfl _, .called _ c⟩ ?_)
  rintro _ w' ⟨_, ⟨_, -, rfl⟩, -, hx⟩
  cases hx with
  | called =>
    refine wp_ask.mpr (pre_withHistory ⟨_, _, _, ⟨_, le_rfl, rfl⟩, rfl, .charged _ c result⟩ ?_)
    rintro r w'' ⟨_, ⟨_, -, rfl⟩, hr, hx⟩
    cases hr
    cases hx with
    | charged => exact hok _ _ rfl

/-- The clock is read. -/
theorem wp_now_finalizing {ok : Time → Logged → Prop}
    (hok : ∀ τ w', w'.payments = w.payments → ok τ (w', log ++ [⟨.now, τ, w'⟩])) :
    now.wp (.executing (Finalizing result cfg t)) ok err (w, log) := by
  refine pre_withHistory ⟨_, _, w, ⟨_, le_rfl, rfl⟩, .other rfl _, .now _⟩ ?_
  rintro τ w' ⟨_, ⟨_, -, rfl⟩, -, hx⟩
  cases hx with
  | now => exact hok _ _ rfl

/-- The payment is written, if it fits. -/
theorem wp_update_finalizing {q : Payment} (hlock : w.payments.lock q.id = some t)
    (hwrote : w.payments.Wrote t []) {ok : Unit → Logged → Prop}
    (hok : q.Fits → ∀ w', w'.payments.rows = w.payments.rows → w'.payments.Wrote t [q] →
      ok () (w', log ++ [⟨.updatePayment q, .ok (), w'⟩]))
    (herr : ¬q.Fits → ∀ e w', w'.payments = w.payments →
      err (.foreign e) (w', log ++ [⟨.updatePayment q, .error (.foreign e), w'⟩])) :
    (updatePayment q).wp (.executing (Finalizing result cfg t)) ok err (w, log) := by
  refine wp_ask.mpr (pre_withHistory ?_ ?_)
  · by_cases hfits : q.Fits
    · exact ⟨_, _, w, ⟨_, le_rfl, rfl⟩, .updatedPayment hfits, .updatedPayment hlock⟩
    · exact ⟨_, _, w, ⟨_, le_rfl, rfl⟩, .updatePaymentRefused hfits ⟨[], [], false, false⟩,
        .updatePaymentFailed _ _ _⟩
  · rintro r w' ⟨_, ⟨_, -, rfl⟩, hlive, hx⟩
    change Live _ _ _ at hlive
    cases hlive with
    | updatedPayment hfits =>
      cases hx with
      | updatedPayment => exact hok hfits _ rfl (Table.Wrote.update hwrote (by simpa using hlock))
    | updatePaymentRefused hfits =>
      cases hx with
      | updatePaymentFailed => exact herr hfits _ _ rfl
    | other h => cases h

/-- What has been written is committed. -/
theorem wp_commit_finalizing {ok : Unit → Logged → Prop}
    (hok : ∀ w', w'.payments = w.payments.commit t → ok () (w', log ++ [⟨.commit, .ok (), w'⟩])) :
    commit.wp (.executing (Finalizing result cfg t)) ok err (w, log) := by
  refine wp_ask.mpr (pre_withHistory ⟨_, _, w, ⟨_, le_rfl, rfl⟩, .committed, .committed _⟩ ?_)
  rintro r w' ⟨_, ⟨_, -, rfl⟩, hlive, hx⟩
  obtain ⟨rfl, rfl⟩ := Live.of_commit hlive hx
  exact hok _ rfl

/-- The session is closed. -/
theorem wp_close_finalizing {ok : Unit → Logged → Prop}
    (hok : ∀ w', w'.payments = w.payments.rollback t → ok () (w', log ++ [⟨.close, (), w'⟩])) :
    close.wp (.executing (Finalizing result cfg t)) ok err (w, log) := by
  refine pre_withHistory ⟨_, _, w, ⟨_, le_rfl, rfl⟩, .other rfl _, .closed _⟩ ?_
  rintro r w' ⟨_, ⟨_, -, rfl⟩, -, hx⟩
  cases hx with
  | closed => exact hok _ rfl

/-- **What finalizing leaves**: the answer if its reason fits, and otherwise the payment as it was,
although the gateway has answered. -/
theorem finalizePayment_wp (h : Chargeable t p w) :
    (finalizePayment p.id).wp (.executing (Finalizing result cfg t))
      (fun _ x => result.Fits ∧ ∃ τ, x.1.payments.rows p.id = some (p.finalized result τ))
      (fun _ x => ¬result.Fits ∧ Chargeable t p x.1 ∧
        ∃ w', ⟨.gatewayReturn p.charge, .ok result, w'⟩ ∈ x.2) (w, []) := by
  unfold finalizePayment
  rw [Action.wp_within, Action.wp_bind]
  apply wp_lock_finalizing h
  intro w₁ hrows₁ hwrote₁ hlock₁
  dsimp only
  rw [if_neg (not_not.mpr h.pending), Action.wp_bind]
  apply wp_charge_finalizing
  intro w₂ w₃ hw₃
  rw [Action.wp_bind]
  apply wp_now_finalizing
  intro τ w₄ hw₄
  have hpay : w₄.payments = w₁.payments := hw₄.trans hw₃
  rw [Action.wp_bind]
  apply wp_update_finalizing
  · exact hpay ▸ hlock₁
  · exact hpay ▸ hwrote₁
  · intro hfits w₅ _ hwrote₅
    apply wp_commit_finalizing
    intro w₆ hw₆
    apply wp_close_finalizing
    intro w₇ hw₇
    refine ⟨(Payment.fits_finalized_iff h.fits).mp hfits, τ, ?_⟩
    dsimp only
    rw [hw₇, Table.rows_rollback, hw₆, hwrote₅.rows_commit]
    simp [Payment.finalized]
  · intro hfits e w₅ hw₅
    apply wp_close_finalizing
    intro w₆ hw₆
    have hrows : w₆.payments.rows = w.payments.rows := by
      rw [hw₆, Table.rows_rollback, hw₅, hpay, hrows₁]
    refine ⟨fun hresult => hfits ((Payment.fits_finalized_iff h.fits).mpr hresult),
      ⟨hrows ▸ h.row, h.pending, .inl ?_, ?_, h.fits⟩, w₃, by simp⟩
    · rw [hw₆, Table.lock_rollback, hw₅, hpay, Table.released, if_pos hlock₁]
    · rw [hw₆]
      exact Table.wrote_rollback

end Finalizing

/-- The answer to the charge of a payment is committed. -/
def AnswerCommitted (p : Payment) (result : GatewayResult) (w : World) : Prop :=
  ∃ τ, w.payments.rows p.id = some (p.finalized result τ)

/-- A payment with an answer is not charged again, whatever happens. -/
theorem AnswerCommitted.calls_eq {R : Runtime} {cfg : Settings} {p : Payment}
    {result : GatewayResult} {s s' : (service R cfg).State} (h : (service R cfg).Reachable s)
    (hr : (service R cfg).Run s s') (hans : AnswerCommitted p result s.world) :
    s'.world.journal.log.countP (Event.calls p.id) =
      s.world.journal.log.countP (Event.calls p.id) := by
  obtain ⟨τ, hrow⟩ := hans
  obtain ⟨v, v', hv, htr, hrun, htr'⟩ := Machine.Spec.tracked_run (serviceSpec R cfg) h hr
  rw [← htr.world, ← htr'.world]
  rw [← htr.world] at hrow
  exact calls_run hv hrun hrow (p.isFinal_finalized result τ)

/-- **The answer of the gateway is recorded after one charge**, if and only if its reason fits: it
is committed, and no run goes on with another call of the gateway for this payment. -/
theorem gateway_answer_iff (R : Runtime) (cfg : Settings) (t : ℕ) (w : World) (p : Payment)
    (result : GatewayResult) (h : Chargeable t p w) :
    ((finalizePayment p.id).wp (.executing (Finalizing result cfg t))
        (fun _ x => AnswerCommitted p result x.1) (fun _ _ => False) (w, []) ∧
      ∀ s s' : (service R cfg).State, (service R cfg).Reachable s →
        AnswerCommitted p result s.world → (service R cfg).Run s s' →
        s'.world.journal.log.countP (Event.calls p.id) =
          s.world.journal.log.countP (Event.calls p.id)) ↔
    ∀ reason ∈ result.failureReason, Text reason ∧ reason.length ≤ 255 := by
  constructor
  · rintro ⟨hcommits, -⟩
    obtain ⟨out, x, hwp, hpost⟩ := Prog.exists_executes_both (finalizePayment_wp h) hcommits
    cases out with
    | ok u => exact hwp.1
    | error error => exact hpost.elim
  · intro hfits
    constructor
    · refine Action.wp_mono (finalizePayment_wp h) ?_ ?_
      · rintro _ x ⟨-, hans⟩
        exact hans
      · rintro _ x ⟨hnot, -⟩
        exact hnot hfits
    · intro s s' hs hans hr
      exact hans.calls_eq hs hr

/-- The payment for the book can be charged, in a run of the service. -/
theorem exists_chargeable :
    ∃ (p : Payment) (s : (service .transparent default).State),
      (service .transparent default).Reachable s ∧ Chargeable s.born p s.world := by
  obtain ⟨f, hf⟩ := bookCommand_validated.exists_fingerprint .transparent
  obtain ⟨p, m, s, h, -, hacc, hun⟩ := exists_accepted hf
  refine ⟨p, s, h, hacc.payment, hacc.pending, .inl hun.unlocked, (hacc.wrote _).1, ?_, ?_, ?_⟩
  · simp [hun.failureReason]
  · simp [hun.webhookAttempts]
  · simp [hun.webhookLastError]

/-- An answer of 256 characters. -/
def longAnswer : GatewayResult where
  status := .failed
  failureReason := some (List.replicate 256 0x78)
  isFinal := by decide
  reason_iff := ⟨fun _ => rfl, fun _ => rfl⟩

theorem not_fits_longAnswer : ¬longAnswer.Fits := by
  intro h
  have hlen := (h _ rfl).2
  rw [List.length_replicate] at hlen
  omega

/-- The payment for the book is charged, and stays pending; so it can be charged again. -/
theorem gateway_answer_lost :
    ∃ (p : Payment) (s : (service .transparent default).State),
      (service .transparent default).Reachable s ∧ Chargeable s.born p s.world ∧
      (finalizePayment p.id).wp (.executing (Finalizing longAnswer default s.born))
        (fun _ _ => False)
        (fun _ x => Chargeable s.born p x.1 ∧
          ∃ w', ⟨.gatewayReturn p.charge, .ok longAnswer, w'⟩ ∈ x.2) (s.world, []) ∧
      ¬(finalizePayment p.id).wp (.executing (Finalizing longAnswer default s.born))
        (fun _ x => AnswerCommitted p longAnswer x.1) (fun _ _ => False) (s.world, []) := by
  obtain ⟨p, s, hs, h⟩ := exists_chargeable
  have hwp : (finalizePayment p.id).wp (.executing (Finalizing longAnswer default s.born))
      (fun _ _ => False)
      (fun _ x => Chargeable s.born p x.1 ∧
        ∃ w', ⟨.gatewayReturn p.charge, .ok longAnswer, w'⟩ ∈ x.2) (s.world, []) := by
    refine Action.wp_mono (finalizePayment_wp h) ?_ ?_
    · rintro _ x ⟨hfits, -⟩
      exact not_fits_longAnswer hfits
    · rintro _ x ⟨-, hagain, hlog⟩
      exact ⟨hagain, hlog⟩
  refine ⟨p, s, hs, h, hwp, fun hcommits => ?_⟩
  obtain ⟨out, x, hout, hpost⟩ := Prog.exists_executes_both hwp hcommits
  cases out with
  | ok u => exact hout
  | error error => exact hpost

/-- A refusal with its reason. -/
def shortAnswer : GatewayResult where
  status := .failed
  failureReason := some (Str.ofString "insufficient_funds")
  isFinal := by decide
  reason_iff := ⟨fun _ => rfl, fun _ => rfl⟩

/-- A short reason is recorded. -/
theorem gateway_answer_recorded :
    ∃ (p : Payment) (s : (service .transparent default).State),
      (service .transparent default).Reachable s ∧
      (finalizePayment p.id).wp (.executing (Finalizing shortAnswer default s.born))
        (fun _ x => AnswerCommitted p shortAnswer x.1) (fun _ _ => False) (s.world, []) := by
  obtain ⟨p, s, hs, h⟩ := exists_chargeable
  refine ⟨p, s, hs, ((gateway_answer_iff .transparent default s.born s.world p shortAnswer h).mpr
    fun reason hreason => ?_).1⟩
  obtain rfl : Str.ofString "insufficient_funds" = reason := Option.some.inj hreason
  exact ⟨text_ofString (by simp), by decide⟩

end Payments
