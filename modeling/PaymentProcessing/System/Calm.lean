import PaymentProcessing.Foundations.Effects.Termination
import PaymentProcessing.System.Service

/-!
# Calm weather

The service when nothing fails: the gateway answers, and every statement, publication and
acknowledgement succeeds; only the webhooks of the clients answer as they like.
`handleDelivery_calm` says what one delivery then comes to: one request to the client, and a copy of
the message if it was not accepted.
-/

namespace Payments

open Effects Python Store

variable (R : Runtime) (cfg : Settings)

/-! ## Webhooks -/

/-- What comes of a webhook request. -/
inductive WebhookOutcome
  | status (code : ℕ)
  | timeout (text : Str)
  | transport (text : Str)

namespace WebhookOutcome

/-- What the client library makes of it. -/
def answer : WebhookOutcome → Except HttpError ℕ
  | .status code => .ok code
  | .timeout text => .error (.timeout text)
  | .transport text => .error (.transport text)

/-- The client has accepted the notification. -/
def Delivers : WebhookOutcome → Prop
  | .status code => 200 ≤ code ∧ code < 300
  | _ => False

/-- It makes sense to try again. -/
def Transient : WebhookOutcome → Prop
  | .status code => 500 ≤ code ∨ code = 408 ∨ code = 429
  | _ => True

variable {o : WebhookOutcome}

theorem Delivers.classify (h : o.Delivers) : classify o.answer = .ok () := by
  cases o with
  | status code => simp [answer, Payments.classify, show 200 ≤ code ∧ code < 300 from h]
  | _ => exact h.elim

theorem Transient.classify (h : o.Transient) :
    ∃ error, classify o.answer = .error error ∧ error.isPermanent = false := by
  cases o with
  | status code =>
    have hno : ¬(200 ≤ code ∧ code < 300) := by
      have h : 500 ≤ code ∨ code = 408 ∨ code = 429 := h
      omega
    have hyes : 500 ≤ code ∨ code ∈ retryableStatusCodes := by
      simpa [retryableStatusCodes, Transient] using h
    simp [answer, Payments.classify, hno, hyes, Exn.isPermanent]
  | timeout text => exact ⟨_, rfl, rfl⟩
  | transport text => exact ⟨_, rfl, rfl⟩

theorem classify_of_not (hd : ¬o.Delivers) (ht : ¬o.Transient) :
    ∃ error, classify o.answer = .error error ∧ error.isPermanent := by
  cases o with
  | status code =>
    have hno : ¬(200 ≤ code ∧ code < 300) := hd
    have hno' : ¬(500 ≤ code ∨ code ∈ retryableStatusCodes) := by
      simpa [retryableStatusCodes, Transient] using ht
    simp [answer, Payments.classify, hno, hno', Exn.isPermanent]
  | timeout text => exact absurd trivial ht
  | transport text => exact absurd trivial ht

theorem of_classify_ok (h : Payments.classify o.answer = .ok ()) : o.Delivers ∧ ¬o.Transient := by
  have ht : ¬o.Transient := fun ht => by
    obtain ⟨error, he, -⟩ := ht.classify
    cases h.symm.trans he
  refine ⟨by_contra fun hd => ?_, ht⟩
  obtain ⟨error, he, -⟩ := classify_of_not hd ht
  cases h.symm.trans he

theorem of_classify_error {error : Exn} (h : Payments.classify o.answer = .error error) :
    ¬o.Delivers ∧ (o.Transient ↔ error.isPermanent = false) := by
  have hd : ¬o.Delivers := fun hd => by cases h.symm.trans hd.classify
  refine ⟨hd, fun ht => ?_, fun he => by_contra fun ht => ?_⟩
  · obtain ⟨error', he', hperm⟩ := ht.classify
    cases h.symm.trans he'
    exact hperm
  · obtain ⟨error', he', hperm⟩ := classify_of_not hd ht
    cases h.symm.trans he'
    simp [he] at hperm

end WebhookOutcome

/-- The outcomes of the webhook requests to come. -/
abbrev Outcomes : Type := ℕ → WebhookOutcome

/-- The outcomes after the next one. -/
def Outcomes.tail (σ : Outcomes) : Outcomes := fun i => σ (i + 1)

/-! ## Calm operations -/

instance : Inhabited GatewayResult := ⟨⟨.succeeded, none, rfl, by decide⟩⟩

/-- The operation succeeds; a webhook answers with the next outcome. -/
inductive Calm : (o : Op) → Res o → Outcomes → Outcomes → Prop
  | now (σ : Outcomes) (time : Time) : Calm .now time σ σ
  | selectForUpdate (σ : Outcomes) (id : UUID) (p : Option Payment) :
      Calm (.selectForUpdate id) (.ok p) σ σ
  | updatePayment (σ : Outcomes) (p : Payment) : Calm (.updatePayment p) (.ok ()) σ σ
  | commit (σ : Outcomes) : Calm .commit (.ok ()) σ σ
  | close (σ : Outcomes) : Calm .close () σ σ
  | gatewayCall (σ : Outcomes) (c : Charge) : Calm (.gatewayCall c) () σ σ
  | gatewayReturn (σ : Outcomes) (c : Charge) (result : GatewayResult) :
      Calm (.gatewayReturn c) (.ok result) σ σ
  | httpPost (σ : Outcomes) (q : WebhookRequest) : Calm (.httpPost q) () σ σ
  | httpResponse (σ : Outcomes) (q : WebhookRequest) :
      Calm (.httpResponse q) (σ 0).answer σ σ.tail
  | publish (σ : Outcomes) (p : Publication) : Calm (.publish p) (.ok ()) σ σ
  | ack (σ : Outcomes) : Calm .ack (.ok ()) σ σ

/-- Thread `t` executes a calm operation; time may have passed before. -/
inductive CalmExec (t : ℕ) (o : Op) (r : Res o) : World × Outcomes → World × Outcomes → Prop
  | intro {w w' : World} {σ σ' : Outcomes} {clock : Time} (hc : w.clock ≤ clock)
      (hx : Exec cfg t o r { w with clock := clock } w') (h : Calm o r σ σ') :
      CalmExec t o r (w, σ) (w', σ')

/-- What code needs in calm weather. -/
abbrev calm (t : ℕ) : Interface Op Res := .executing (CalmExec cfg t)

/-- The broker after a publication of thread `t`. -/
def Broker.routed (B : Broker) (t : ℕ) (p : Publication) : Broker :=
  B.accept ((route cfg p.exchange p.routingKey).map RabbitQueue.name)
    ⟨p.message, (B.delivered t).elim (some p.message) Envelope.origin, p.cause⟩

/-- The answer to a webhook request changes the history only. -/
theorem Exec.httpResponse_same {t : ℕ} {q : WebhookRequest} {r : Except HttpError ℕ} {w w' : World}
    (h : Exec cfg t (.httpResponse q) r w w') :
    w'.payments = w.payments ∧ w'.broker = w.broker := by
  cases h <;> exact ⟨rfl, rfl⟩

/-! ## What a delivery sees -/

/-- The payment as it is committed, the lock on it, what thread `t` has written, the broker, and the
outcomes to come. -/
structure Sees (t : ℕ) (id : UUID) (B : Broker) (p : Payment) (lock : Option ℕ)
    (written : List Payment) (σ : Outcomes) (x : World × Outcomes) : Prop where
  key : p.id = id
  row : x.1.payments.rows id = some p
  lock : x.1.payments.lock id = lock
  wrote : x.1.payments.Wrote t written
  broker : x.1.broker = B
  outcomes : x.2 = σ

namespace Sees

variable {R cfg} {t : ℕ} {id : UUID} {B : Broker} {p : Payment} {lock : Option ℕ}
  {written : List Payment} {σ : Outcomes} {x : World × Outcomes}
  {err : Exn → World × Outcomes → Prop}

theorem congr {w w' : World} {σ' σ'' : Outcomes} (h : Sees t id B p lock written σ (w, σ'))
    (hp : w'.payments = w.payments) (hb : w'.broker = w.broker) :
    Sees t id B p lock written σ'' (w', σ'') := by
  obtain ⟨hkey, hrow, hlock, hwrote, hbroker, -⟩ := h
  dsimp only at hrow hlock hwrote hbroker
  rw [← hp] at hrow hlock hwrote
  exact ⟨hkey, hrow, hlock, hwrote, hb.trans hbroker, rfl⟩

theorem now (h : Sees t id B p lock written σ x) {ok : Time → World × Outcomes → Prop}
    (hok : ∀ τ x', Sees t id B p lock written σ x' → ok τ x') :
    Payments.now.wp (calm cfg t) ok err x := by
  obtain ⟨w, σ'⟩ := x
  refine ⟨⟨_, _, .intro le_rfl (.now _) (.now _ _)⟩, ?_⟩
  rintro τ x' ⟨-, hx, hc⟩
  cases hc
  cases hx
  exact hok _ _ ⟨h.key, h.row, h.lock, h.wrote, h.broker, h.outcomes⟩

theorem selectForUpdate (h : Sees t id B p none [] σ x)
    {ok : Option Payment → World × Outcomes → Prop}
    (hok : ∀ x', Sees t id B p (some t) [] σ x' → ok (some p) x') :
    (Payments.selectForUpdate id).wp (calm cfg t) ok err x := by
  obtain ⟨w, σ'⟩ := x
  obtain ⟨rfl, hrow, hlock, hwrote, rfl, rfl⟩ := h
  refine wp_ask.mpr ⟨⟨_, _, .intro le_rfl (.locked (.inl hlock) hrow) (.selectForUpdate _ _ _)⟩, ?_⟩
  rintro r x' ⟨-, hx, hc⟩
  cases hc with
  | selectForUpdate _ _ q =>
    generalize hid : p.id = id at hx hrow hlock
    cases hx with
    | @locked _ q _ hq =>
      obtain rfl : p = q := Option.some.inj (hrow.symm.trans hq)
      exact hok _ ⟨rfl, hrow, by simp, hwrote, rfl, rfl⟩
    | missing hnone => exact absurd (hrow.symm.trans hnone) (by simp)

theorem updatePayment (h : Sees t id B p (some t) [] σ x) {p' : Payment} (hid : p'.id = id)
    {ok : Unit → World × Outcomes → Prop}
    (hok : ∀ x', Sees t id B p (some t) [p'] σ x' → ok () x') :
    (Payments.updatePayment p').wp (calm cfg t) ok err x := by
  obtain ⟨w, σ'⟩ := x
  have hl : w.payments.lock p'.id = some t := by
    rw [hid]
    exact h.lock
  refine wp_ask.mpr ⟨⟨_, _, .intro le_rfl (.updatedPayment hl) (.updatePayment _ _)⟩, ?_⟩
  rintro r x' ⟨-, hx, hc⟩
  cases hc
  cases hx
  refine hok _ ⟨h.key, h.row, h.lock, ?_, h.broker, h.outcomes⟩
  exact Table.Wrote.update h.wrote (by simpa using hl)

theorem commit (h : Sees t id B p (some t) written σ x) {p' : Payment} (hid : p'.id = id)
    (hp' : (written.find? fun q => q.id = id).or (some p) = some p')
    {ok : Unit → World × Outcomes → Prop} (hok : ∀ x', Sees t id B p' none [] σ x' → ok () x') :
    Payments.commit.wp (calm cfg t) ok err x := by
  obtain ⟨w, σ'⟩ := x
  refine wp_ask.mpr ⟨⟨_, _, .intro le_rfl (.committed _) (.commit _)⟩, ?_⟩
  rintro r x' ⟨-, hx, hc⟩
  cases hc
  cases hx
  refine hok _ ⟨hid, ?_, ?_, Table.wrote_commit, h.broker, h.outcomes⟩
  · change (w.payments.commit t).rows id = some p'
    rw [h.wrote.rows_commit, h.row, hp']
  · exact if_pos h.lock

theorem close (h : Sees t id B p lock written σ x) (hl : lock = none ∨ lock = some t)
    {ok : Unit → World × Outcomes → Prop} (hok : ∀ x', Sees t id B p none [] σ x' → ok () x') :
    Payments.close.wp (calm cfg t) ok err x := by
  obtain ⟨w, σ'⟩ := x
  refine ⟨⟨_, _, .intro le_rfl (.closed _) (.close _)⟩, ?_⟩
  rintro r x' ⟨-, hx, hc⟩
  cases hc
  cases hx
  refine hok _ ⟨h.key, h.row, ?_, Table.wrote_rollback, h.broker, h.outcomes⟩
  change w.payments.released t id = none
  unfold Table.released
  rcases hl with rfl | rfl <;> simp [show w.payments.lock id = _ from h.lock]

theorem charge (h : Sees t id B p lock written σ x) {c : Charge}
    {ok : GatewayResult → World × Outcomes → Prop}
    (hok : ∀ result x', Sees t id B p lock written σ x' → ok result x') :
    (Payments.charge c).wp (calm cfg t) ok err x := by
  obtain ⟨w, σ'⟩ := x
  refine ⟨⟨_, _, .intro le_rfl (.called _ c) (.gatewayCall _ _)⟩, ?_⟩
  rintro _ _ ⟨-, hx, hc⟩
  cases hc
  cases hx
  refine ⟨⟨_, _, .intro le_rfl (.charged _ c default) (.gatewayReturn _ _ _)⟩, ?_⟩
  rintro _ _ ⟨-, hx, hc⟩
  cases hc
  cases hx
  exact hok _ _ ⟨h.key, h.row, h.lock, h.wrote, h.broker, h.outcomes⟩

/-- One request is sent, and answered with the next outcome. -/
theorem send (h : Sees t id B p lock written σ x) (hw : p.wantsWebhook)
    {ok : Unit → World × Outcomes → Prop}
    (hok : ∀ x', classify (σ 0).answer = .ok () → Sees t id B p lock written σ.tail x' → ok () x')
    (herr : ∀ error x', classify (σ 0).answer = .error error →
      Sees t id B p lock written σ.tail x' → err error x') :
    (Payments.send R cfg p).wp (calm cfg t) ok err x := by
  obtain ⟨w, σ'⟩ := x
  obtain rfl : σ' = σ := h.outcomes
  rw [Payments.send, if_pos hw]
  refine ⟨⟨_, _, .intro le_rfl (.posted _ _) (.httpPost _ _)⟩, ?_⟩
  rintro _ _ ⟨-, hx, hc⟩
  cases hc
  cases hx
  have hprogress : ∀ w : World, ∃ w', Exec cfg t (.httpResponse (webhookRequest R cfg p))
      (σ' 0).answer w w' := by
    intro w
    cases (σ' 0) with
    | status code => exact ⟨_, .answered _ _ code⟩
    | timeout text => exact ⟨_, .unanswered _ _ (.timeout text)⟩
    | transport text => exact ⟨_, .unanswered _ _ (.transport text)⟩
  obtain ⟨w', hw'⟩ := hprogress _
  refine ⟨⟨_, _, .intro le_rfl hw' (.httpResponse _ _)⟩, ?_⟩
  rintro _ ⟨w'', σ''⟩ ⟨-, hx, hc⟩
  cases hc
  obtain ⟨hpay, hbroker⟩ := hx.httpResponse_same
  have h' : Sees t id B p lock written σ'.tail (w'', σ'.tail) := h.congr hpay hbroker
  change (Action.ofExcept (classify (σ' 0).answer)).wp (calm cfg t) ok err _
  cases hcl : classify (σ' 0).answer with
  | ok u => exact hok _ hcl h'
  | error error => exact herr error _ hcl h'

theorem publish (h : Sees t id B p lock written σ x) {q : Publication}
    {ok : Unit → World × Outcomes → Prop}
    (hok : ∀ x', Sees t id (B.routed cfg t q) p lock written σ x' → ok () x') :
    (Payments.publish q).wp (calm cfg t) ok err x := by
  obtain ⟨w, σ'⟩ := x
  refine wp_ask.mpr ⟨⟨_, _, .intro le_rfl (.confirmed _ _) (.publish _ _)⟩, ?_⟩
  rintro r x' ⟨-, hx, hc⟩
  cases hc
  cases hx
  refine hok _ ⟨h.key, h.row, h.lock, h.wrote, ?_, h.outcomes⟩
  rw [← h.broker]
  rfl

theorem ack (h : Sees t id B p lock written σ x) (hu : B.unacked t = true)
    {ok : Unit → World × Outcomes → Prop}
    (hok : ∀ x', Sees t id (B.settle t) p lock written σ x' → ok () x') :
    Payments.ack.wp (calm cfg t) ok err x := by
  obtain ⟨w, σ'⟩ := x
  refine wp_ask.mpr ⟨⟨_, _, .intro le_rfl (.acked ?_) (.ack _)⟩, ?_⟩
  · rw [← h.broker] at hu
    exact hu
  · rintro r x' ⟨-, hx, hc⟩
    cases hc
    cases hx
    refine hok _ ⟨h.key, h.row, h.lock, h.wrote, ?_, h.outcomes⟩
    rw [← h.broker]

end Sees

/-! ## What a delivery comes to -/

/-- Nothing about the notifications of the payment has changed. -/
structure Payment.SameNotifications (p p' : Payment) : Prop where
  webhookUrl : p'.webhookUrl = p.webhookUrl
  webhookAttempts : p'.webhookAttempts = p.webhookAttempts
  webhookDeliveredAt : p'.webhookDeliveredAt = p.webhookDeliveredAt

/-- What one delivery of `m`, which has failed `attempt` times before, comes to. -/
inductive Handled (t : ℕ) (id : UUID) (B : Broker) (m : Message) (attempt : ℕ) (p : Payment)
    (σ : Outcomes) (x : World × Outcomes) : Prop
  | delivered {p₁ : Payment} {now : Time} (hp : p.SameNotifications p₁)
      (hσ : classify (σ 0).answer = .ok ())
      (h : Sees t id (B.settle t) (p₁.delivered now) none [] σ.tail x)
  | routed {p₁ : Payment} {error : Exn} (hp : p.SameNotifications p₁)
      (hσ : classify (σ 0).answer = .error error)
      (h : Sees t id ((B.routed cfg t (failurePublication R cfg m attempt error)).settle t)
        (p₁.undelivered (errorText R error)) none [] σ.tail x)

section Code

variable {R cfg} {t : ℕ} {id : UUID} {B : Broker} {p : Payment} {σ : Outcomes}
  {x : World × Outcomes}

theorem finalizePayment_calm (h : Sees t id B p none [] σ x) :
    (finalizePayment id).wp (calm cfg t)
      (fun _ x' => ∃ p₁, p.SameNotifications p₁ ∧ Sees t id B p₁ none [] σ x')
      (fun _ _ => False) x := by
  rw [finalizePayment, Action.wp_within, Action.wp_bind]
  refine h.selectForUpdate fun x h => ?_
  dsimp only
  by_cases hs : p.status = .pending
  · rw [if_neg (not_not.mpr hs), Action.wp_bind]
    refine h.charge fun result x h => ?_
    rw [Action.wp_bind]
    refine h.now fun now x h => ?_
    rw [Action.wp_bind]
    have hid : (p.finalized result now).id = id := h.key
    refine h.updatePayment hid fun x h => ?_
    refine h.commit hid (by simp [hid]) fun x h => ?_
    exact h.close (.inl rfl) fun x h => ⟨p.finalized result now, ⟨rfl, rfl, rfl⟩, h⟩
  · rw [if_pos hs]
    exact h.close (.inr rfl) fun x h => ⟨_, ⟨rfl, rfl, rfl⟩, h⟩

theorem deliverWebhook_calm (h : Sees t id B p none [] σ x) (hw : p.wantsWebhook)
    (hd : p.webhookDeliveredAt = none) :
    (deliverWebhook R cfg id).wp (calm cfg t)
      (fun _ x' => classify (σ 0).answer = .ok () ∧
        ∃ now, Sees t id B (p.delivered now) none [] σ.tail x')
      (fun error x' => classify (σ 0).answer = .error error ∧
        Sees t id B (p.undelivered (errorText R error)) none [] σ.tail x') x := by
  rw [deliverWebhook, Action.wp_within, Action.wp_bind]
  refine h.selectForUpdate fun x h => ?_
  dsimp only
  rw [if_neg (by simp [hw, hd]), Action.wp_bind, Action.wp_attempt]
  refine h.send hw (fun x hσ h => ?_) fun error x hσ h => ?_
  · dsimp only
    rw [Action.wp_bind]
    refine h.now fun now x h => ?_
    rw [Action.wp_bind]
    have hid : (p.delivered now).id = id := h.key
    refine h.updatePayment hid fun x h => ?_
    refine h.commit hid (by simp [hid]) fun x h => ?_
    exact h.close (.inl rfl) fun x h => ⟨hσ, now, h⟩
  · dsimp only
    rw [Action.wp_bind]
    have hid : (p.undelivered (errorText R error)).id = id := h.key
    refine h.updatePayment hid fun x h => ?_
    rw [Action.wp_bind]
    refine h.commit hid (by simp [hid]) fun x h => ?_
    exact h.close (.inl rfl) fun x h => ⟨hσ, h⟩

/-- **One delivery in calm weather.** -/
theorem handleDelivery_calm {m : Message} {attempt : ℕ}
    (ha : currentAttempt m.headers = .ok attempt) (hm : eventPayment R m = some id)
    (hu : B.unacked t = true) (h : Sees t id B p none [] σ x) (hw : p.wantsWebhook)
    (hd : p.webhookDeliveredAt = none) :
    (handleDelivery R cfg m).wp (calm cfg t) (fun _ x' => Handled R cfg t id B m attempt p σ x')
      (fun _ _ => False) x := by
  rw [handleDelivery, ha, Action.wp_bind, Action.wp_ofExcept_ok, Action.wp_tryCatch]
  cases hv : R.validateEvent m.body with
  | error text => simp [eventPayment, hv] at hm
  | ok event =>
    obtain rfl : event.paymentId = id := by simpa [eventPayment, hv] using hm
    dsimp only
    rw [Action.wp_bind, Action.wp_attempt, process, Action.wp_bind]
    refine Action.wp_mono (finalizePayment_calm h) ?_ fun _ _ h => h.elim
    rintro _ x ⟨p₁, hp, h⟩
    have hw₁ : p₁.wantsWebhook := by rwa [Payment.wantsWebhook, hp.webhookUrl]
    refine Action.wp_mono (deliverWebhook_calm h hw₁ (hp.webhookDeliveredAt.trans hd)) ?_ ?_
    · rintro _ x ⟨hσ, now, h⟩
      exact h.ack hu fun x h => .delivered hp hσ h
    · rintro error x ⟨hσ, h⟩
      dsimp only
      rw [Action.wp_bind, routeFailure_eq]
      exact h.publish fun x h => h.ack hu fun x h => .routed hp hσ h

end Code

end Payments
