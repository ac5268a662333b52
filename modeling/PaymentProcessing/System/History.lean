import PaymentProcessing.System.Totals

/-!
# The history

What is recorded when (`Recorded`), and what every event of the past says about the rows of the
present: a notification was about a final payment and is the one that would be sent today
(`posted_request`), a copy of an outbox row is what would be published today (`published_copy`).
-/

namespace Payments

open Effects Python Store Relation

variable {R : Runtime} {cfg : Settings} {w w' : World} {t : ℕ} {o : Op} {r : Res o}

/-! ## What is recorded -/

/-- The operation `o` of thread `t` is recorded as this event. -/
inductive Records (t : ℕ) (w : World) : Op → Event → Prop
  | read : Records t w .now (.read w.clock)
  | inserted (p : NewPayment) (m : NewOutboxMessage) : Records t w (.insert p m) (.inserted t p.id)
  | commitLost : Records t w .commit (.commitLost t)
  | called (c : Charge) : Records t w (.gatewayCall c) (.called c)
  | charged (c : Charge) (result : GatewayResult) :
      Records t w (.gatewayReturn c) (.charged c result)
  | posted (q : WebhookRequest) : Records t w (.httpPost q) (.posted q)
  | answered (q : WebhookRequest) (status : ℕ) :
      Records t w (.httpResponse q) (.answered q status)
  | published (p : Publication) (o : PublishOutcome) : Records t w (.publish p) (.published p o)

theorem Exec.log_cases (h : Exec cfg t o r w w') :
    w'.journal.log = w.journal.log ∨
      ∃ e, Records t w o e ∧ w'.journal.log = e :: w.journal.log := by
  cases h with
  | now => exact .inr ⟨_, .read, rfl⟩
  | inserted => exact .inr ⟨_, .inserted _ _, rfl⟩
  | commitLost => exact .inr ⟨_, .commitLost, rfl⟩
  | called => exact .inr ⟨_, .called _, rfl⟩
  | charged => exact .inr ⟨_, .charged _ _, rfl⟩
  | posted => exact .inr ⟨_, .posted _, rfl⟩
  | answered => exact .inr ⟨_, .answered _ _, rfl⟩
  | confirmed => exact .inr ⟨_, .published _ _, rfl⟩
  | confirmationLost => exact .inr ⟨_, .published _ _, rfl⟩
  | refused => exact .inr ⟨_, .published _ _, rfl⟩
  | _ => exact .inl rfl

/-- A thread does something that is recorded as this event. -/
inductive Recorded (v : View R cfg) (e : Event) : Prop
  | intro {t : ℕ} {φ φ' : Phase} {o : Op} {r : Res o} (ht : v.status t = .active φ)
      (hm : Move R cfg φ o r φ') (he : Records t v.world o e)

/-- **Only executions add to the history**, to the events and to the committed transactions. -/
theorem exec_or_same {v v' : View R cfg} (hs : (serviceSpec R cfg).Step v v') :
    (v'.world.journal.log = v.world.journal.log ∧
      v'.world.journal.committed = v.world.journal.committed) ∨
    ∃ (t : ℕ) (φ φ' : Phase) (o : Op) (r : Res o), v.status t = .active φ ∧ Move R cfg φ o r φ' ∧
      Exec cfg t o r v.world v'.world := by
  cases hs with
  | start hst =>
    left
    rw [(Start.same hst).2.2.2]
    exact ⟨rfl, rfl⟩
  | exec ht hm hx => exact .inr ⟨_, _, _, _, _, ht, hm, hx⟩
  | @crash t _ w ht hw =>
    obtain rfl : w = World.crash v.world t := hw
    exact .inl ⟨rfl, rfl⟩
  | env he =>
    left
    rw [(Environment.same he).2.2.2]
    exact ⟨rfl, rfl⟩

/-- **A step records one event at most.** -/
theorem step_log {v v' : View R cfg} (hs : (serviceSpec R cfg).Step v v') :
    v'.world.journal.log = v.world.journal.log ∨
      ∃ e, Recorded v e ∧ v'.world.journal.log = e :: v.world.journal.log := by
  rcases exec_or_same hs with ⟨heq, -⟩ | ⟨t, φ, φ', o, r, ht, hm, hx⟩
  · exact .inl heq
  · rcases Exec.log_cases hx with heq | ⟨e, he, heq⟩
    · exact .inl heq
    · exact .inr ⟨e, ⟨ht, hm, he⟩, heq⟩

/-- The event that a step has added. -/
theorem recorded {v v' : View R cfg} (hs : (serviceSpec R cfg).Step v v') {e : Event}
    (hlog : v'.world.journal.log = e :: v.world.journal.log) : Recorded v e := by
  rcases step_log hs with heq | ⟨e', he, heq⟩
  · rw [heq] at hlog
    exact absurd (congrArg List.length hlog) (by simp)
  · obtain rfl : e' = e := List.head_eq_of_cons_eq (heq.symm.trans hlog)
    exact he

/-- **The rule for the past**: what is true of an event when it is recorded and stays true is true
of every event of the past. -/
theorem mem_log {P : View R cfg → Event → Prop}
    (hnew : ∀ {v v' e}, (serviceSpec R cfg).Reachable v → (serviceSpec R cfg).Step v v' →
      v'.world.journal.log = e :: v.world.journal.log → P v' e)
    (hstep : ∀ {v v' e}, (serviceSpec R cfg).Reachable v → (serviceSpec R cfg).Step v v' →
      P v e → P v' e) {v : View R cfg} (h : (serviceSpec R cfg).Reachable v) {e : Event}
    (he : e ∈ v.world.journal.log) : P v e := by
  refine h.invariant (I := fun v : View R cfg => ∀ e ∈ v.world.journal.log, P v e) ?_ ?_ e he
  · rintro v ⟨⟨clock, hw⟩, -⟩ e he
    rw [hw] at he
    simp [World.initial, Journal.empty] at he
  · intro v v' hv ih hs e he
    rcases step_log hs with heq | ⟨e', -, heq⟩
    · exact hstep hv hs (ih e (heq ▸ he))
    · rw [heq] at he
      rcases List.mem_cons.mp he with rfl | he
      · exact hnew hv hs heq
      · exact hstep hv hs (ih e he)

section Recorded

variable {v v' : View R cfg}

/-- The gateway is called for a pending payment that is locked. -/
theorem Recorded.called {c : Charge} (h : Recorded v (.called c))
    (hv : (serviceSpec R cfg).Reachable v) :
    ∃ t p, v.world.payments.Holds t p ∧ p.status = .pending ∧ c = p.charge := by
  obtain ⟨ht, hm, he⟩ := h
  cases he
  cases hm with
  | api hm => cases hm
  | relay hm => cases hm
  | consumer hm =>
    cases hm with
    | charging hp => exact ⟨_, _, ConsumerPhase.Knows.held (knows hv ht) _ rfl, hp, rfl⟩

/-- A notification is sent about a final payment that is locked and wants it. -/
theorem Recorded.posted {q : WebhookRequest} (h : Recorded v (.posted q))
    (hv : (serviceSpec R cfg).Reachable v) :
    ∃ t p, v.world.payments.Holds t p ∧ p.Sendable ∧ q = webhookRequest R cfg p := by
  obtain ⟨ht, hm, he⟩ := h
  cases he
  cases hm with
  | api hm => cases hm
  | relay hm => cases hm
  | consumer hm =>
    cases hm with
    | @sending p hw hd =>
      have hk := knows hv ht
      exact ⟨_, p, ConsumerPhase.Knows.held hk _ rfl, ⟨ConsumerPhase.Knows.facts hk, hw, hd⟩, rfl⟩

/-- A copy of an outbox row is published by a call of the relay that holds the row. -/
theorem Recorded.published {p : Publication} {o : PublishOutcome} (h : Recorded v (.published p o))
    (hv : (serviceSpec R cfg).Reachable v) {id : UUID} (hp : p.copies id) :
    ∃ t row, v.world.outbox.Holds t row ∧ row.publishedAt = none ∧
      row.nextRetryAt ≤ v.world.clock ∧ row.id = id ∧ p = outboxPublication R row := by
  obtain ⟨ht, hm, he⟩ := h
  cases he
  have hrelay : ∀ {t : ℕ} {now : Time} {done : List Mark} {row : OutboxMessage}
      {todo : List OutboxMessage}, v.status t = .active (.relay (.batch now done (row :: todo))) →
      (outboxPublication R row).copies id →
      ∃ t row', v.world.outbox.Holds t row' ∧ row'.publishedAt = none ∧
        row'.nextRetryAt ≤ v.world.clock ∧ row'.id = id ∧
        outboxPublication R row = outboxPublication R row' := by
    intro t now done row todo ht hp
    have hk : RelayPhase.Knows R v.world t (.batch now done (row :: todo)) := knows hv ht
    have hheld : row ∈ (RelayPhase.batch now done (row :: todo)).held := by simp [RelayPhase.held]
    obtain ⟨hnone, htime⟩ := hk.eligible row hheld
    rw [copies_outboxPublication] at hp
    exact ⟨t, row, hk.held row hheld, hnone, (htime now rfl).trans (hk.clock now rfl),
      of_decide_eq_true hp, rfl⟩
  cases hm with
  | api hm => cases hm
  | relay hm =>
    cases hm with
    | confirmed => exact hrelay ht hp
    | postponed => exact hrelay ht hp
  | consumer hm =>
    cases hm with
    | malformed => simp [copies_dlqPublication] at hp
    | malformedFailed => simp [copies_dlqPublication] at hp
    | routed => simp [copies_failurePublication] at hp
    | notRouted => simp [copies_failurePublication] at hp

end Recorded

/-! ## What an event says about the present -/

/-- What the service would send about a final payment does not change. -/
theorem Payment.LifeCycle.webhookRequest {p p' : Payment} (h : p.LifeCycle p')
    (hf : p.status.isFinal) : Payments.webhookRequest R cfg p' = Payments.webhookRequest R cfg p := by
  obtain ⟨hs, hr, ht⟩ := h.final hf
  simp only [Payments.webhookRequest, buildPayload, h.request.id, h.request.amount,
    h.request.currency, h.request.description, h.request.paymentMetadata, h.request.webhookUrl,
    h.request.createdAt, hs, hr, ht]

/-- **Every notification ever sent is about a final payment**, and says what one would say today. -/
theorem posted_request {v : View R cfg} (h : (serviceSpec R cfg).Reachable v) {q : WebhookRequest}
    (hq : .posted q ∈ v.world.journal.log) :
    ∃ p, v.world.payments.rows q.payload.paymentId = some p ∧ p.status.isFinal ∧
      q = webhookRequest R cfg p := by
  have hstep : ∀ {v v' : View R cfg} {q : WebhookRequest}, (serviceSpec R cfg).Reachable v →
      (serviceSpec R cfg).Step v v' →
      (∃ p, v.world.payments.rows q.payload.paymentId = some p ∧ p.status.isFinal ∧
        q = webhookRequest R cfg p) →
      ∃ p, v'.world.payments.rows q.payload.paymentId = some p ∧ p.status.isFinal ∧
        q = webhookRequest R cfg p := by
    rintro v v' q hv hs ⟨p, hp, hf, hreq⟩
    obtain ⟨p', hp', hl⟩ := step_payments hv hs hp
    exact ⟨p', hp', hl.isFinal hf, by rw [hl.webhookRequest hf]; exact hreq⟩
  refine mem_log (P := fun v e => ∀ q, e = .posted q → ∃ p,
    v.world.payments.rows q.payload.paymentId = some p ∧ p.status.isFinal ∧
      q = webhookRequest R cfg p) ?_ ?_ h hq q rfl
  · rintro v v' _ hv hs hlog q rfl
    obtain ⟨t, p, hp, hsend, rfl⟩ := (recorded hs hlog).posted hv
    exact hstep hv hs ⟨p, hp.row, hsend.isFinal, rfl⟩
  · exact fun hv hs ih q he => hstep hv hs (ih q he)

/-- **Every copy of an outbox row is what would be published today.** -/
theorem published_copy {v : View R cfg} (h : (serviceSpec R cfg).Reachable v) {p : Publication}
    {o : PublishOutcome} (hp : .published p o ∈ v.world.journal.log) {id : UUID}
    (hc : p.copies id) :
    ∃ row, v.world.outbox.rows id = some row ∧ p = outboxPublication R row := by
  have hstep : ∀ {v v' : View R cfg}, (serviceSpec R cfg).Reachable v →
      (serviceSpec R cfg).Step v v' →
      (∃ row, v.world.outbox.rows id = some row ∧ p = outboxPublication R row) →
      ∃ row, v'.world.outbox.rows id = some row ∧ p = outboxPublication R row := by
    rintro v v' hv hs ⟨row, hrow, rfl⟩
    obtain ⟨row', hrow', hl⟩ := step_outbox hv hs hrow
    exact ⟨row', hrow', (hl.outboxPublication R).symm⟩
  refine mem_log (P := fun v e => e = .published p o →
    ∃ row, v.world.outbox.rows id = some row ∧ p = outboxPublication R row) ?_ ?_ h hp rfl
  · rintro v v' _ hv hs hlog rfl
    obtain ⟨t, row, hrow, -, -, rfl, rfl⟩ := (recorded hs hlog).published hv hc
    exact hstep hv hs ⟨row, hrow.row, rfl⟩
  · exact fun hv hs ih he => hstep hv hs (ih he)

/-- The transaction that wrote the answer of the gateway. -/
theorem Committing.charged {φ : Phase} (hc : Committing φ) {l : List Event}
    (htr : φ.Traced R cfg t l) {c : Charge} {result : GatewayResult} (h : .charged c result ∈ l) :
    ∃ m p now, φ = .consumer m (.finalFlushed p result now) ∧ c = p.charge := by
  cases hc with
  | staged cmd fingerprint pid messageId occurredAt now =>
    obtain ⟨l', hr, rfl⟩ := htr
    rcases List.mem_cons.mp h with h | h
    · simp at h
    · obtain ⟨now, hnow⟩ := hr _ h
      simp at hnow
  | flushed now done todo =>
    rcases Noted.relaying htr _ h with ⟨now, hnow⟩ | ⟨row, o, hrow⟩
    · simp at hnow
    · simp at hrow
  | finalFlushed m p result' now =>
    obtain rfl : l = _ := htr
    obtain ⟨rfl, rfl⟩ : c = p.charge ∧ result = result' := by simpa using h
    exact ⟨m, p, now, rfl, rfl⟩
  | reopened m p =>
    obtain rfl : l = [] := htr
    simp at h
  | deliveredFlushed m p status now =>
    obtain rfl : l = _ := htr
    simp at h
  | undeliveredFlushed m p answer error =>
    obtain rfl : l = _ := htr
    cases answer <;> simp [answers] at h

/-- **A committed result of the gateway is the answer the payment keeps.** -/
theorem charged_result {v : View R cfg} (h : (serviceSpec R cfg).Reachable v) {tr : List Event}
    (htr : tr ∈ v.world.journal.committed) {c : Charge} {result : GatewayResult}
    (hc : .charged c result ∈ tr) :
    ∃ p, v.world.payments.rows c.paymentId = some p ∧ p.status = result.status ∧
      p.failureReason = result.failureReason := by
  refine committed_invariant (P := fun T _ l => ∀ tr ∈ l, .charged c result ∈ tr →
    ∃ p, T.rows c.paymentId = some p ∧ p.status = result.status ∧
      p.failureReason = result.failureReason) ?_ ?_ ?_ h tr htr hc
  · intro T T' _ _ l hT _ ih tr htr hc
    rw [hT]
    exact ih tr htr hc
  · simp
  · intro v t φ tr' hv ih ht hcom heq tr htr hc
    have hk := knows hv ht
    rcases List.mem_cons.mp htr with rfl | htr
    · have hcur : .charged c result ∈ v.world.journal.current t := by
        rcases heq with rfl | rfl
        · exact hc
        · simpa using hc
      obtain ⟨m, p, now, rfl, rfl⟩ := hcom.charged (traced hv ht) hcur
      refine ⟨p.finalized result now, ?_, rfl, rfl⟩
      rw [hk.payments.rows_commit]
      simp [Phase.writtenPayments, ConsumerPhase.written, Payment.finalized, Payment.charge]
    · obtain ⟨p, hp, hst, hre⟩ := ih tr htr hc
      obtain ⟨p', hp', hl⟩ := hk.payments.evolves Payment.LifeCycle.refl
        (fun p' hp' q hq => (hk.payment_step hp' hq).lifeCycle) hp
      obtain ⟨h1, h2, -⟩ := hl.final (hst ▸ result.isFinal)
      exact ⟨p', hp', h1.trans hst, h2.trans hre⟩

/-! ## What does not happen any more -/

section Stop

variable {v v' : View R cfg}

/-- As long as `Q` holds nothing of a kind is recorded, so its number does not change. -/
theorem countP_log_run {f : Event → Bool} {Q : View R cfg → Prop}
    (hstep : ∀ {v v'}, (serviceSpec R cfg).Reachable v → (serviceSpec R cfg).Step v v' → Q v → Q v')
    (hno : ∀ {v e}, (serviceSpec R cfg).Reachable v → Q v → Recorded v e → f e = false)
    (h : (serviceSpec R cfg).Reachable v) (hr : ReflTransGen (serviceSpec R cfg).Step v v')
    (hQ : Q v) : v'.world.journal.log.countP f = v.world.journal.log.countP f := by
  refine ((h.along (Q := fun v v' : View R cfg => Q v → Q v' ∧
    v'.world.journal.log.countP f = v.world.journal.log.countP f) ?_ ?_ ?_ hr).1 hQ).2
  · exact fun v hQ => ⟨hQ, rfl⟩
  · intro v₁ v₂ v₃ h₁ h₂ hQ
    obtain ⟨hQ₂, heq⟩ := h₁ hQ
    obtain ⟨hQ₃, heq'⟩ := h₂ hQ₂
    exact ⟨hQ₃, heq'.trans heq⟩
  · intro v v' hv hs hQ
    refine ⟨hstep hv hs hQ, ?_⟩
    rcases step_log hs with heq | ⟨e, he, heq⟩
    · rw [heq]
    · rw [heq, List.countP_cons, hno hv hQ he]
      rfl

/-- **A final payment is not charged again.** -/
theorem calls_run (h : (serviceSpec R cfg).Reachable v)
    (hr : ReflTransGen (serviceSpec R cfg).Step v v') {id : UUID} {p : Payment}
    (hp : v.world.payments.rows id = some p) (hf : p.status.isFinal) :
    v'.world.journal.log.countP (Event.calls id) = v.world.journal.log.countP (Event.calls id) := by
  refine countP_log_run
    (Q := fun v : View R cfg => ∃ p, v.world.payments.rows id = some p ∧ p.status.isFinal)
    ?_ ?_ h hr ⟨p, hp, hf⟩
  · rintro v v' hv hs ⟨p, hp, hf⟩
    obtain ⟨p', hp', hl⟩ := step_payments hv hs hp
    exact ⟨p', hp', hl.isFinal hf⟩
  · rintro v e hv ⟨p, hp, hf⟩ he
    cases e with
    | called c =>
      obtain ⟨t, q, hq, hpending, rfl⟩ := he.called hv
      refine decide_eq_false fun hid => ?_
      have hrow := hq.row
      rw [show q.id = id from hid, hp] at hrow
      exact Payment.not_pending_of_isFinal hf (Option.some.inj hrow ▸ hpending)
    | _ => rfl

/-- **A payment whose client was notified is not notified again.** -/
theorem posts_run (h : (serviceSpec R cfg).Reachable v)
    (hr : ReflTransGen (serviceSpec R cfg).Step v v') {id : UUID} {p : Payment}
    (hp : v.world.payments.rows id = some p) (hd : p.webhookDeliveredAt.isSome) :
    v'.world.journal.log.countP (Event.posts id) = v.world.journal.log.countP (Event.posts id) := by
  refine countP_log_run
    (Q := fun v : View R cfg => ∃ p, v.world.payments.rows id = some p ∧ p.webhookDeliveredAt.isSome)
    ?_ ?_ h hr ⟨p, hp, hd⟩
  · rintro v v' hv hs ⟨p, hp, hd⟩
    obtain ⟨p', hp', hl⟩ := step_payments hv hs hp
    exact ⟨p', hp', by rwa [hl.delivered hd]⟩
  · rintro v e hv ⟨p, hp, hd⟩ he
    cases e with
    | posted q =>
      obtain ⟨t, p', hp', hsend, rfl⟩ := he.posted hv
      refine decide_eq_false fun hid => ?_
      have hrow := hp'.row
      rw [show p'.id = id from hid, hp] at hrow
      rw [Option.some.inj hrow, hsend.undelivered] at hd
      simp at hd
    | _ => rfl

/-- **A published outbox message is not published again.** -/
theorem publishes_run (h : (serviceSpec R cfg).Reachable v)
    (hr : ReflTransGen (serviceSpec R cfg).Step v v') {id : UUID} {m : OutboxMessage}
    (hm : v.world.outbox.rows id = some m) (hp : m.publishedAt.isSome) :
    v'.world.journal.log.countP (Event.publishes id) =
      v.world.journal.log.countP (Event.publishes id) := by
  refine countP_log_run
    (Q := fun v : View R cfg => ∃ m, v.world.outbox.rows id = some m ∧ m.publishedAt.isSome) ?_ ?_
    h hr ⟨m, hm, hp⟩
  · rintro v v' hv hs ⟨m, hm, hp⟩
    obtain ⟨m', hm', hl⟩ := step_outbox hv hs hm
    exact ⟨m', hm', by rwa [hl.published hp]⟩
  · rintro v e hv ⟨m, hm, hp⟩ he
    cases e with
    | published p o =>
      rw [← Bool.not_eq_true]
      intro hpub
      have hcopy : p.copies id := by
        cases o <;> simpa [Event.publishes, Event.confirms, Event.fails] using hpub
      obtain ⟨t, row, hrow, hnone, -, rfl, rfl⟩ := he.published hv hcopy
      have hrow := hrow.row
      rw [hm] at hrow
      rw [Option.some.inj hrow, hnone] at hp
      simp at hp
    | _ => rfl

end Stop

/-! ## What open transactions hold -/

section Open

variable {v : View R cfg} {f : Event → Bool}

/-- An open transaction with an event that only deliveries cause. -/
theorem open_consumer (h : (serviceSpec R cfg).Reachable v) (hf : Uncounted f)
    (hi : ∀ t id, f (.inserted t id) = false) (hp : ∀ p o, f (.published p o) = false)
    (hany : (v.world.journal.current t).any f) :
    ∃ m φ, v.status t = .active (.consumer m φ) := by
  have hne : ∀ {l}, entered f l = 0 → l = v.world.journal.current t → False := by
    rintro l hl rfl
    simp [entered, hany] at hl
  have htr := tracing h t
  cases hst : v.status t with
  | unborn =>
    rw [hst] at htr
    exact (hne (l := []) rfl htr.symm).elim
  | crashed =>
    rw [hst] at htr
    exact (hne (l := []) rfl htr.symm).elim
  | active φ =>
    rw [hst] at htr
    have hreading : ∀ {l}, Reading l → entered f l = 0 := fun hr => entered_eq_zero fun e he => by
      obtain ⟨now, rfl⟩ := hr e he
      exact hf.1 now
    cases φ with
    | consumer m φ => exact ⟨m, φ, rfl⟩
    | api c φ =>
      cases φ with
      | staged fingerprint pid messageId occurredAt now =>
        exact (hne (entered_staged hf hi htr) rfl).elim
      | _ => exact (hne (hreading htr) rfl).elim
    | relay φ =>
      cases φ with
      | fresh => exact (hne (l := []) rfl htr.symm).elim
      | timed now => exact (hne (hreading (reading_nil.cons now)) htr.symm).elim
      | closing => exact (hne (hreading htr) rfl).elim
      | batch => exact (hne (entered_relaying hf hp (Noted.relaying htr)) rfl).elim
      | flushed => exact (hne (entered_relaying hf hp (Noted.relaying htr)) rfl).elim
      | unflushed => exact (hne (entered_relaying hf hp (Noted.relaying htr)) rfl).elim
      | confirmed =>
        obtain ⟨tr', hn, heq⟩ := htr
        exact (hne (entered_relaying hf hp (hn.relaying.published _ _)) heq.symm).elim
      | postponed =>
        obtain ⟨tr', o, hn, -, heq⟩ := htr
        exact (hne (entered_relaying hf hp (hn.relaying.published _ _)) heq.symm).elim

/-- Its events have the shape of a delivery. -/
theorem open_shape (h : (serviceSpec R cfg).Reachable v) (hf : Uncounted f)
    (hi : ∀ t id, f (.inserted t id) = false) (hp : ∀ p o, f (.published p o) = false)
    (hany : (v.world.journal.current t).any f) :
    ∃ m φ, φ.Knows R m v.world t ∧ Shape R cfg φ (v.world.journal.current t) := by
  obtain ⟨m, φ, hst⟩ := open_consumer h hf hi hp hany
  have hk : φ.Knows R m v.world t := knows h hst
  have htr : φ.Traced R cfg (v.world.journal.current t) := traced h hst
  exact ⟨m, φ, hk, htr.shape hk.facts⟩

/-- **An open transaction with a result of the gateway holds the payment**, which is pending. -/
theorem open_charges (h : (serviceSpec R cfg).Reachable v) {id : UUID}
    (hany : (v.world.journal.current t).any (Event.charges id)) :
    ∃ p, v.world.payments.Holds t p ∧ p.id = id ∧ p.status = .pending := by
  obtain ⟨m, φ, hk, hshape⟩ :=
    open_shape h (uncounted_charges id) (fun _ _ => rfl) (fun _ _ => rfl) hany
  generalize v.world.journal.current t = tr at hany hshape
  cases hshape with
  | charged hheld hp hl =>
    refine ⟨_, hk.held _ hheld, ?_, hp⟩
    simpa [hl.any_eq_false (uncounted_charges id), Event.charges, Payment.charge] using hany
  | notified _ _ hl => simp [hl.any_eq_false (uncounted_charges id), Event.charges] at hany
  | fruitless hf =>
    rw [hf.any_eq_false (fun _ => rfl) (fun _ => rfl) fun _ _ _ => rfl] at hany
    simp at hany
  | routing hr =>
    rw [hr.any_eq_false fun _ _ _ => rfl] at hany
    simp at hany

/-- **An open transaction with a notification that was taken holds the payment**, which is not
marked as notified. -/
theorem open_notifies (h : (serviceSpec R cfg).Reachable v) {id : UUID}
    (hany : (v.world.journal.current t).any (Event.notifies id)) :
    ∃ p, v.world.payments.Holds t p ∧ p.id = id ∧ p.webhookDeliveredAt = none := by
  obtain ⟨m, φ, hk, hshape⟩ :=
    open_shape h (uncounted_notifies id) (fun _ _ => rfl) (fun _ _ => rfl) hany
  generalize v.world.journal.current t = tr at hany hshape
  cases hshape with
  | charged _ _ hl => simp [hl.any_eq_false (uncounted_notifies id), Event.notifies] at hany
  | notified hheld hp hl =>
    refine ⟨_, hk.held _ hheld, ?_, hp.undelivered⟩
    simp [hl.any_eq_false (uncounted_notifies id), Event.notifies, webhookRequest,
      buildPayload] at hany
    exact hany.1
  | fruitless hf =>
    rw [hf.any_eq_false (fun _ => rfl) (fun _ => rfl) fun _ _ hs =>
      decide_eq_false fun h => hs h.2] at hany
    simp at hany
  | routing hr =>
    rw [hr.any_eq_false fun _ _ _ => rfl] at hany
    simp at hany

/-- One transaction at a time has an event that needs the lock of a payment. -/
theorem openWith_le {f : Event → Bool} {i : UUID} {q : Payment → Prop}
    (hopen : ∀ t, (v.world.journal.current t).any f →
      ∃ p, v.world.payments.Holds t p ∧ p.id = i ∧ q p) :
    openWith f v.world.journal v.born ≤ 1 ∧
      (openWith f v.world.journal v.born ≠ 0 → ∃ p, v.world.payments.rows i = some p ∧ q p) := by
  constructor
  · refine Finset.card_le_one.mpr fun t ht t' ht' => ?_
    obtain ⟨p, hp, rfl, -⟩ := hopen t (Finset.mem_filter.mp ht).2
    obtain ⟨p', hp', hid, -⟩ := hopen t' (Finset.mem_filter.mp ht').2
    exact hp.unique hp' hid.symm
  · intro hne
    obtain ⟨t, ht⟩ := Finset.card_ne_zero.mp hne
    obtain ⟨p, hp, rfl, hq⟩ := hopen t (Finset.mem_filter.mp ht).2
    exact ⟨p, hp.row, hq⟩

end Open

end Payments
