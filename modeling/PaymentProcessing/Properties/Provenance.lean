import PaymentProcessing.Foundations.Effects.Completion
import PaymentProcessing.Properties.Sessions
import PaymentProcessing.System.Handling

/-!
# Only what was asked for

Between the request of a client and the charge there are a row, an event, a message and a process
that knows an `id` only. Still the gateway is never asked for anything that a request did not ask
for, and a client is told about its own payment, at its own address (`payment_provenance`); and what
the API has accepted is what is charged and notified from then on (`accepted_honoured`).
-/

namespace Payments

open Effects Python Store Relation

variable {R : Runtime} {cfg : Settings}

/-! ## Threads and what they were started for -/

instance (o : Op) : Nonempty (Res o) := by
  cases o with
  | now => exact ⟨(0 : ℕ)⟩
  | uuid4 => exact ⟨(0 : UUID)⟩
  | selectByIdempotencyKey => exact ⟨.ok none⟩
  | insert => exact ⟨.ok (0 : ℕ)⟩
  | selectForUpdate => exact ⟨.ok none⟩
  | selectBatchForUpdate => exact ⟨.ok []⟩
  | gatewayReturn => exact ⟨.ok ⟨.succeeded, none, rfl, by decide⟩⟩
  | httpResponse => exact ⟨.ok (200 : ℕ)⟩
  | close => exact ⟨()⟩
  | gatewayCall => exact ⟨()⟩
  | httpPost => exact ⟨()⟩
  | _ => exact ⟨.ok ()⟩

/-- The phases of a thread that was started for `k`. -/
def Kind.Suits : Kind → Phase → Prop
  | .create c, φ => ∃ ψ, φ = .api c ψ
  | .relay, φ => ∃ ψ, φ = .relay ψ
  | .deliver e, φ => ∃ ψ, φ = .consumer e.message ψ

/-- Only requests are in the phases of a request. -/
theorem Kind.Suits.create {k : Kind} {c : CreatePaymentCommand} {ψ : ApiPhase}
    (h : k.Suits (.api c ψ)) : k = .create c := by
  cases k with
  | create c' =>
    obtain ⟨ψ', heq⟩ := h
    cases heq
    rfl
  | relay =>
    obtain ⟨ψ', heq⟩ := h
    cases heq
  | deliver e =>
    obtain ⟨ψ', heq⟩ := h
    cases heq

theorem Move.suits {φ φ' : Phase} {o : Op} {r : Res o} (h : Move R cfg φ o r φ') {k : Kind}
    (hk : k.Suits φ') : k.Suits φ := by
  cases k with
  | create c =>
    obtain ⟨ψ, rfl⟩ := hk
    cases h
    exact ⟨_, rfl⟩
  | relay =>
    obtain ⟨ψ, rfl⟩ := hk
    cases h
    exact ⟨_, rfl⟩
  | deliver e =>
    obtain ⟨ψ, rfl⟩ := hk
    cases h
    exact ⟨_, rfl⟩

theorem Ended.suits {k : Kind} {out : Out k} {φ : Phase} (h : Ended R k out φ) : k.Suits φ := by
  cases k with
  | create c =>
    obtain ⟨ψ, rfl, -⟩ := h
    exact ⟨ψ, rfl⟩
  | relay => exact ⟨_, h⟩
  | deliver e => exact h.elim (fun h => ⟨_, h⟩) fun h => ⟨_, h⟩

/-- A thread that was started for a request is in a phase of that request. -/
theorem suits_of_tracks {s : (service R cfg).State} {v : View R cfg}
    (h : (serviceSpec R cfg).Tracks s v) {t : ℕ} {k : Kind} {p : Prog Op Res (Out k)}
    (ht : s.threads t = .running k p) : ∃ φ, v.status t = .active φ ∧ k.Suits φ := by
  have htr := h.thread t
  rw [ht] at htr
  generalize hst : v.status t = y at htr
  cases htr with
  | @running _ _ φ hp =>
    exact ⟨φ, rfl, Prog.of_wp k.Suits (fun h hk => Move.suits h hk) (fun _ _ => Ended.suits) hp⟩

/-- Thread `t` was started for `k`. -/
def Started (s : (service R cfg).State) (t : ℕ) (k : Kind) : Prop :=
  (∃ p, s.threads t = .running k p) ∨ s.threads t = .crashed k

theorem Started.step {s s' : (service R cfg).State} (hs : (service R cfg).Reachable s)
    (hst : (service R cfg).Step s s') {t : ℕ} {k : Kind} (h : Started s t k) : Started s' t k := by
  have hother : ∀ {t' : ℕ} {x : (service R cfg).Thread}, t ≠ t' →
      (∃ p, Function.update s.threads t' x t = .running k p) ∨
        Function.update s.threads t' x t = .crashed k := fun hne => by
    rwa [Function.update_of_ne hne]
  cases hst with
  | start _ =>
    refine hother fun heq => ?_
    have hnone := Machine.Reachable.unborn hs heq.ge
    rcases h with ⟨p, hp⟩ | hp
    · cases hnone.symm.trans hp
    · cases hnone.symm.trans hp
  | @exec t' k' o c r w ht _ =>
    by_cases heq : t = t'
    · subst heq
      rcases h with ⟨p, hp⟩ | hp
      · cases ht.symm.trans hp
        exact .inl ⟨_, Function.update_self ..⟩
      · cases ht.symm.trans hp
    · exact hother heq
  | @crash t' k' p' w ht _ =>
    by_cases heq : t = t'
    · subst heq
      rcases h with ⟨p, hp⟩ | hp
      · cases ht.symm.trans hp
        exact .inr (Function.update_self ..)
      · cases ht.symm.trans hp
    · exact hother heq
  | env _ => exact h

/-! ## What was asked for -/

variable (R) in
/-- What the request `c` says about the payment. -/
structure Payment.AskedBy (p : Payment) (c : CreatePaymentCommand) : Prop where
  idempotencyKey : p.idempotencyKey = c.idempotencyKey
  fingerprint : c.fingerprint R = .ok p.requestFingerprint
  amount : p.amount = c.amount
  currency : p.currency = c.currency
  description : p.description = c.description
  metadata : p.paymentMetadata = .obj c.metadata
  webhookUrl : p.webhookUrl = c.webhookUrl

theorem askedBy_newPayment {c : CreatePaymentCommand} {f : Str} (hf : c.fingerprint R = .ok f)
    (id : UUID) (now : Time) : ((newPayment c f id).row now).AskedBy R c :=
  ⟨rfl, hf, rfl, rfl, rfl, rfl, rfl⟩

theorem Payment.LifeCycle.askedBy {p p' : Payment} (h : p.LifeCycle p') {c : CreatePaymentCommand}
    (hp : p.AskedBy R c) : p'.AskedBy R c where
  idempotencyKey := h.request.idempotencyKey.trans hp.idempotencyKey
  fingerprint := by
    rw [h.request.requestFingerprint]
    exact hp.fingerprint
  amount := h.request.amount.trans hp.amount
  currency := h.request.currency.trans hp.currency
  description := h.request.description.trans hp.description
  metadata := h.request.paymentMetadata.trans hp.metadata
  webhookUrl := h.request.webhookUrl.trans hp.webhookUrl

/-- A committed payment was there before a step, or a request has committed it. -/
theorem step_rows {s s' : (service R cfg).State} (hs : (service R cfg).Reachable s)
    (hst : (service R cfg).Step s s') {id : UUID} {p' : Payment}
    (hp' : s'.world.payments.rows id = some p') :
    (∃ p, s.world.payments.rows id = some p ∧ p.LifeCycle p') ∨
      ∃ t c, Started s t (.create c) ∧ p'.AskedBy R c := by
  cases hst with
  | start h =>
    rw [(Start.same h).2.1] at hp'
    exact .inl ⟨p', hp', .refl p'⟩
  | crash _ h =>
    obtain rfl := h
    exact .inl ⟨p', hp', .refl p'⟩
  | env h =>
    rw [(Environment.same h).2.1] at hp'
    exact .inl ⟨p', hp', .refl p'⟩
  | @exec t k o _ r w ht hx =>
    rcases hx.rows with ⟨hrows, -⟩ | ⟨-, hcommit, -⟩
    · exact .inl ⟨p', hrows ▸ hp', .refl p'⟩
    · obtain ⟨v, hv, htr⟩ := Machine.Spec.tracked (serviceSpec R cfg) hs
      obtain ⟨φ, hst, hsuits⟩ := suits_of_tracks htr ht
      have hk := knows hv hst
      rw [hcommit, ← htr.world] at hp'
      rcases hk.commit_payment hp' with hold | ⟨c, f, messageId, occurredAt, now, rfl, rfl⟩
      · exact .inl (htr.world ▸ hold)
      · have hf : c.fingerprint R = .ok f := (ApiPhase.Knows.facts hk).1
        obtain rfl := hsuits.create
        exact .inr ⟨t, c, .inl ⟨_, ht⟩, askedBy_newPayment hf id now⟩

/-- **Every payment was asked for.** -/
theorem asked {s : (service R cfg).State} (h : (service R cfg).Reachable s) {id : UUID} {p : Payment}
    (hp : s.world.payments.rows id = some p) :
    ∃ t c, Started s t (.create c) ∧ p.AskedBy R c := by
  refine Machine.Reachable.induction (I := fun s : (service R cfg).State =>
    ∀ id p, s.world.payments.rows id = some p → ∃ t c, Started s t (.create c) ∧ p.AskedBy R c)
    ?_ ?_ h id p hp
  · rintro s ⟨⟨clock, hw⟩, -⟩ id p hp
    rw [hw] at hp
    cases hp
  · intro s s' hs ih hst id p' hp'
    rcases step_rows hs hst hp' with ⟨p, hp, hl⟩ | ⟨t, c, ht, hasked⟩
    · obtain ⟨t, c, ht, hasked⟩ := ih id p hp
      exact ⟨t, c, ht.step hs hst, hl.askedBy hasked⟩
    · exact ⟨t, c, ht.step hs hst, hasked⟩

/-! ## What is done -/

variable {v : View R cfg}

/-- The gateway is asked to charge what the row says. -/
theorem called_charge (h : (serviceSpec R cfg).Reachable v) {charge : Charge}
    (hc : .called charge ∈ v.world.journal.log) :
    ∃ p, v.world.payments.rows charge.paymentId = some p ∧ charge = p.charge := by
  have hstep : ∀ {v v' : View R cfg}, (serviceSpec R cfg).Reachable v →
      (serviceSpec R cfg).Step v v' →
      (∃ p, v.world.payments.rows charge.paymentId = some p ∧ charge = p.charge) →
      ∃ p, v'.world.payments.rows charge.paymentId = some p ∧ charge = p.charge := by
    rintro v v' hv hs ⟨p, hp, hcharge⟩
    obtain ⟨p', hp', hl⟩ := step_payments hv hs hp
    refine ⟨p', hp', ?_⟩
    rw [hcharge, Payment.charge, Payment.charge, hl.request.id, hl.request.amount,
      hl.request.currency]
  refine mem_log (P := fun v e => e = .called charge → ∃ p,
    v.world.payments.rows charge.paymentId = some p ∧ charge = p.charge) ?_ ?_ h hc rfl
  · rintro v v' _ hv hs hlog rfl
    obtain ⟨t, p, hp, -, rfl⟩ := (recorded hs hlog).called hv
    exact hstep hv hs ⟨p, hp.row, rfl⟩
  · exact fun hv hs ih he => hstep hv hs (ih he)

/-- A client is notified at the address in the row, of what the row says. -/
theorem posted_url (h : (serviceSpec R cfg).Reachable v) {q : WebhookRequest}
    (hq : .posted q ∈ v.world.journal.log) :
    ∃ p, v.world.payments.rows q.payload.paymentId = some p ∧ p.webhookUrl = some q.url ∧
      q = webhookRequest R cfg p := by
  have hstep : ∀ {v v' : View R cfg}, (serviceSpec R cfg).Reachable v →
      (serviceSpec R cfg).Step v v' →
      (∃ p, v.world.payments.rows q.payload.paymentId = some p ∧ p.webhookUrl = some q.url) →
      ∃ p, v'.world.payments.rows q.payload.paymentId = some p ∧ p.webhookUrl = some q.url := by
    rintro v v' hv hs ⟨p, hp, hurl⟩
    obtain ⟨p', hp', hl⟩ := step_payments hv hs hp
    exact ⟨p', hp', hl.request.webhookUrl.trans hurl⟩
  obtain ⟨p', hp', hurl⟩ : ∃ p, v.world.payments.rows q.payload.paymentId = some p ∧
      p.webhookUrl = some q.url := by
    refine mem_log (P := fun v e => e = .posted q → ∃ p,
      v.world.payments.rows q.payload.paymentId = some p ∧ p.webhookUrl = some q.url) ?_ ?_ h hq rfl
    · rintro v v' _ hv hs hlog rfl
      obtain ⟨t, p, hp, hsend, rfl⟩ := (recorded hs hlog).posted hv
      refine hstep hv hs ⟨p, hp.row, ?_⟩
      obtain ⟨url, hurl, -⟩ := (Option.any_eq_true _ _).mp hsend.wantsWebhook
      rw [hurl]
      simp [webhookRequest, hurl]
    · exact fun hv hs ih he => hstep hv hs (ih he)
  obtain ⟨p, hp, -, hreq⟩ := posted_request h hq
  obtain rfl := Option.some.inj (hp'.symm.trans hp)
  exact ⟨p', hp, hurl, hreq⟩

/-! ## From the request to the charge -/

variable (R cfg) in
/-- **What is charged and told about a payment is what its row says**: the whole order to the gateway
and the whole notification are those of the row. -/
structure Honoured (p : Payment) (log : List Event) : Prop where
  charged : ∀ charge, .called charge ∈ log → charge.paymentId = p.id → charge = p.charge
  notified : ∀ q, .posted q ∈ log → q.payload.paymentId = p.id →
    p.webhookUrl = some q.url ∧ q = webhookRequest R cfg p

theorem honoured (h : (serviceSpec R cfg).Reachable v) {p : Payment}
    (hp : v.world.payments.rows p.id = some p) : Honoured R cfg p v.world.journal.log where
  charged charge hc hid := by
    obtain ⟨p', hp', hcharge⟩ := called_charge h hc
    rw [hid] at hp'
    obtain rfl := Option.some.inj (hp.symm.trans hp')
    exact hcharge
  notified q hq hid := by
    obtain ⟨p', hp', hurl, hreq⟩ := posted_url h hq
    rw [hid] at hp'
    obtain rfl := Option.some.inj (hp.symm.trans hp')
    exact ⟨hurl, hreq⟩

section Front

variable {apiKey : Str} {F : Framework} {s : Front R cfg}

/-- A request is accepted because the ledger gave it a payment. -/
theorem Justified.accepted {L : Ledger} {l : List (Entry R)} {i : ℕ} {r : HttpRequest} {w : Work}
    {a : HttpResponse} (h : Justified apiKey F l i r w a)
    (hserves : (archive R).Serves (archive R).empty (l.map Entry.served) L)
    (hok : a.statusCode = 202) :
    ∃ (c : CreatePaymentCommand) (p : Payment) (replayed : Bool),
      Admitted apiKey F r (.create c) ∧ a = createPaymentResponse R (.ok ⟨p, replayed⟩) ∧
      c.fingerprint R = .ok p.requestFingerprint ∧ (replayed = false → p.AskedBy R c) ∧
      ∃ p', L p.idempotencyKey = some p' ∧ p.LifeCycle p' := by
  cases h with
  | refused h => exact absurd h.statusCode (by omega)
  | @replied c t reply hadm hmem =>
    cases reply with
    | result result =>
      have hmem' := List.mem_map_of_mem (f := Entry.served) hmem
      have hpresent := present_of_serves hserves Ledger.proper_empty hmem'
        (.result result.replayed)
      obtain ⟨_, _, L₁, L₂, -, -, hserve, -⟩ := hserves.moment hmem'
      have hserve : Consult R L₁ (.create c) (.reply (.result result)) L₂ := hserve
      cases hserve with
      | create hserve =>
        cases hserve with
        | created hf _ _ now =>
          exact ⟨c, _, false, hadm, rfl, hf, fun _ => askedBy_newPayment hf _ now, hpresent⟩
        | replayed hf _ => exact ⟨c, _, true, hadm, rfl, hf, fun h => absurd h (by decide), hpresent⟩
    | conflict =>
      have hne : 409 = 202 := hok
      omega
  | raised =>
    have hne : 500 = 202 := hok
    omega
  | @read paymentId payment hadm hmem =>
    cases payment with
    | none =>
      have hne : 404 = 202 := hok
      omega
    | some p =>
      have hne : 200 = 202 := hok
      omega
  | failed =>
    have hne : 500 = 202 := hok
    omega

/-- **What the API has accepted is what is done.** A response of acceptance tells of a payment for
the body that was sent, be it new or not; and from then on the payment is there, the gateway is
asked for nothing else under its `id`, and nothing else is told about it than its row says. -/
theorem accepted_honoured (h : Front.Reachable apiKey F s) {i : ℕ} {r : HttpRequest} {w : Work}
    {a : HttpResponse} (hi : s.exchanges i = .answered r w a) (hok : a.statusCode = 202) :
    ∃ (c : CreatePaymentCommand) (p : Payment) (replayed : Bool),
      Admitted apiKey F r (.create c) ∧ a = createPaymentResponse R (.ok ⟨p, replayed⟩) ∧
      c.fingerprint R = .ok p.requestFingerprint ∧ (replayed = false → p.AskedBy R c) ∧
      ∀ s', Front.Run apiKey F s s' → ∃ p', s'.base.world.payments.rows p.id = some p' ∧
        p.LifeCycle p' ∧ Honoured R cfg p' s'.base.world.journal.log := by
  obtain ⟨v, L, l, hv, hserves, hrec⟩ := exists_chronicled h
  obtain ⟨c, p, replayed, hadm, ha, hf, hasked, p', hp, hl⟩ :=
    (hrec.chronicle.answered i r w a hi).accepted hserves hok
  refine ⟨c, p, replayed, hadm, ha, hf, hasked, fun s' hr => ?_⟩
  obtain ⟨v', L', l', hv', hserves', hrec'⟩ := hrec.run hv hr
  obtain ⟨p'', hp'', hl'⟩ := keeps_of_serves hserves' _ p' hp
  have hrow := ((hrec'.chronicle.shows _ _).mp hp'').1
  have hlife := hl.trans hl'
  refine ⟨p'', hlife.request.id ▸ hrow, hlife, ?_⟩
  rw [← hrec'.tracks.world] at hrow ⊢
  exact honoured hv' hrow

/-- The request for the book is accepted, and then the book is paid for, as its row says. -/
theorem accepted_honoured_book : ∃ (s s' : Front .transparent default) (p p' : Payment)
    (charge : Charge) (replayed : Bool) (w : Work),
    Front.Run sessionKey plainFramework s s' ∧ s.exchanges 0 = .answered postBook w
      (createPaymentResponse .transparent (.ok ⟨p, replayed⟩)) ∧
    p.LifeCycle p' ∧ .called charge ∈ s'.base.world.journal.log ∧ charge = p'.charge := by
  obtain ⟨s, w, result, f, h, hi, -, hidle, hw⟩ := exists_answered
  have hok : (createPaymentResponse .transparent (.ok result)).statusCode = 202 := rfl
  obtain ⟨c, p, replayed, -, ha, -, -, hrun⟩ := accepted_honoured h hi hok
  obtain ⟨b, p₀, -, hr, hp₀, hpending, -, -, -, -, hdone⟩ := exists_done hidle hw
  have hrun' : Front.Run sessionKey plainFramework s { s with base := b } := Front.run_inner hr
  obtain ⟨p', -, hl, hhonoured⟩ := hrun _ hrun'
  -- there is one payment only
  have hid : p₀.id = p'.id := by
    obtain ⟨p₁, hp₁, -⟩ := hrun s .refl
    rw [hw] at hp₁ hp₀
    rw [hl.request.id, (World.rows_accepting.mp hp₁).1, (World.rows_accepting.mp hp₀).1]
  have hcalled := hdone.charged hpending
  exact ⟨s, _, p, p', p₀.charge, replayed, w, hrun', hi.trans (by rw [ha]), hl, hcalled,
    hhonoured.charged _ hcalled hid⟩

end Front

end Payments
