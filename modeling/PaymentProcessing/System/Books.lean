import PaymentProcessing.System.Trace

/-!
# The books

What is committed agrees with what the committed transactions did: a payment is final if one of
them got a result of the gateway, it counts the transactions that sent a notification, and so on
(`PaymentBooks`); an outbox message is published if one of them got a confirmation, and counts
those that failed (`OutboxBooks`). Every commit enters its transaction on both sides.
-/

namespace Payments

open Effects Python Store

variable {R : Runtime} {cfg : Settings} {w w' : World} {t : ℕ} {o : Op} {r : Res o}

/-! ## Commits -/

/-- The phases in which a transaction can be committed. -/
inductive Committing : Phase → Prop
  | staged (c : CreatePaymentCommand) (fingerprint : Str) (id messageId : UUID)
      (occurredAt now : Time) : Committing (.api c (.staged fingerprint id messageId occurredAt now))
  | flushed (now : Time) (done : List Mark) (todo : List OutboxMessage) :
      Committing (.relay (.flushed now done todo))
  | finalFlushed (m : Message) (p : Payment) (result : GatewayResult) (now : Time) :
      Committing (.consumer m (.finalFlushed p result now))
  | reopened (m : Message) (p : Payment) : Committing (.consumer m (.reopened p))
  | deliveredFlushed (m : Message) (p : Payment) (status : ℕ) (now : Time) :
      Committing (.consumer m (.deliveredFlushed p status now))
  | undeliveredFlushed (m : Message) (p : Payment) (answer : Except HttpError ℕ) (error : Exn) :
      Committing (.consumer m (.undeliveredFlushed p answer error))

theorem Move.committing {φ φ' : Phase} {r : Res .commit} (h : Move R cfg φ .commit r φ') :
    Committing φ := by
  cases h with
  | api h => cases h <;> constructor
  | relay h => cases h; constructor
  | consumer h => cases h <;> constructor

/-- **Committed rows and transactions change by commits only.** -/
theorem Exec.committed_cases (h : Exec cfg t o r w w') :
    (w'.payments.rows = w.payments.rows ∧ w'.outbox.rows = w.outbox.rows ∧
      w'.journal.committed = w.journal.committed) ∨
    (o = .commit ∧ w'.payments = w.payments.commit t ∧ w'.outbox = w.outbox.commit t ∧
      ∃ tr, w'.journal.committed = tr :: w.journal.committed ∧
        (tr = w.journal.current t ∨ tr = .commitLost t :: w.journal.current t)) := by
  cases h with
  | committed => exact .inr ⟨rfl, rfl, rfl, _, rfl, .inl rfl⟩
  | commitLost => exact .inr ⟨rfl, rfl, rfl, _, rfl, .inr (by simp)⟩
  | _ => exact .inl ⟨rfl, rfl, rfl⟩

/-- A property of the committed rows and transactions that commits preserve is an invariant. -/
theorem committed_invariant {P : PaymentTable → OutboxTable → List (List Event) → Prop}
    (hrows : ∀ {T T' : PaymentTable} {U U' : OutboxTable} {l}, T'.rows = T.rows → U'.rows = U.rows →
      P T U l → P T' U' l)
    (hempty : P Table.empty Table.empty [])
    (hcommit : ∀ {v : View R cfg} {t : ℕ} {φ : Phase} {tr : List Event},
      (serviceSpec R cfg).Reachable v → P v.world.payments v.world.outbox v.world.journal.committed →
      v.status t = .active φ → Committing φ →
      (tr = v.world.journal.current t ∨ tr = .commitLost t :: v.world.journal.current t) →
      P (v.world.payments.commit t) (v.world.outbox.commit t) (tr :: v.world.journal.committed))
    {v : View R cfg} (h : (serviceSpec R cfg).Reachable v) :
    P v.world.payments v.world.outbox v.world.journal.committed := by
  refine h.invariant
    (I := fun v : View R cfg => P v.world.payments v.world.outbox v.world.journal.committed) ?_ ?_
  · rintro v ⟨⟨clock, hw⟩, -⟩
    rw [hw]
    exact hempty
  · intro v v' hv hP hs
    rcases hs.acts hv with ⟨t, y, ha, -⟩ | ⟨he, -⟩
    · generalize hw : v'.world = w' at ha ⊢
      cases ha with
      | start hst _ =>
        obtain ⟨-, hp, ho, hj⟩ := Start.same hst
        rw [hp, ho, hj]
        exact hP
      | exec ht hm hx =>
        rcases Exec.committed_cases hx with ⟨hp, ho, hc⟩ | ⟨rfl, hp, ho, tr, hc, htr⟩
        · rw [hc]
          exact hrows hp ho hP
        · rw [hc, hp, ho]
          exact hcommit hv hP ht hm.committing htr
      | crash ht hw' =>
        obtain rfl : w' = World.crash v.world t := hw'
        change P (v.world.payments.rollback t) (v.world.outbox.rollback t) v.world.journal.committed
        exact hrows (T := v.world.payments) (U := v.world.outbox) rfl rfl hP
    · obtain ⟨-, hp, ho, hj⟩ := Environment.same he
      rw [hp, ho, hj]
      exact hP

/-! ## Counting in a transaction -/

section Counting

variable {f : Event → Bool} {tr : List Event}

/-- Does a transaction have an event of a kind? -/
def entered (f : Event → Bool) (tr : List Event) : ℕ := if tr.any f then 1 else 0

theorem countP_cons_entered (l : List (List Event)) :
    (tr :: l).countP (fun tr => tr.any f) = l.countP (fun tr => tr.any f) + entered f tr := by
  rw [List.countP_cons]
  rfl

theorem entered_eq_zero (h : ∀ e ∈ tr, f e = false) : entered f tr = 0 := by
  simpa [entered] using h

/-- Events nobody counts. -/
def Uncounted (f : Event → Bool) : Prop :=
  (∀ now, f (.read now) = false) ∧ ∀ t, f (.commitLost t) = false

theorem entered_committed (hf : Uncounted f) {tr tr' : List Event}
    (h : tr' = tr ∨ tr' = .commitLost t :: tr) : entered f tr' = entered f tr := by
  rcases h with rfl | rfl
  · rfl
  · simp [entered, hf.2]

theorem uncounted_charges (id : UUID) : Uncounted (Event.charges id) := ⟨fun _ => rfl, fun _ => rfl⟩
theorem uncounted_posts (id : UUID) : Uncounted (Event.posts id) := ⟨fun _ => rfl, fun _ => rfl⟩
theorem uncounted_notifies (id : UUID) : Uncounted (Event.notifies id) := ⟨fun _ => rfl, fun _ => rfl⟩
theorem uncounted_confirms (id : UUID) : Uncounted (Event.confirms id) := ⟨fun _ => rfl, fun _ => rfl⟩
theorem uncounted_publishes (id : UUID) : Uncounted (Event.publishes id) :=
  ⟨fun _ => rfl, fun _ => rfl⟩
theorem uncounted_fails (id : UUID) : Uncounted (Event.fails id) := ⟨fun _ => rfl, fun _ => rfl⟩

/-- A request asks nobody. -/
theorem entered_staged {tr : List Event} (hf : Uncounted f) (hi : ∀ t id, f (.inserted t id) = false)
    {t : ℕ} {id : UUID} (h : ∃ tr', Reading tr' ∧ tr = .inserted t id :: tr') : entered f tr = 0 := by
  obtain ⟨tr', hr, rfl⟩ := h
  refine entered_eq_zero fun e he => ?_
  rcases List.mem_cons.mp he with rfl | he
  · exact hi t id
  · obtain ⟨now, rfl⟩ := hr e he
    exact hf.1 now

/-- The relay only publishes. -/
theorem entered_relaying {tr : List Event} (hf : Uncounted f) (hp : ∀ p o, f (.published p o) = false)
    (h : Relaying R tr) : entered f tr = 0 := by
  refine entered_eq_zero fun e he => ?_
  rcases h e he with ⟨now, rfl⟩ | ⟨row, o, rfl⟩
  · exact hf.1 now
  · exact hp _ o

end Counting

/-! ## Payments -/

/-- What a committed payment says was done for it. -/
structure PaymentBooks (id : UUID) (T : PaymentTable) (committed : List (List Event)) : Prop where
  charges : committed.countP (fun tr => tr.any (Event.charges id)) =
    (T.rows id).elim 0 fun p => if p.status.isFinal then 1 else 0
  posts : committed.countP (fun tr => tr.any (Event.posts id)) =
    (T.rows id).elim 0 Payment.webhookAttempts
  notifies : committed.countP (fun tr => tr.any (Event.notifies id)) =
    (T.rows id).elim 0 fun p => if p.webhookDeliveredAt.isSome then 1 else 0

/-- A transaction and what it does to a payment. -/
structure PaymentEntry (id : UUID) (tr : List Event) (p p' : Option Payment) : Prop where
  charges : (p.elim 0 fun p => if p.status.isFinal then 1 else 0) + entered (Event.charges id) tr =
    p'.elim 0 fun p => if p.status.isFinal then 1 else 0
  posts : p.elim 0 Payment.webhookAttempts + entered (Event.posts id) tr =
    p'.elim 0 Payment.webhookAttempts
  notifies : (p.elim 0 fun p => if p.webhookDeliveredAt.isSome then 1 else 0) +
      entered (Event.notifies id) tr =
    p'.elim 0 fun p => if p.webhookDeliveredAt.isSome then 1 else 0

theorem PaymentBooks.enter {id : UUID} {T T' : PaymentTable} {l : List (List Event)}
    (h : PaymentBooks id T l) {tr : List Event} (he : PaymentEntry id tr (T.rows id) (T'.rows id)) :
    PaymentBooks id T' (tr :: l) where
  charges := by rw [countP_cons_entered, h.charges, he.charges]
  posts := by rw [countP_cons_entered, h.posts, he.posts]
  notifies := by rw [countP_cons_entered, h.notifies, he.notifies]

/-- A transaction that did nothing for a payment. -/
theorem PaymentEntry.refl {id : UUID} {tr : List Event} {p : Option Payment}
    (hc : entered (Event.charges id) tr = 0) (hp : entered (Event.posts id) tr = 0)
    (hn : entered (Event.notifies id) tr = 0) : PaymentEntry id tr p p :=
  ⟨by rw [hc, Nat.add_zero], by rw [hp, Nat.add_zero], by rw [hn, Nat.add_zero]⟩

/-- The row of a payment after a commit that wrote one payment. -/
theorem rows_commit_written {T : PaymentTable} {t : ℕ} {p p' : Payment} (hw : T.Wrote t [p'])
    (hid : p'.id = p.id) (hrow : T.rows p.id = some p) (id : UUID) :
    (p.id = id ∧ T.rows id = some p ∧ (T.commit t).rows id = some p') ∨
      (p.id ≠ id ∧ (T.commit t).rows id = T.rows id) := by
  rw [hw.rows_commit]
  by_cases h : p.id = id
  · subst h
    exact .inl ⟨rfl, hrow, by simp [hid]⟩
  · exact .inr ⟨h, by simp [hid, h]⟩

/-- **Every commit is entered in the books of every payment.** -/
theorem Committing.paymentEntry {φ : Phase} (hc : Committing φ) (hk : Knows R w t φ)
    (htr : φ.Traced R cfg t (w.journal.current t)) {tr : List Event}
    (heq : tr = w.journal.current t ∨ tr = .commitLost t :: w.journal.current t) (id : UUID) :
    PaymentEntry id tr (w.payments.rows id) ((w.payments.commit t).rows id) := by
  have hcharges := entered_committed (uncounted_charges id) heq
  have hposts := entered_committed (uncounted_posts id) heq
  have hnotifies := entered_committed (uncounted_notifies id) heq
  cases hc with
  | staged c fingerprint pid messageId occurredAt now =>
    have hk : ApiPhase.Knows R c w t (.staged fingerprint pid messageId occurredAt now) := hk
    rw [entered_staged (uncounted_charges id) (fun _ _ => rfl) htr] at hcharges
    rw [entered_staged (uncounted_posts id) (fun _ _ => rfl) htr] at hposts
    rw [entered_staged (uncounted_notifies id) (fun _ _ => rfl) htr] at hnotifies
    rw [hk.payments.rows_commit]
    by_cases hid : pid = id
    · subst hid
      rw [hk.facts.2.1]
      constructor <;>
        simp [hcharges, hposts, hnotifies, ApiPhase.writtenPayments, NewPayment.row, newPayment,
          PaymentStatus.isFinal]
    · have hnew : ((newPayment c fingerprint pid).row now).id ≠ id := hid
      simp only [ApiPhase.writtenPayments, List.find?_cons, hnew, decide_false, List.find?_nil,
        Option.none_or]
      exact .refl hcharges hposts hnotifies
  | flushed now done todo =>
    have hk : RelayPhase.Knows R w t (.flushed now done todo) := hk
    have hr : Relaying R (w.journal.current t) := Noted.relaying htr
    rw [entered_relaying (uncounted_charges id) (fun _ _ => rfl) hr] at hcharges
    rw [entered_relaying (uncounted_posts id) (fun _ _ => rfl) hr] at hposts
    rw [entered_relaying (uncounted_notifies id) (fun _ _ => rfl) hr] at hnotifies
    rw [hk.payments.rows_commit, List.find?_nil, Option.none_or]
    exact .refl hcharges hposts hnotifies
  | finalFlushed m p result now =>
    have hk : ConsumerPhase.Knows R m w t (.finalFlushed p result now) := hk
    have hp : p.status = .pending := hk.facts
    have htr : w.journal.current t = _ := htr
    rw [htr] at hcharges hposts hnotifies
    replace hcharges : entered (Event.charges id) tr = if p.id = id then 1 else 0 := by
      rw [hcharges]
      simp [entered, Event.charges, Payment.charge]
    replace hposts : entered (Event.posts id) tr = 0 :=
      hposts.trans (entered_eq_zero (by simp [Event.posts]))
    replace hnotifies : entered (Event.notifies id) tr = 0 :=
      hnotifies.trans (entered_eq_zero (by simp [Event.notifies]))
    rcases rows_commit_written (p := p) hk.payments rfl (hk.held p rfl).row id with
      ⟨hid, hrow, hrow'⟩ | ⟨hid, hrow'⟩
    · have hfinal : (p.finalized result now).status.isFinal := result.isFinal
      have hpending : p.status.isFinal = false := by rw [hp]; rfl
      rw [hrow, hrow']
      exact ⟨by simp [hcharges, hid, hfinal, hpending], by simp [hposts, Payment.finalized],
        by simp [hnotifies, Payment.finalized]⟩
    · rw [hrow']
      exact .refl (by rw [hcharges, if_neg hid]) hposts hnotifies
  | reopened m p =>
    have hk : ConsumerPhase.Knows R m w t (.reopened p) := hk
    have htr : w.journal.current t = [] := htr
    rw [htr] at hcharges hposts hnotifies
    rw [hk.payments.rows_commit]
    exact .refl hcharges hposts hnotifies
  | deliveredFlushed m p status now =>
    have hk : ConsumerPhase.Knows R m w t (.deliveredFlushed p status now) := hk
    obtain ⟨hsend, hok⟩ := hk.facts
    have hstatus := classify_ok_iff.mp hok
    have htr : w.journal.current t = _ := htr
    rw [htr] at hcharges hposts hnotifies
    replace hcharges : entered (Event.charges id) tr = 0 :=
      hcharges.trans (entered_eq_zero (by simp [Event.charges]))
    replace hposts : entered (Event.posts id) tr = if p.id = id then 1 else 0 := by
      rw [hposts]
      simp [entered, Event.posts, webhookRequest, buildPayload]
    replace hnotifies : entered (Event.notifies id) tr = if p.id = id then 1 else 0 := by
      rw [hnotifies]
      simp [entered, Event.notifies, webhookRequest, buildPayload, hstatus]
    rcases rows_commit_written (p := p) hk.payments rfl (hk.held p rfl).row id with
      ⟨hid, hrow, hrow'⟩ | ⟨hid, hrow'⟩
    · rw [hrow, hrow']
      exact ⟨by simp [hcharges, Payment.delivered], by simp [hposts, hid, Payment.delivered],
        by simp [hnotifies, hid, Payment.delivered, hsend.undelivered]⟩
    · rw [hrow']
      exact .refl hcharges (by rw [hposts, if_neg hid]) (by rw [hnotifies, if_neg hid])
  | undeliveredFlushed m p answer error =>
    have hk : ConsumerPhase.Knows R m w t (.undeliveredFlushed p answer error) := hk
    obtain ⟨hsend, hfail⟩ := hk.facts
    have htr : w.journal.current t = _ := htr
    rw [htr] at hcharges hposts hnotifies
    replace hcharges : entered (Event.charges id) tr = 0 := by
      refine hcharges.trans (entered_eq_zero fun e he => ?_)
      rcases fruitless_answers hfail _ e he with ⟨c, rfl⟩ | ⟨q, rfl⟩ | ⟨q, s, rfl, -⟩ <;> rfl
    replace hposts : entered (Event.posts id) tr = if p.id = id then 1 else 0 := by
      rw [hposts]
      cases answer <;> simp [answers, entered, Event.posts, webhookRequest, buildPayload]
    replace hnotifies : entered (Event.notifies id) tr = 0 := by
      refine hnotifies.trans (entered_eq_zero fun e he => ?_)
      rcases fruitless_answers hfail _ e he with ⟨c, rfl⟩ | ⟨q, rfl⟩ | ⟨q, s, rfl, hs⟩
      · rfl
      · rfl
      · exact decide_eq_false fun h => hs h.2
    rcases rows_commit_written (p := p) hk.payments rfl (hk.held p rfl).row id with
      ⟨hid, hrow, hrow'⟩ | ⟨hid, hrow'⟩
    · rw [hrow, hrow']
      exact ⟨by simp [hcharges, Payment.undelivered], by simp [hposts, hid, Payment.undelivered],
        by simp [hnotifies, Payment.undelivered]⟩
    · rw [hrow']
      exact .refl hcharges (by rw [hposts, if_neg hid]) hnotifies

/-- **The books of a payment are right.** -/
theorem paymentBooks {v : View R cfg} (h : (serviceSpec R cfg).Reachable v) (id : UUID) :
    PaymentBooks id v.world.payments v.world.journal.committed := by
  refine committed_invariant (P := fun T _ l => PaymentBooks id T l) ?_ ?_ ?_ h
  · intro T T' _ _ l hT _ hb
    exact ⟨by rw [hT]; exact hb.charges, by rw [hT]; exact hb.posts, by rw [hT]; exact hb.notifies⟩
  · exact ⟨rfl, rfl, rfl⟩
  · intro v t φ tr hv hb ht hc heq
    exact hb.enter (hc.paymentEntry (knows hv ht) (traced hv ht) heq id)

/-! ## Outbox messages -/

/-- What a committed outbox message says was done with it. -/
structure OutboxBooks (id : UUID) (T : OutboxTable) (committed : List (List Event)) : Prop where
  confirms : committed.countP (fun tr => tr.any (Event.confirms id)) =
    (T.rows id).elim 0 fun r => if r.publishedAt.isSome then 1 else 0
  fails : committed.countP (fun tr => tr.any (Event.fails id)) =
    (T.rows id).elim 0 OutboxMessage.attempts

/-- A transaction and what it does to an outbox message. -/
structure OutboxEntry (id : UUID) (tr : List Event) (r r' : Option OutboxMessage) : Prop where
  confirms : (r.elim 0 fun r => if r.publishedAt.isSome then 1 else 0) +
      entered (Event.confirms id) tr =
    r'.elim 0 fun r => if r.publishedAt.isSome then 1 else 0
  fails : r.elim 0 OutboxMessage.attempts + entered (Event.fails id) tr =
    r'.elim 0 OutboxMessage.attempts

theorem OutboxBooks.enter {id : UUID} {T T' : OutboxTable} {l : List (List Event)}
    (h : OutboxBooks id T l) {tr : List Event} (he : OutboxEntry id tr (T.rows id) (T'.rows id)) :
    OutboxBooks id T' (tr :: l) where
  confirms := by rw [countP_cons_entered, h.confirms, he.confirms]
  fails := by rw [countP_cons_entered, h.fails, he.fails]

/-- A transaction that did nothing with an outbox message. -/
theorem OutboxEntry.refl {id : UUID} {tr : List Event} {r : Option OutboxMessage}
    (hc : entered (Event.confirms id) tr = 0) (hf : entered (Event.fails id) tr = 0) :
    OutboxEntry id tr r r :=
  ⟨by rw [hc, Nat.add_zero], by rw [hf, Nat.add_zero]⟩

/-- The note says that the row was published. -/
def Note.isPublished : Note → Bool
  | .published _ => true
  | .postponed _ _ => false

theorem Mark.publishedAt_result {m : Mark} (h : m.row.publishedAt = none) :
    (m.result R).publishedAt.isSome = m.note.isPublished := by
  obtain ⟨row, note⟩ := m
  cases note with
  | published now => rfl
  | postponed error now => simpa [Mark.result, OutboxMessage.postponed, Note.isPublished] using h

theorem Mark.attempts_result (m : Mark) :
    (m.result R).attempts = m.row.attempts + if m.note.isPublished then 0 else 1 := by
  obtain ⟨row, note⟩ := m
  cases note <;> rfl

/-- The notes of the relay are right: the confirmations. -/
theorem Noted.confirms {now : Time} {done : List Mark} {tr : List Event} (h : Noted R now done tr)
    (id : UUID) :
    tr.any (Event.confirms id) = done.any fun m => m.row.id = id ∧ m.note.isPublished := by
  induction h with
  | nil => rfl
  | published _ row τ ih =>
    simp [Event.confirms, copies_outboxPublication, ih, Note.isPublished, Bool.or_comm]
  | @postponed done tr _ row error τ o ho ih =>
    have : Event.confirms id (.published (outboxPublication R row) o) = false := by
      cases o <;> first | rfl | exact absurd rfl ho
    simp only [List.any_cons, this, ih, List.any_append, List.any_nil, Note.isPublished]
    simp [Event.confirms]

/-- The notes of the relay are right: the failures. -/
theorem Noted.fails {now : Time} {done : List Mark} {tr : List Event} (h : Noted R now done tr)
    (id : UUID) :
    tr.any (Event.fails id) = done.any fun m => m.row.id = id ∧ ¬m.note.isPublished := by
  induction h with
  | nil => rfl
  | published _ row τ ih => simp [Event.fails, ih, Note.isPublished]
  | @postponed done tr _ row error τ o ho ih =>
    have : Event.fails id (.published (outboxPublication R row) o) = decide (row.id = id) := by
      cases o <;> first | exact absurd rfl ho | exact copies_outboxPublication id row
    simp only [List.any_cons, this, ih, List.any_append, List.any_nil, Note.isPublished]
    simp [Event.fails, Bool.or_comm]

theorem RelayPhase.Knows.nodup_marks {now : Time} {done : List Mark} {todo : List OutboxMessage}
    (h : (RelayPhase.flushed now done todo).Knows R w t) : (done.map fun m => m.row.id).Nodup := by
  have hnodup := h.nodup
  rw [RelayPhase.held, List.map_append, List.map_map] at hnodup
  exact hnodup.of_append_left

/-- The one mark of a row of the batch. -/
theorem RelayPhase.Knows.any_marks {now : Time} {done : List Mark} {todo : List OutboxMessage}
    (h : (RelayPhase.flushed now done todo).Knows R w t) {m : Mark} (hm : m ∈ done)
    (f : Note → Bool) : (done.any fun m' => m'.row.id = m.row.id ∧ f m'.note) = f m.note := by
  rw [Bool.eq_iff_iff, List.any_eq_true]
  constructor
  · rintro ⟨m', hm', hf⟩
    obtain ⟨hid, hf⟩ := of_decide_eq_true hf
    rwa [List.inj_on_of_nodup_map h.nodup_marks hm' hm hid] at hf
  · exact fun hf => ⟨m, hm, decide_eq_true ⟨rfl, hf⟩⟩

/-- The row that is written for a mark. -/
theorem RelayPhase.Knows.find_written {now : Time} {done : List Mark} {todo : List OutboxMessage}
    (h : (RelayPhase.flushed now done todo).Knows R w t) {m : Mark} (hm : m ∈ done) :
    ((RelayPhase.flushed now done todo).written R).find? (fun r => r.id = m.row.id) =
      some (m.result R) := by
  cases hf : ((RelayPhase.flushed now done todo).written R).find? fun r => r.id = m.row.id with
  | none =>
    have := List.find?_eq_none.mp hf (m.result R) (List.mem_map_of_mem hm)
    simp [m.id_result] at this
  | some r' =>
    obtain ⟨m', hm', rfl⟩ := List.mem_map.mp (List.mem_of_find?_eq_some hf)
    have hid : m'.row.id = m.row.id := by
      have := List.find?_some hf
      rwa [decide_eq_true_eq, m'.id_result] at this
    rw [List.inj_on_of_nodup_map h.nodup_marks hm' hm hid]

/-- **Every commit is entered in the books of every outbox message.** -/
theorem Committing.outboxEntry {φ : Phase} (hc : Committing φ) (hk : Knows R w t φ)
    (htr : φ.Traced R cfg t (w.journal.current t)) {tr : List Event}
    (heq : tr = w.journal.current t ∨ tr = .commitLost t :: w.journal.current t) (id : UUID) :
    OutboxEntry id tr (w.outbox.rows id) ((w.outbox.commit t).rows id) := by
  have hconfirms := entered_committed (uncounted_confirms id) heq
  have hfails := entered_committed (uncounted_fails id) heq
  have hconsumer : ∀ {m φ'}, φ = .consumer m φ' →
      (∀ e ∈ w.journal.current t, ∀ p o, e ≠ .published p o) →
      OutboxEntry id tr (w.outbox.rows id) ((w.outbox.commit t).rows id) := by
    rintro m φ' rfl hno
    have hk : φ'.Knows R m w t := hk
    rw [hk.outbox.rows_commit, List.find?_nil, Option.none_or]
    refine .refl (hconfirms.trans (entered_eq_zero fun e he => ?_))
      (hfails.trans (entered_eq_zero fun e he => ?_))
    · cases e with
      | published p o => exact absurd rfl (hno _ he p o)
      | _ => rfl
    · cases e with
      | published p o => exact absurd rfl (hno _ he p o)
      | _ => rfl
  cases hc with
  | staged c fingerprint pid messageId occurredAt now =>
    have hk : ApiPhase.Knows R c w t (.staged fingerprint pid messageId occurredAt now) := hk
    rw [entered_staged (uncounted_confirms id) (fun _ _ => rfl) htr] at hconfirms
    rw [entered_staged (uncounted_fails id) (fun _ _ => rfl) htr] at hfails
    rw [hk.outbox.rows_commit]
    by_cases hid : messageId = id
    · subst hid
      rw [hk.facts.2.2]
      constructor <;>
        simp [hconfirms, hfails, ApiPhase.writtenMessages, NewOutboxMessage.row, newOutboxMessage]
    · have hnew : ((newOutboxMessage messageId pid occurredAt).row now).id ≠ id := hid
      simp only [ApiPhase.writtenMessages, List.find?_cons, hnew, decide_false, List.find?_nil,
        Option.none_or]
      exact .refl hconfirms hfails
  | flushed now done todo =>
    have hk : RelayPhase.Knows R w t (.flushed now done todo) := hk
    have hn : Noted R now done (w.journal.current t) := htr
    rw [entered, entered, hn.confirms] at hconfirms
    rw [entered, entered, hn.fails] at hfails
    rw [hk.outbox.rows_commit]
    cases hf : (RelayPhase.flushed now done todo).written R |>.find? fun r => r.id = id with
    | none =>
      have hno : ∀ m ∈ done, m.row.id ≠ id := fun m hm hid => by
        have := List.find?_eq_none.mp hf (m.result R) (List.mem_map_of_mem hm)
        simp [m.id_result, hid] at this
      rw [Option.none_or]
      refine .refl ?_ ?_
      · rw [entered, hconfirms, if_neg (by simpa using fun m hm hid => absurd hid (hno m hm))]
      · rw [entered, hfails, if_neg (by simpa using fun m hm hid => absurd hid (hno m hm))]
    | some r' =>
      obtain ⟨m, hm, rfl⟩ := List.mem_map.mp (List.mem_of_find?_eq_some hf)
      obtain rfl : m.row.id = id := by
        have := List.find?_some hf
        rwa [decide_eq_true_eq, m.id_result] at this
      have hheld : m.row ∈ (RelayPhase.flushed now done todo).held :=
        List.mem_append_left _ (List.mem_map_of_mem hm)
      have hnone := (hk.eligible _ hheld).1
      have hc := hk.any_marks hm Note.isPublished
      have hp : (done.any fun m' => m'.row.id = m.row.id ∧ ¬m'.note.isPublished) =
          !m.note.isPublished := by
        simpa using hk.any_marks hm fun n => !n.isPublished
      rw [hc] at hconfirms
      rw [hp] at hfails
      rw [(hk.held _ hheld).row, Option.some_or]
      refine ⟨?_, ?_⟩
      · change (if m.row.publishedAt.isSome then 1 else 0) + _ =
          if (m.result R).publishedAt.isSome then 1 else 0
        rw [m.publishedAt_result hnone, entered, hconfirms, hnone]
        exact Nat.zero_add _
      · change m.row.attempts + _ = (m.result R).attempts
        rw [m.attempts_result, entered, hfails]
        cases m.note.isPublished <;> rfl
  | finalFlushed m p result now =>
    have htr : w.journal.current t = _ := htr
    exact hconsumer rfl (by simp [htr])
  | reopened m p =>
    have htr : w.journal.current t = [] := htr
    exact hconsumer rfl (by simp [htr])
  | deliveredFlushed m p status now =>
    have htr : w.journal.current t = _ := htr
    exact hconsumer rfl (by simp [htr])
  | undeliveredFlushed m p answer error =>
    have htr : w.journal.current t = _ := htr
    exact hconsumer rfl (by cases answer <;> simp [htr, answers])

/-- **The books of an outbox message are right.** -/
theorem outboxBooks {v : View R cfg} (h : (serviceSpec R cfg).Reachable v) (id : UUID) :
    OutboxBooks id v.world.outbox v.world.journal.committed := by
  refine committed_invariant (P := fun _ T l => OutboxBooks id T l) ?_ ?_ ?_ h
  · intro _ _ T T' l _ hT hb
    exact ⟨by rw [hT]; exact hb.confirms, by rw [hT]; exact hb.fails⟩
  · exact ⟨rfl, rfl⟩
  · intro v t φ tr hv hb ht hc heq
    exact hb.enter (hc.outboxEntry (knows hv ht) (traced hv ht) heq id)

end Payments
