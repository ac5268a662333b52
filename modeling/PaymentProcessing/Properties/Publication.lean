import PaymentProcessing.System.History
import PaymentProcessing.System.Progress

/-!
# Publication of the outbox

Any number of relays publish the outbox. No row is in two of them at once, a row that is marked as
published has been accepted by the broker, and the copies the broker has accepted are accounted for
one by one (`outbox_publication`). A row whose publication failed is left alone until its delay is
over, by every relay (`outbox_backoff`).
-/

namespace Payments

open Effects Python Store Relation

variable {R : Runtime} {cfg : Settings} {v v' : View R cfg}

/-! ## Copies -/

/-- A copy that was accepted was confirmed, or the relay got an exception. -/
theorem countP_accepts (id : UUID) (l : List Event) : l.countP (Event.accepts id) =
    l.countP (Event.confirms id) + l.countP (Event.loses id) := by
  induction l with
  | nil => rfl
  | cons e l ih =>
    have hne : e.confirms id = true → e.loses id = false := by
      cases e with
      | published p o => cases o <;> simp [Event.confirms, Event.loses]
      | _ => simp [Event.confirms]
    simp only [List.countP_cons, ih, Event.accepts, Bool.or_eq_true]
    cases hc : e.confirms id with
    | true => simp [hne hc]; omega
    | false => simp; omega

/-- The transaction that holds a row is the only one that may have a confirmation of it. -/
theorem openWith_confirms (h : (serviceSpec R cfg).Reachable v) (id : UUID) :
    openWith (Event.confirms id) v.world.journal v.born =
      (v.world.outbox.lock id).elim 0 fun t =>
        if (v.world.journal.current t).any (Event.confirms id) then 1 else 0 := by
  have hlock : ∀ t, (v.world.journal.current t).any (Event.confirms id) →
      v.world.outbox.lock id = some t := fun t hany => by
    obtain ⟨e, he, hc⟩ := List.any_eq_true.mp hany
    exact (single_current h t id).2 (List.any_eq_true.mpr ⟨e, he, by simp [Event.publishes, hc]⟩)
  unfold openWith
  cases hl : v.world.outbox.lock id with
  | none =>
    refine Finset.card_eq_zero.mpr (Finset.filter_eq_empty_iff.mpr fun t _ hany => ?_)
    exact absurd (hl.symm.trans (hlock t hany)) (by simp)
  | some t =>
    have honly : ∀ t', (v.world.journal.current t').any (Event.confirms id) → t' = t := fun t' hany =>
      (Option.some.inj (hl.symm.trans (hlock t' hany))).symm
    by_cases hany : (v.world.journal.current t).any (Event.confirms id)
    · have hborn : t < v.born := by
        by_contra hge
        simp [(balanced h).idle t (not_lt.mp hge)] at hany
      have hone : (Finset.range v.born).filter
          (fun t => (v.world.journal.current t).any (Event.confirms id)) = {t} := by
        ext t'
        simp only [Finset.mem_filter, Finset.mem_range, Finset.mem_singleton]
        exact ⟨fun h => honly t' h.2, fun h => h ▸ ⟨hborn, hany⟩⟩
      rw [hone, Option.elim_some, if_pos hany, Finset.card_singleton]
    · have hnone : (Finset.range v.born).filter
          (fun t => (v.world.journal.current t).any (Event.confirms id)) = ∅ :=
        Finset.filter_eq_empty_iff.mpr fun t' _ h => hany (honly t' h ▸ h)
      rw [hnone, Option.elim_some, if_neg hany, Finset.card_empty]

/-- A row that is marked as published was. -/
theorem published_confirmed (h : (serviceSpec R cfg).Reachable v) {id : UUID} {r : OutboxMessage}
    (hr : v.world.outbox.rows id = some r) (hp : r.publishedAt.isSome) :
    .published (outboxPublication R r) .confirmed ∈ v.world.journal.log := by
  have htotal := total_confirms h id
  rw [hr] at htotal
  simp only [Option.elim_some, hp, if_true] at htotal
  have hpos : 0 < v.world.journal.log.countP (Event.confirms id) := by omega
  obtain ⟨e, he, hc⟩ := List.countP_pos_iff.mp hpos
  cases e with
  | published p o =>
    cases o with
    | confirmed =>
      obtain ⟨r', hr', rfl⟩ := published_copy h he hc
      rw [hr] at hr'
      rwa [Option.some.inj hr']
    | _ => simp [Event.confirms] at hc
  | _ => simp [Event.confirms] at hc

/-- **The outbox is published at least once, and never by two relays at a time.** The copies of a
row that the broker has accepted are one if the row is marked as published, one that its holder has
yet to mark, and those whose mark was lost. -/
theorem outbox_publication {s s' : (service R cfg).State} (h : (service R cfg).Reachable s)
    (hr : (service R cfg).Run s s') :
    (∃ v, (serviceSpec R cfg).Tracks s v ∧ ∀ t t' φ φ' r r', v.status t = .active (.relay φ) →
      v.status t' = .active (.relay φ') → r ∈ φ.held → r' ∈ φ'.held → r.id = r'.id → t = t') ∧
    ∀ id,
      (∀ r, s.world.outbox.rows id = some r → r.publishedAt.isSome →
        (∃ p, .published p .confirmed ∈ s.world.journal.log ∧ p.exchange = paymentsExchange ∧
          p.message.messageId = some id.str ∧ p.message.body = R.encodeEvent r.payload) ∧
        s'.world.outbox.rows id = some r ∧
        s'.world.journal.log.countP (Event.publishes id) =
          s.world.journal.log.countP (Event.publishes id)) ∧
      s.world.journal.log.countP (Event.accepts id) =
        ((s.world.outbox.rows id).elim 0 fun r => if r.publishedAt.isSome then 1 else 0) +
        ((s.world.outbox.lock id).elim 0 fun t =>
          if (s.world.journal.current t).any (Event.confirms id) then 1 else 0) +
        (s.world.journal.aborted.countP (fun tr => tr.any (Event.confirms id)) +
          s.world.journal.log.countP (Event.loses id)) := by
  obtain ⟨v, v', hv, htr, hrun, htr'⟩ := Machine.Spec.tracked_run (serviceSpec R cfg) h hr
  rw [← htr.world, ← htr'.world]
  refine ⟨⟨v, htr, ?_⟩, fun id => ⟨fun r hrow hp => ?_, ?_⟩⟩
  · intro t t' φ φ' r r' hst hst' hheld hheld' hid
    exact (RelayPhase.Knows.held (knows hv hst) r hheld).unique
      (RelayPhase.Knows.held (knows hv hst') r' hheld') hid
  · have hid := v.world.outbox.key_rows hrow
    refine ⟨⟨_, published_confirmed hv hrow hp, rfl, congrArg (fun id => some (UUID.str id)) hid,
      rfl⟩, ?_, publishes_run hv hrun hrow hp⟩
    obtain ⟨r', hrow', hl⟩ := run_outbox hv hrun hrow
    rw [hrow', hl.published hp]
  · rw [countP_accepts, total_confirms hv id, openWith_confirms hv id]
    omega

/-! ## Delays -/

/-- What a transaction says about a publication that failed is in the notes. -/
theorem Noted.postponed_of_infix {now : Time} {done : List Mark} {tr : List Event}
    (h : Noted R now done tr) {τ : Time} {p : Publication} {o : PublishOutcome}
    (htr : [.read τ, .published p o] <:+: tr) (ho : o ≠ .confirmed) :
    ∃ m ∈ done, p = outboxPublication R m.row ∧ ∃ error, m.note = .postponed error τ := by
  have hlater : ∀ {tr : List Event} {q : Publication} {o' : PublishOutcome},
      [.read τ, .published p o] <:+: .published q o' :: tr → [.read τ, .published p o] <:+: tr := by
    intro tr q o' h
    rcases List.infix_cons_iff.mp h with h | h
    · simp at h
    · exact h
  induction h with
  | nil => exact absurd htr.length_le (by simp)
  | @published done tr _ row τ' ih =>
    rcases List.infix_cons_iff.mp htr with hpre | htr
    · simp at hpre
      exact absurd hpre.2.2 ho
    · obtain ⟨m, hm, hp, hn⟩ := ih (hlater htr)
      exact ⟨m, List.mem_append_left _ hm, hp, hn⟩
  | @postponed done tr _ row error τ' o' _ ih =>
    rcases List.infix_cons_iff.mp htr with hpre | htr
    · simp at hpre
      obtain ⟨rfl, rfl, -⟩ := hpre
      exact ⟨_, List.mem_append_right _ (List.mem_singleton_self _), rfl, error, rfl⟩
    · obtain ⟨m, hm, hp, hn⟩ := ih (hlater htr)
      exact ⟨m, List.mem_append_left _ hm, hp, hn⟩

/-- A transaction that published a copy of a row and can be committed is one of the relay. -/
theorem Committing.flushed_of_copies {φ : Phase} {t : ℕ} (hc : Committing φ) {tr : List Event}
    (htr : φ.Traced R cfg t tr) {p : Publication} {o : PublishOutcome}
    (hp : .published p o ∈ tr) :
    ∃ now done todo, φ = .relay (.flushed now done todo) := by
  cases hc with
  | flushed now done todo => exact ⟨now, done, todo, rfl⟩
  | staged c fingerprint id messageId occurredAt now =>
    obtain ⟨tr', hr, rfl⟩ := htr
    rcases List.mem_cons.mp hp with hp | hp
    · simp at hp
    · obtain ⟨now, hnow⟩ := hr _ hp
      simp at hnow
  | finalFlushed m q result now =>
    obtain rfl : tr = _ := htr
    simp at hp
  | reopened m q =>
    obtain rfl : tr = [] := htr
    simp at hp
  | deliveredFlushed m q status now =>
    obtain rfl : tr = _ := htr
    simp at hp
  | undeliveredFlushed m q answer error =>
    obtain rfl : tr = _ := htr
    cases answer <;> simp [answers] at hp

/-- The row after the commit of a publication that failed. -/
theorem step_postponed (h : (serviceSpec R cfg).Reachable v)
    (hs : (serviceSpec R cfg).Step v v') {tr : List Event}
    (hc : v'.world.journal.committed = tr :: v.world.journal.committed) {τ : Time} {p : Publication}
    {o : PublishOutcome} (htr : [.read τ, .published p o] <:+: tr) (ho : o ≠ .confirmed) {id : UUID}
    (hp : p.copies id) :
    ∃ r error, v.world.outbox.rows id = some r ∧
      v'.world.outbox.rows id = some (r.postponed error (τ + backoff (r.attempts + 1))) := by
  have hne : v'.world.journal.committed ≠ v.world.journal.committed := by simp [hc]
  rcases exec_or_same hs with ⟨-, heq⟩ | ⟨t, φ, φ', op, r, ht, hm, hx⟩
  · exact absurd heq hne
  rcases Exec.committed_cases hx with ⟨-, -, heq⟩ | ⟨rfl, -, hout, tr', heq, hcur⟩
  · exact absurd heq hne
  obtain rfl : tr = tr' := List.head_eq_of_cons_eq (hc.symm.trans heq)
  have hcur : [.read τ, .published p o] <:+: v.world.journal.current t := by
    rcases hcur with rfl | rfl
    · exact htr
    · rcases List.infix_cons_iff.mp htr with h | h
      · simp at h
      · exact h
  have hpub : .published p o ∈ v.world.journal.current t := hcur.subset (by simp)
  obtain ⟨now, done, todo, rfl⟩ := hm.committing.flushed_of_copies (traced h ht) hpub
  have hk : RelayPhase.Knows R v.world t (.flushed now done todo) := knows h ht
  obtain ⟨m, hmem, rfl, error, hnote⟩ := Noted.postponed_of_infix (traced h ht) hcur ho
  obtain rfl : m.row.id = id := by
    rw [copies_outboxPublication] at hp
    exact of_decide_eq_true hp
  have hheld : m.row ∈ (RelayPhase.flushed now done todo).held :=
    List.mem_append_left _ (List.mem_map_of_mem hmem)
  refine ⟨m.row, errorText R error, (hk.held _ hheld).row, ?_⟩
  rw [hout, hk.outbox.rows_commit, hk.find_written hmem, Mark.result, hnote]
  rfl

/-- A row that is published has waited until its time had come. -/
theorem step_published (h : (serviceSpec R cfg).Reachable v) (hs : (serviceSpec R cfg).Step v v')
    {p : Publication} {o : PublishOutcome} {id : UUID}
    (hlog : v'.world.journal.log = .published p o :: v.world.journal.log) (hp : p.copies id) :
    ∃ r, v.world.outbox.rows id = some r ∧ r.nextRetryAt ≤ v.world.clock := by
  obtain ⟨t, row, hheld, -, hle, rfl, -⟩ := (recorded hs hlog).published h hp
  exact ⟨row, hheld.row, hle⟩

/-- **Delays are honoured by every relay.** When a transaction is committed in which the publication
of a row failed and the relay then read the clock, no relay publishes the row until its delay has
passed since. The attempts of a row are its failed publications that were committed; they do not
decrease, and stay as they are once the row is published. -/
theorem outbox_backoff {s : (service R cfg).State} (h : (service R cfg).Reachable s) (id : UUID) :
    (∀ s₁ tr τ p o, (service R cfg).Step s s₁ →
      s₁.world.journal.committed = tr :: s.world.journal.committed →
      [.read τ, .published p o] <:+: tr → o ≠ .confirmed → p.copies id →
      ∃ r r₁, s.world.outbox.rows id = some r ∧ s₁.world.outbox.rows id = some r₁ ∧
        r₁.attempts = r.attempts + 1 ∧ r₁.nextRetryAt = τ + min (2 ^ r₁.attempts) 60 * second ∧
        ∀ s₂ s₃ q o', (service R cfg).Run s₁ s₂ → (service R cfg).Step s₂ s₃ →
          s₃.world.journal.log = .published q o' :: s₂.world.journal.log → q.copies id →
          τ + min (2 ^ r₁.attempts) 60 * second ≤ s₂.world.clock) ∧
    ∀ s' r, (service R cfg).Run s s' → s.world.outbox.rows id = some r →
      r.attempts = Journal.total (Event.fails id) s.world.journal.committed ∧
      ∃ r', s'.world.outbox.rows id = some r' ∧ r.attempts ≤ r'.attempts ∧
        (r.publishedAt.isSome → r'.attempts = r.attempts) := by
  obtain ⟨v, hv, htr⟩ := Machine.Spec.tracked (serviceSpec R cfg) h
  refine ⟨fun s₁ tr τ p o hs hc hinfix ho hp => ?_, fun s' r hr hrow => ?_⟩
  · obtain ⟨v₁, hstep, htr₁⟩ := htr.step hs
    rw [← htr.world, ← htr₁.world] at *
    obtain ⟨r, error, hrow, hrow₁⟩ := step_postponed hv hstep hc hinfix ho hp
    refine ⟨r, _, hrow, hrow₁, rfl, rfl, fun s₂ s₃ q o' hrun hs₂ hlog hq => ?_⟩
    obtain ⟨v₂, hrun', htr₂⟩ := htr₁.run hrun
    obtain ⟨v₃, hstep₂, htr₃⟩ := htr₂.step hs₂
    rw [← htr₂.world, ← htr₃.world] at *
    obtain ⟨r₂, hrow₂, hl⟩ := run_outbox (hv.step hstep) hrun' hrow₁
    obtain ⟨r₂', hrow₂', hle⟩ := step_published ((hv.step hstep).run hrun') hstep₂ hlog hq
    obtain rfl : r₂ = r₂' := by simpa [hrow₂] using hrow₂'
    exact hl.nextRetryAt.trans hle
  · obtain ⟨v', hrun, htr'⟩ := htr.run hr
    rw [← htr.world] at hrow ⊢
    rw [← htr'.world]
    have htotal := total_fails hv id
    rw [hrow] at htotal
    obtain ⟨r', hrow', hl⟩ := run_outbox hv hrun hrow
    exact ⟨htotal.symm, r', hrow', hl.attempts, fun hp => by rw [hl.published hp]⟩

/-- The event of the payment for the book has been published, and there is one copy. -/
theorem outbox_publication_published :
    ∃ (s : (service .transparent default).State) (m : OutboxMessage),
      s.world.outbox.rows m.id = some m ∧
        ∃ p, .published p .confirmed ∈ s.world.journal.log ∧ p.exchange = paymentsExchange ∧
          p.message.messageId = some m.id.str ∧
          p.message.body = Runtime.transparent.encodeEvent m.payload := by
  obtain ⟨p, m, s, h⟩ := exists_book_published
  have hrow := ((outbox_publication h.reachable .refl).2 m.id).1 m h.relayed.message
    h.relayed.published
  exact ⟨s, m, h.relayed.message, hrow.1⟩

/-- The broker has refused the event of the payment for the book twice. -/
theorem outbox_backoff_published :
    ∃ (s : (service .transparent default).State) (m : OutboxMessage),
      s.world.outbox.rows m.id = some m ∧ m.attempts = 2 ∧
        Journal.total (Event.fails m.id) s.world.journal.committed = 2 := by
  obtain ⟨f, hf⟩ := bookCommand_validated.exists_fingerprint .transparent
  obtain ⟨p, m, s, h, -, hacc, hattempts, -⟩ := exists_postponed default (n := 2) hf (by decide)
  exact ⟨s, m, hacc.message, hattempts,
    ((outbox_backoff h m.id).2 s m .refl hacc.message).1.symm.trans hattempts⟩

end Payments
