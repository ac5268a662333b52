import PaymentProcessing.Properties.Isolation

/-!
# The outbox is drained

One relay, called again and again, deals with every row that is eligible at the beginning once, in
the order of creation, and with no other row; after as many calls as there are such rows none is
left (`outbox_drained`). Each call is a round of `Foundations.Store.Drain`: it hands over a first
part of the batch, and a row that it has dealt with, published or postponed, is not eligible any
more.
-/

namespace Payments

open Effects Python Store

/-- What has become of a row that the relay has dealt with. -/
inductive DealtWith (R : Runtime) (σ : BrokerAnswers) (now : Time) (row row' : OutboxMessage) : Prop
  | confirmed (h : σ (outboxPublication R row) = .ok ()) (hpublished : row'.publishedAt.isSome)
      (hattempts : row'.attempts = row.attempts) (herror : row'.lastError = none)
  | failed {error : ForeignError} (h : σ (outboxPublication R row) = .error error)
      (hpublished : row'.publishedAt = none) (hattempts : row'.attempts = row.attempts + 1)
      (herror : row'.lastError = some (errorText R (.foreign error)))
      (hretry : now < row'.nextRetryAt)

section Eligible

variable {T : OutboxTable} {now : Time}

/-- A row that has been dealt with does not wait any more. -/
theorem DealtWith.not_eligible {R : Runtime} {σ : BrokerAnswers} {row row' : OutboxMessage}
    (h : DealtWith R σ now row row') : row' ∉ eligible T now := by
  rintro ⟨-, hnone, hle⟩
  cases h with
  | confirmed _ hpublished _ _ =>
    rw [hnone] at hpublished
    exact absurd hpublished (by decide)
  | failed _ _ _ _ hretry => exact absurd hle (not_le.mpr hretry)

end Eligible

/-! ## One call -/

/-- A call of the relay that returns `count`. It reads the time `now` first, and no earlier time
after a failure. -/
structure Called (R : Runtime) (cfg : Settings) (σ : BrokerAnswers) (now : Time) (t : ℕ) (w : World)
    (count : ℕ) (log : History Op Res World) (w' : World) : Prop where
  executes : (publishPendingBatch R cfg).run.Executes
    (Calling σ (FirstEligible cfg) (fun _ _ => True) cfg t) (w, []) (.ok count) (w', log)
  first : ∃ w₁, log.head? = some ⟨.now, now, w₁⟩
  later : ∀ p error τ w₁ w₂,
    [⟨.publish p, .error error, w₁⟩, ⟨.now, τ, w₂⟩] <:+: log → now ≤ τ

/-- What a call does to the outbox: it hands over `xs`. -/
structure Takes (R : Runtime) (σ : BrokerAnswers) (now : Time) (t : ℕ) (T : OutboxTable)
    (xs : List OutboxMessage) (T' : OutboxTable) : Prop where
  quiet : Quiet t T'
  round : Round OutboxMessage.createdAt (eligible T now) xs
  handled : ∀ row ∈ xs, ∃ row', T'.rows row.id = some row' ∧ DealtWith R σ now row row'
  frame : ∀ id, (∀ row ∈ xs, row.id ≠ id) → T'.rows id = T.rows id

section Call

variable {R : Runtime} {cfg : Settings} {σ : BrokerAnswers} {now : Time} {t : ℕ}

/-- What waits after a call. -/
theorem Takes.mem_eligible {T T' : OutboxTable} {xs : List OutboxMessage}
    (h : Takes R σ now t T xs T') (row : OutboxMessage) :
    row ∈ eligible T' now ↔ row ∈ eligible T now ∧ row ∉ xs := by
  constructor
  · intro hrow
    have hne : ∀ r ∈ xs, r.id ≠ row.id := by
      intro r hr hid
      obtain ⟨row', hrow', hh⟩ := h.handled r hr
      rw [hid, hrow.1] at hrow'
      exact hh.not_eligible (Option.some.inj hrow' ▸ hrow)
    refine ⟨⟨(h.frame row.id hne).symm.trans hrow.1, hrow.2⟩, fun hmem => hne row hmem rfl⟩
  · rintro ⟨hrow, hnot⟩
    refine ⟨(h.frame row.id fun r hr hid => hnot ?_).trans hrow.1, hrow.2⟩
    have hrow' := (h.round.mem r hr).1
    rw [hid, hrow.1] at hrow'
    rwa [Option.some.inj hrow']

/-- **A call is a round.** -/
theorem Called.takes {w w' : World} {count : ℕ} {log : History Op Res World}
    (h : Called R cfg σ now t w count log w') (hq : Quiet t w.outbox) :
    ∃ xs, Takes R σ now t w.outbox xs w'.outbox ∧
      publications log = xs.map (outboxPublication R) ∧ count = xs.countP (confirmed R σ) := by
  have hbatch : ∀ τ, True → ∃ rows, FirstEligible cfg w.outbox τ rows ∧
      Selected w.outbox cfg.outboxBatchSize τ rows := by
    intro τ _
    obtain ⟨rows, hfirst⟩ : ∃ rows, FirstEligible cfg w.outbox τ rows :=
      exists_first (finite_eligible w.outbox τ) cfg.outboxBatchSize
    exact ⟨rows, hfirst, hq.selected hfirst⟩
  obtain ⟨now', rows, hfirst, hcall, -⟩ :=
    h.executes.of_wp (publishPendingBatch_wp (fun _ => trivial) hbatch hq.wrote)
  obtain rfl : now' = now := by
    obtain ⟨w₁, hread⟩ := hcall.read
    obtain ⟨w₂, hread'⟩ := h.first
    cases hread.symm.trans hread'
    rfl
  refine ⟨handed R σ rows, ⟨⟨fun id => ?_, hcall.wrote⟩, ?_, ?_, ?_⟩, hcall.publications, hcall.count⟩
  · exact (hcall.lock id).trans (by simp [Table.released, hq.unlocked id])
  · exact hfirst.round cfg.outboxBatchSize_ge (handed_isPrefix R σ rows) (handed_eq_nil_iff R σ).mp
  · intro row hrow
    obtain ⟨note, hatt, hrow'⟩ := hcall.row_of_handed hrow
    refine ⟨_, hrow', ?_⟩
    cases hatt with
    | published hσ τ => exact .confirmed hσ rfl rfl rfl
    | @postponed _ error τ w₁ w₂ hσ hlt hlog _ =>
      have hnone := ((hfirst.mem row ((handed_isPrefix R σ rows).subset hrow)).2).1
      refine .failed hσ hnone rfl rfl ?_
      calc now' ≤ τ := h.later _ _ _ _ _ hlog
        _ < τ + backoff (row.attempts + 1) := lt_add_backoff τ _
  · intro id hid
    exact hcall.row_of_not_handed hid

end Call

/-! ## All calls -/

/-- Calls of the relay, one after the other, with what they return and what they do. -/
inductive Calls (R : Runtime) (cfg : Settings) (σ : BrokerAnswers) (now : Time) (t : ℕ) :
    World → List (ℕ × History Op Res World) → World → Prop
  | nil (w : World) : Calls R cfg σ now t w [] w
  | cons {w w' w'' : World} {count : ℕ} {log : History Op Res World}
      {calls : List (ℕ × History Op Res World)} (h : Called R cfg σ now t w count log w')
      (hs : Calls R cfg σ now t w' calls w'') : Calls R cfg σ now t w ((count, log) :: calls) w''

section Calls

variable {R : Runtime} {cfg : Settings} {σ : BrokerAnswers} {now : Time} {t : ℕ}

/-- What the calls have done: they have handed over the rounds `xss`. -/
structure Drains (R : Runtime) (σ : BrokerAnswers) (now : Time) (T : OutboxTable)
    (calls : List (ℕ × History Op Res World)) (xss : List (List OutboxMessage)) (T' : OutboxTable) :
    Prop where
  rounds : Rounds OutboxMessage.createdAt (eligible T now) xss (eligible T' now)
  length : xss.length = calls.length
  publications : publications (calls.flatMap Prod.snd) = xss.flatten.map (outboxPublication R)
  count : (calls.map Prod.fst).sum = xss.flatten.countP (confirmed R σ)
  handled : ∀ row ∈ xss.flatten, ∃ row', T'.rows row.id = some row' ∧ DealtWith R σ now row row'
  frame : ∀ id, (∀ row ∈ xss.flatten, row.id ≠ id) → T'.rows id = T.rows id

/-- **Calls are rounds.** -/
theorem Calls.drains {w w' : World} {calls : List (ℕ × History Op Res World)}
    (h : Calls R cfg σ now t w calls w') (hq : Quiet t w.outbox) :
    ∃ xss, Drains R σ now w.outbox calls xss w'.outbox := by
  induction h with
  | nil w => exact ⟨[], .nil _, rfl, rfl, rfl, by simp, fun _ _ => rfl⟩
  | @cons w w₁ w' count log calls hcall _ ih =>
    obtain ⟨xs, htakes, hpub, hcount⟩ := hcall.takes hq
    obtain ⟨xss, hd⟩ := ih htakes.quiet
    refine ⟨xs :: xss, .cons htakes.round htakes.mem_eligible hd.rounds, ?_, ?_, ?_, ?_, ?_⟩
    · rw [List.length_cons, List.length_cons, hd.length]
    · rw [List.flatMap_cons, publications_append, hpub, hd.publications, List.flatten_cons,
        List.map_append]
    · rw [List.map_cons, List.sum_cons, hd.count, List.flatten_cons, List.countP_append, hcount]
    · intro row hrow
      rw [List.flatten_cons, List.mem_append] at hrow
      rcases hrow with hrow | hrow
      · obtain ⟨row', hrow', hh⟩ := htakes.handled row hrow
        refine ⟨row', (hd.frame row.id fun r hr hid => ?_).trans hrow', hh⟩
        -- a later round does not take the row again, as it does not wait any more
        have hr' := (hd.rounds.mem_iff r).mpr (.inl hr)
        have hrr : r = row' := Option.some.inj ((hid ▸ hr'.1).symm.trans hrow')
        exact hh.not_eligible (hrr ▸ hr')
      · exact hd.handled row hrow
    · intro id hid
      rw [hd.frame id fun r hr => hid r (by simp [hr]),
        htakes.frame id fun r hr => hid r (by simp [hr])]

end Calls

/-- **One relay drains the outbox.** After as many calls as rows wait at the beginning no row waits.
When no row waits, the rows that waited at the beginning have been handed to the broker once, in the
order of creation; each is published if its outcome was confirmed and postponed otherwise, and the
other rows are as they were. -/
theorem outbox_drained (R : Runtime) (cfg : Settings) (σ : BrokerAnswers) (now : Time) (t : ℕ)
    (w w' : World) (calls : List (ℕ × History Op Res World)) (hq : Quiet t w.outbox)
    (hcalls : Calls R cfg σ now t w calls w') :
    ((eligible w.outbox now).ncard ≤ calls.length → eligible w'.outbox now = ∅) ∧
    (eligible w'.outbox now = ∅ →
      ∃ order : List OutboxMessage, order.Nodup ∧ (∀ row, row ∈ order ↔ row ∈ eligible w.outbox now) ∧
        order.Pairwise (fun row row' => row.createdAt ≤ row'.createdAt) ∧
        publications (calls.flatMap Prod.snd) = order.map (outboxPublication R) ∧
        (∀ row ∈ order, ∃ row', w'.outbox.rows row.id = some row' ∧ DealtWith R σ now row row') ∧
        (∀ id, (∀ row ∈ order, row.id ≠ id) → w'.outbox.rows id = w.outbox.rows id) ∧
        (calls.map Prod.fst).sum = order.countP (confirmed R σ)) := by
  obtain ⟨xss, hd⟩ := hcalls.drains hq
  constructor
  · intro hn
    exact hd.rounds.drained (finite_eligible _ _) (hd.length ▸ hn)
  · intro hempty
    refine ⟨xss.flatten, hd.rounds.nodup, fun row => ?_, hd.rounds.sorted, hd.publications,
      hd.handled, hd.frame, hd.count⟩
    rw [hd.rounds.mem_iff row, hempty]
    simp

/-! ## Calls that are made -/

section Made

variable {R : Runtime} (cfg : Settings) {σ : BrokerAnswers} {t : ℕ} {w : World}

/-- A call can be made if every failure can be noted; the clock may stand still. -/
theorem exists_called (hq : Quiet t w.outbox)
    (hrows : ∀ row ∈ eligible w.outbox w.clock, row.Fits ∧ Notable R σ row) :
    ∃ count log w', Called R cfg σ w.clock t w count log w' ∧ w'.clock = w.clock := by
  let batch : OutboxTable → Time → List OutboxMessage → Prop :=
    fun T τ rows => τ = w.clock ∧ FirstEligible cfg T τ rows
  have hbatch : ∀ τ, w.clock = τ → ∃ rows, batch w.outbox τ rows ∧
      Selected w.outbox cfg.outboxBatchSize τ rows := by
    rintro _ rfl
    obtain ⟨rows, hfirst⟩ : ∃ rows, FirstEligible cfg w.outbox w.clock rows :=
      exists_first (finite_eligible w.outbox w.clock) _
    exact ⟨rows, ⟨rfl, hfirst⟩, hq.selected hfirst⟩
  have hwp := publishPendingBatch_wp (R := R) (σ := σ) (fun _ => rfl) hbatch hq.wrote
  obtain ⟨out, ⟨w', log⟩, hexec⟩ := Prog.exists_executes hwp
  have hpost := hexec.of_wp hwp
  cases out with
  | error error =>
    obtain ⟨_, rows, ⟨rfl, hfirst⟩, -, hnot⟩ := hpost
    refine absurd (fun row hrow => ?_) (hnot fun row hrow => (hrows row (hfirst.mem row hrow)).1)
    exact (hrows row (hfirst.mem row ((handed_isPrefix R σ rows).subset hrow))).2
  | ok count =>
    obtain ⟨_, rows, ⟨rfl, -⟩, hcall, -⟩ := hpost
    -- the clock stands still
    obtain ⟨hclock, hreads⟩ : w'.clock = w.clock ∧ ∀ τ w₂, ⟨.now, τ, w₂⟩ ∈ log → τ = w.clock := by
      refine hexec.invariant (I := fun x => x.1.clock = w.clock ∧
        ∀ τ w₂, ⟨.now, τ, w₂⟩ ∈ x.2 → τ = w.clock) ?_ ⟨rfl, fun _ _ hmem => nomatch hmem⟩
      rintro o r x ⟨w₁, log'⟩ ⟨⟨_, ⟨_, rfl, rfl⟩, -, hx⟩, hlog⟩ ⟨hstill, hreads⟩
      refine ⟨hx.clock.trans hstill, fun τ w₂ hmem => ?_⟩
      dsimp only at hlog hmem hx
      rw [hlog, List.mem_append, List.mem_singleton] at hmem
      rcases hmem with hmem | heq
      · exact hreads τ w₂ hmem
      · cases heq
        cases hx
        exact hstill
    refine ⟨count, log, w', ⟨hexec.mono ?_, hcall.read, ?_⟩, hclock⟩
    · rintro o r x x' ⟨⟨w₁, ⟨τ, -, hw₁⟩, hr, hx⟩, hlog⟩
      refine ⟨⟨w₁, ⟨τ, trivial, hw₁⟩, ?_, hx⟩, hlog⟩
      cases o with
      | selectBatchForUpdate limit now =>
        obtain ⟨rows, hr, -, hfirst⟩ := hr
        exact ⟨rows, hr, hfirst⟩
      | _ => exact hr
    · intro q error τ w₁ w₂ hsub
      have hread := hreads τ w₂ (hsub.subset (by simp))
      exact hread.ge

/-- Any number of calls can be made. -/
theorem exists_calls (n : ℕ) (hq : Quiet t w.outbox)
    (hrows : ∀ row ∈ eligible w.outbox w.clock, row.Fits ∧ Notable R σ row) :
    ∃ calls w', calls.length = n ∧ Calls R cfg σ w.clock t w calls w' := by
  induction n generalizing w with
  | zero => exact ⟨[], w, rfl, .nil w⟩
  | succ n ih =>
    obtain ⟨count, log, w₁, hcalled, hclock⟩ := exists_called cfg hq hrows
    obtain ⟨xs, htakes, -, -⟩ := hcalled.takes hq
    obtain ⟨calls, w', hlength, hcalls⟩ := ih htakes.quiet fun row hrow => by
      rw [hclock] at hrow
      exact hrows row ((htakes.mem_eligible row).mp hrow).1
    rw [hclock] at hcalls
    exact ⟨(count, log) :: calls, w', congrArg (· + 1) hlength, .cons hcalled hcalls⟩

end Made

/-- Two events wait, and the broker cannot be reached for one of them. After two calls none waits:
that one has been postponed, and the other one published. -/
theorem outbox_drained_pair :
    ∃ (m m' : OutboxMessage) (s : (service .transparent default).State)
      (calls : List (ℕ × History Op Res World)) (w' : World),
      (service .transparent default).Reachable s ∧ TwoEvents m m' s.world ∧ calls.length = 2 ∧
      Calls .transparent default (downFor m) s.world.clock s.born s.world calls w' ∧
      eligible s.world.outbox s.world.clock = {m, m'} ∧ eligible w'.outbox s.world.clock = ∅ ∧
      (∃ row, w'.outbox.rows m.id = some row ∧ row.publishedAt = none ∧ row.attempts = 1) ∧
      (∃ row, w'.outbox.rows m'.id = some row ∧ row.publishedAt.isSome) := by
  obtain ⟨m, m', s, h, -, htwo⟩ := exists_two_accepted default .transparent
  have hq : Quiet s.born s.world.outbox := ⟨htwo.free, htwo.wrote s.born⟩
  have hm := htwo.untried m (by simp)
  have hm' := htwo.untried m' (by simp)
  have helig : eligible s.world.outbox s.world.clock = {m, m'} := by
    ext row
    constructor
    · rintro ⟨hrow, -⟩
      rw [htwo.rows] at hrow
      split at hrow
      · exact .inr (Option.some.inj hrow).symm
      · split at hrow
        · exact .inl (Option.some.inj hrow).symm
        · cases hrow
    · rintro (rfl | rfl)
      · exact ⟨by simp [htwo.rows, htwo.ne], hm.2.1, hm.2.2.2.1.le⟩
      · exact ⟨by simp [htwo.rows], hm'.2.1, hm'.2.2.2.1.le⟩
  have hrows : ∀ row ∈ eligible s.world.outbox s.world.clock,
      row.Fits ∧ Notable .transparent (downFor m) row := by
    intro row hrow
    rw [helig] at hrow
    obtain ⟨-, -, hattempts, -, herror⟩ := htwo.untried row (by simpa using hrow)
    exact ⟨⟨by simp [hattempts], by simp [herror]⟩, notable_downFor (by rw [hattempts]; decide)⟩
  obtain ⟨calls, w', hlength, hcalls⟩ := exists_calls default 2 hq hrows
  obtain ⟨hdrained, horder⟩ := outbox_drained .transparent default _ _ s.born s.world w' _ hq hcalls
  have hempty := hdrained (by rw [helig, Set.ncard_pair fun heq => htwo.ne (congrArg _ heq), hlength])
  obtain ⟨order, -, hmem, -, -, hdealt, -, -⟩ := horder hempty
  refine ⟨m, m', s, calls, w', h, htwo, hlength, hcalls, helig, hempty, ?_, ?_⟩
  · obtain ⟨row, hrow, hdone⟩ := hdealt m ((hmem m).mpr (by simp [helig]))
    cases hdone with
    | confirmed hσ => cases downFor_self.symm.trans hσ
    | failed _ hpublished hattempts => exact ⟨row, hrow, hpublished, by rw [hattempts, hm.2.2.1]⟩
  · obtain ⟨row, hrow, hdone⟩ := hdealt m' ((hmem m').mpr (by simp [helig]))
    cases hdone with
    | confirmed _ hpublished => exact ⟨row, hrow, hpublished⟩
    | failed hσ => cases (downFor_of_ne htwo.ne).symm.trans hσ

end Payments
