import PaymentProcessing.System.Books

/-!
# Totals

The history of the service, transaction by transaction. In one transaction the gateway returns a
result once at most, a client takes one notification at most, and a row is confirmed once at most
(`Single`); so what the history counts are transactions, and those that were committed are on the
books (`total_charges`, `total_notifies`, `total_confirms`).
-/

namespace Payments

open Effects Python Store

variable {R : Runtime} {cfg : Settings} {w w' : World} {t : ℕ} {o : Op} {r : Res o}

/-! ## The journal balances -/

theorem Exec.balanced {n : ℕ} (h : Exec cfg t o r w w') (hb : w.journal.Balanced n) (ht : t < n) :
    w'.journal.Balanced n := by
  cases h with
  | now => exact hb.record ht
  | inserted => exact hb.record ht
  | committed => exact hb.commit ht
  | commitLost => exact (hb.record ht).commit ht
  | commitFailed => exact hb.abort ht
  | rolledBack => exact hb.abort ht
  | closed => exact hb.abort ht
  | called => exact hb.record ht
  | charged => exact hb.record ht
  | posted => exact hb.record ht
  | answered => exact hb.record ht
  | confirmed => exact hb.record ht
  | confirmationLost => exact hb.record ht
  | refused => exact hb.record ht
  | _ => exact hb

theorem active_lt {v : View R cfg} (h : (serviceSpec R cfg).Reachable v) {φ : Phase}
    (ht : v.status t = .active φ) : t < v.born := by
  by_contra hlt
  rw [h.unborn.mpr (not_lt.mp hlt)] at ht
  simp at ht

/-- **The journal of a reachable state balances.** -/
theorem balanced {v : View R cfg} (h : (serviceSpec R cfg).Reachable v) :
    v.world.journal.Balanced v.born := by
  refine h.invariant (I := fun v : View R cfg => v.world.journal.Balanced v.born) ?_ ?_
  · rintro v ⟨⟨clock, hw⟩, -, hb⟩
    rw [hw, hb]
    exact Journal.Balanced.empty
  · intro v v' hv hb hs
    cases hs with
    | start hst =>
      rw [(Start.same hst).2.2.2]
      exact hb.succ
    | exec ht hm hx => exact Exec.balanced hx hb (active_lt (v := v) hv ht)
    | @crash t _ w ht hw =>
      obtain rfl : w = World.crash v.world t := hw
      exact hb.abort (active_lt (v := v) hv ht)
    | env he =>
      rw [(Environment.same he).2.2.2]
      exact hb

/-! ## One event of a kind -/

/-- A transaction does the irrevocable things once. -/
structure Single (id : UUID) (tr : List Event) : Prop where
  charges : tr.countP (Event.charges id) ≤ 1
  notifies : tr.countP (Event.notifies id) ≤ 1
  publishes : tr.countP (Event.publishes id) ≤ 1

theorem Single.confirms {id : UUID} {tr : List Event} (h : Single id tr) :
    tr.countP (Event.confirms id) ≤ 1 :=
  (List.countP_mono_left fun e _ he => by simp [Event.publishes, he]).trans h.publishes

theorem Single.fails {id : UUID} {tr : List Event} (h : Single id tr) :
    tr.countP (Event.fails id) ≤ 1 :=
  (List.countP_mono_left fun e _ he => by simp [Event.publishes, he]).trans h.publishes

theorem countP_eq_zero_of_entered {f : Event → Bool} {tr : List Event} (h : entered f tr = 0) :
    tr.countP f = 0 := by
  rw [List.countP_eq_zero]
  simpa [entered] using h

/-- The irrevocable things are nothing a request or a mere attempt does. -/
theorem Single.of_entered {id : UUID} {tr : List Event} (hc : entered (Event.charges id) tr = 0)
    (hn : entered (Event.notifies id) tr = 0) (hp : entered (Event.publishes id) tr = 0) :
    Single id tr :=
  ⟨(countP_eq_zero_of_entered hc).le.trans zero_le_one,
    (countP_eq_zero_of_entered hn).le.trans zero_le_one,
    (countP_eq_zero_of_entered hp).le.trans zero_le_one⟩

theorem Reading.single {tr : List Event} (h : Reading tr) (id : UUID) : Single id tr := by
  refine .of_entered (entered_eq_zero fun e he => ?_) (entered_eq_zero fun e he => ?_)
    (entered_eq_zero fun e he => ?_) <;>
  · obtain ⟨now, rfl⟩ := h e he
    rfl

theorem Fruitless.single {tr : List Event} (h : Fruitless tr) (id : UUID) : Single id tr := by
  refine .of_entered (entered_eq_zero fun e he => ?_) (entered_eq_zero fun e he => ?_)
    (entered_eq_zero fun e he => ?_)
  · rcases h e he with ⟨c, rfl⟩ | ⟨q, rfl⟩ | ⟨q, s, rfl, -⟩ <;> rfl
  · rcases h e he with ⟨c, rfl⟩ | ⟨q, rfl⟩ | ⟨q, s, rfl, hs⟩
    · rfl
    · rfl
    · exact decide_eq_false fun h => hs h.2
  · rcases h e he with ⟨c, rfl⟩ | ⟨q, rfl⟩ | ⟨q, s, rfl, -⟩ <;> rfl

theorem Routing.single {tr : List Event} (h : Routing tr) (id : UUID) : Single id tr := by
  refine .of_entered (entered_eq_zero fun e he => ?_) (entered_eq_zero fun e he => ?_)
    (entered_eq_zero fun e he => ?_)
  · obtain ⟨p, o, rfl, -⟩ := h e he
    rfl
  · obtain ⟨p, o, rfl, -⟩ := h e he
    rfl
  · obtain ⟨p, o, rfl, hp⟩ := h e he
    exact (publishes_published id p o).trans (hp id)

theorem Noted.countP_publishes {now : Time} {done : List Mark} {tr : List Event}
    (h : Noted R now done tr) (id : UUID) :
    tr.countP (Event.publishes id) ≤ (done.map fun m => m.row.id).count id := by
  have hrow : ∀ {tr : List Event} {done : List Mark} (row : OutboxMessage) (note : Note) (τ : Time)
      (o : PublishOutcome), tr.countP (Event.publishes id) ≤ (done.map fun m => m.row.id).count id →
      (.read τ :: .published (outboxPublication R row) o :: tr).countP (Event.publishes id) ≤
        ((done ++ [Mark.mk row note]).map fun m => m.row.id).count id := by
    intro tr done row note τ o ih
    simp only [List.countP_cons, publishes_published, copies_outboxPublication, List.map_append,
      List.count_append, List.map_cons, List.map_nil, List.count_singleton, beq_iff_eq,
      decide_eq_true_eq]
    exact Nat.add_le_add_right ih _
  induction h with
  | nil => simp [Event.publishes, Event.confirms, Event.fails]
  | published _ row τ ih => exact hrow row _ τ _ ih
  | postponed _ row error τ _ ih => exact hrow row _ τ _ ih

/-- The relay publishes rows that it holds, each of them once. -/
theorem RelayPhase.Knows.single {φ : RelayPhase} (hk : φ.Knows R w t) {tr : List Event}
    (htr : φ.Traced R tr) (id : UUID) :
    Single id tr ∧ (tr.any (Event.publishes id) → w.outbox.lock id = some t) := by
  have hbase : ∀ {now : Time} {done : List Mark} {rest : List OutboxMessage},
      φ.held = done.map Mark.row ++ rest → ∀ {tr' : List Event}, Noted R now done tr' →
      ∀ {l : List Event}, (l = [] ∨ ∃ row rest', rest = row :: rest' ∧ ∃ o,
        l = [.published (outboxPublication R row) o]) →
      Single id (l ++ tr') ∧ ((l ++ tr').any (Event.publishes id) → w.outbox.lock id = some t) := by
    intro now done rest hheld tr' hn l hl
    have hrel : Relaying R (l ++ tr') := by
      rcases hl with rfl | ⟨row, rest', -, o, rfl⟩
      · exact hn.relaying
      · exact hn.relaying.published row o
    have hcount : (l ++ tr').countP (Event.publishes id) ≤
        (φ.held.map OutboxMessage.id).count id := by
      rw [hheld, List.map_append, List.map_map, List.countP_append, List.count_append, Nat.add_comm]
      refine Nat.add_le_add (hn.countP_publishes id) ?_
      rcases hl with rfl | ⟨row, rest', rfl, o, rfl⟩
      · exact Nat.zero_le _
      · rw [List.map_cons, List.count_cons, List.countP_singleton]
        refine le_trans ?_ (Nat.le_add_left _ _)
        simp [copies_outboxPublication]
    refine ⟨⟨(countP_eq_zero_of_entered (entered_relaying (uncounted_charges id)
        (fun _ _ => rfl) hrel)).le.trans zero_le_one,
      (countP_eq_zero_of_entered (entered_relaying (uncounted_notifies id)
        (fun _ _ => rfl) hrel)).le.trans zero_le_one,
      hcount.trans (List.nodup_iff_count_le_one.mp hk.nodup id)⟩, fun hany => ?_⟩
    have hpos : 0 < (l ++ tr').countP (Event.publishes id) :=
      List.countP_pos_iff.mpr (List.any_eq_true.mp hany)
    obtain ⟨row, hrow, rfl⟩ := List.mem_map.mp (List.count_pos_iff.mp (hpos.trans_le hcount))
    exact (hk.held row hrow).lock
  have hquiet : Reading tr →
      Single id tr ∧ (tr.any (Event.publishes id) → w.outbox.lock id = some t) := by
    refine fun hr => ⟨hr.single id, fun hany => ?_⟩
    obtain ⟨e, he, hc⟩ := List.any_eq_true.mp hany
    obtain ⟨now, rfl⟩ := hr e he
    simp [(uncounted_publishes id).1] at hc
  cases φ with
  | fresh => exact hquiet (htr ▸ reading_nil)
  | timed now => exact hquiet (htr ▸ reading_nil.cons now)
  | closing => exact hquiet htr
  | batch now done todo => exact hbase rfl htr (.inl rfl)
  | flushed now done todo => exact hbase rfl htr (.inl rfl)
  | unflushed now done todo => exact hbase rfl htr (.inl rfl)
  | confirmed now done row todo =>
    obtain ⟨tr', hn, rfl⟩ := htr
    exact hbase rfl hn (.inr ⟨row, todo, rfl, _, rfl⟩)
  | postponed now done row error todo =>
    obtain ⟨tr', o, hn, -, rfl⟩ := htr
    exact hbase rfl hn (.inr ⟨row, todo, rfl, _, rfl⟩)

theorem Reading.any_eq_false {l : List Event} (h : Reading l) {f : Event → Bool}
    (hf : Uncounted f) : l.any f = false := by
  rw [List.any_eq_false]
  intro e he
  obtain ⟨now, rfl⟩ := h e he
  simp [hf.1]

theorem Reading.countP_eq_zero {l : List Event} (h : Reading l) {f : Event → Bool}
    (hf : Uncounted f) : l.countP f = 0 :=
  countP_eq_zero_of_entered (by simp [entered, h.any_eq_false hf])

theorem Fruitless.any_eq_false {tr : List Event} (h : Fruitless tr) {f : Event → Bool}
    (hc : ∀ c, f (.called c) = false) (hp : ∀ q, f (.posted q) = false)
    (ha : ∀ q status, ¬(200 ≤ status ∧ status < 300) → f (.answered q status) = false) :
    tr.any f = false := by
  rw [List.any_eq_false]
  intro e he
  rcases h e he with ⟨c, rfl⟩ | ⟨q, rfl⟩ | ⟨q, s, rfl, hs⟩
  · simp [hc]
  · simp [hp]
  · simp [ha q s hs]

theorem Routing.any_eq_false {tr : List Event} (h : Routing tr) {f : Event → Bool}
    (hf : ∀ p o, (∀ id, p.copies id = false) → f (.published p o) = false) : tr.any f = false := by
  rw [List.any_eq_false]
  intro e he
  obtain ⟨p, o, rfl, hp⟩ := h e he
  simp [hf p o hp]

/-- A delivery charges once and is answered once, and it publishes no copy of an outbox row. -/
theorem Shape.single {φ : ConsumerPhase} {tr : List Event} (h : Shape R cfg φ tr) (id : UUID) :
    Single id tr ∧ tr.any (Event.publishes id) = false := by
  have hrow : tr.any (Event.publishes id) = false := by
    cases h with
    | charged _ _ hl =>
      simp [hl.any_eq_false (uncounted_publishes id), Event.publishes, Event.confirms, Event.fails]
    | notified _ _ hl =>
      simp [hl.any_eq_false (uncounted_publishes id), Event.publishes, Event.confirms, Event.fails]
    | fruitless h => exact h.any_eq_false (fun _ => rfl) (fun _ => rfl) fun _ _ _ => rfl
    | routing h =>
      exact h.any_eq_false fun p o hp => (publishes_published id p o).trans (hp id)
  have hpublishes : tr.countP (Event.publishes id) ≤ 1 :=
    (countP_eq_zero_of_entered (by simp [entered, hrow])).le.trans zero_le_one
  refine ⟨?_, hrow⟩
  cases h with
  | charged _ _ hl =>
    refine ⟨?_, ?_, hpublishes⟩
    · simp only [List.countP_append, hl.countP_eq_zero (uncounted_charges id), Nat.zero_add]
      exact (List.countP_cons ..).trans_le (by simp [Event.charges]; split <;> simp)
    · simp [List.countP_append, hl.countP_eq_zero (uncounted_notifies id), Event.notifies]
  | notified _ _ hl =>
    refine ⟨?_, ?_, hpublishes⟩
    · simp [List.countP_append, hl.countP_eq_zero (uncounted_charges id), Event.charges]
    · simp only [List.countP_append, hl.countP_eq_zero (uncounted_notifies id), Nat.zero_add]
      exact (List.countP_cons ..).trans_le (by simp [Event.notifies]; split <;> simp)
  | fruitless h => exact h.single id
  | routing h => exact h.single id

/-- **An open transaction does the irrevocable things once**, and what it has published it holds. -/
theorem single_current {v : View R cfg} (h : (serviceSpec R cfg).Reachable v) (t : ℕ) (id : UUID) :
    Single id (v.world.journal.current t) ∧
      ((v.world.journal.current t).any (Event.publishes id) → v.world.outbox.lock id = some t) := by
  have htr := tracing h t
  have hk := knowing h t
  have hempty : v.world.journal.current t = [] → Single id (v.world.journal.current t) ∧
      ((v.world.journal.current t).any (Event.publishes id) → v.world.outbox.lock id = some t) :=
    fun heq => heq ▸ ⟨reading_nil.single id, by simp⟩
  cases hst : v.status t with
  | unborn => exact hempty (by rwa [hst] at htr)
  | crashed => exact hempty (by rwa [hst] at htr)
  | active φ =>
    rw [hst] at htr hk
    cases φ with
    | api c φ =>
      have hno : ∀ {f : Event → Bool}, Uncounted f → (∀ t id, f (.inserted t id) = false) →
          entered f (v.world.journal.current t) = 0 := by
        intro f hf hi
        have hreading : Reading (v.world.journal.current t) →
            entered f (v.world.journal.current t) = 0 := fun hr => entered_eq_zero fun e he => by
          obtain ⟨now, rfl⟩ := hr e he
          exact hf.1 now
        cases φ with
        | staged fingerprint pid messageId occurredAt now => exact entered_staged hf hi htr
        | _ => exact hreading htr
      have hpublishes := hno (uncounted_publishes id) fun _ _ => rfl
      refine ⟨.of_entered (hno (uncounted_charges id) fun _ _ => rfl)
        (hno (uncounted_notifies id) fun _ _ => rfl) hpublishes, fun hany => ?_⟩
      simp [entered, hany] at hpublishes
    | relay φ => exact RelayPhase.Knows.single hk htr id
    | consumer m φ =>
      obtain ⟨hs, hpublishes⟩ :=
        (ConsumerPhase.Traced.shape (ConsumerPhase.Knows.facts hk) htr).single id
      exact ⟨hs, fun hany => by simp [hpublishes] at hany⟩

/-! ## Ended transactions -/

theorem Exec.ended_cases (h : Exec cfg t o r w w') :
    (w'.journal.committed = w.journal.committed ∧ w'.journal.aborted = w.journal.aborted) ∨
    (∃ tr, w'.journal.committed = tr :: w.journal.committed ∧
      w'.journal.aborted = w.journal.aborted ∧
      (tr = w.journal.current t ∨ tr = .commitLost t :: w.journal.current t)) ∨
    (w'.journal.committed = w.journal.committed ∧
      w'.journal.aborted = w.journal.current t :: w.journal.aborted) := by
  cases h with
  | committed => exact .inr (.inl ⟨_, rfl, rfl, .inl rfl⟩)
  | commitLost => exact .inr (.inl ⟨_, rfl, rfl, .inr (by simp)⟩)
  | commitFailed => exact .inr (.inr ⟨rfl, rfl⟩)
  | rolledBack => exact .inr (.inr ⟨rfl, rfl⟩)
  | closed => exact .inr (.inr ⟨rfl, rfl⟩)
  | _ => exact .inl ⟨rfl, rfl⟩

/-- What is true of all open transactions is true of those that have ended. -/
theorem ended {P : List Event → Prop}
    (hcur : ∀ {v : View R cfg}, (serviceSpec R cfg).Reachable v → ∀ t, P (v.world.journal.current t))
    (hlost : ∀ t tr, P tr → P (.commitLost t :: tr)) {v : View R cfg}
    (h : (serviceSpec R cfg).Reachable v) :
    (∀ tr ∈ v.world.journal.committed, P tr) ∧ ∀ tr ∈ v.world.journal.aborted, P tr := by
  refine h.invariant (I := fun v : View R cfg => (∀ tr ∈ v.world.journal.committed, P tr) ∧
    ∀ tr ∈ v.world.journal.aborted, P tr) ?_ ?_
  · rintro v ⟨⟨clock, hw⟩, -⟩
    rw [hw]
    exact ⟨by simp [World.initial, Journal.empty], by simp [World.initial, Journal.empty]⟩
  · intro v v' hv hP hs
    obtain ⟨hc, ha⟩ := hP
    cases hs with
    | start hst =>
      rw [(Start.same hst).2.2.2]
      exact ⟨hc, ha⟩
    | @exec t _ _ _ _ _ ht hm hx =>
      rcases Exec.ended_cases hx with ⟨h1, h2⟩ | ⟨tr, h1, h2, htr⟩ | ⟨h1, h2⟩ <;> rw [h1, h2]
      · exact ⟨hc, ha⟩
      · refine ⟨List.forall_mem_cons.mpr ⟨?_, hc⟩, ha⟩
        rcases htr with rfl | rfl
        · exact hcur hv t
        · exact hlost t _ (hcur hv t)
      · exact ⟨hc, List.forall_mem_cons.mpr ⟨hcur hv t, ha⟩⟩
    | @crash t _ w ht hw =>
      obtain rfl : w = World.crash v.world t := hw
      exact ⟨hc, List.forall_mem_cons.mpr ⟨hcur hv t, ha⟩⟩
    | env he =>
      rw [(Environment.same he).2.2.2]
      exact ⟨hc, ha⟩

theorem single_ended {v : View R cfg} (h : (serviceSpec R cfg).Reachable v) (id : UUID) :
    (∀ tr ∈ v.world.journal.committed, Single id tr) ∧
      ∀ tr ∈ v.world.journal.aborted, Single id tr := by
  refine ended (fun hv t => (single_current hv t id).1) (fun t tr hs => ?_) h
  exact ⟨hs.charges, hs.notifies, hs.publishes⟩

/-! ## The totals -/

section Totals

variable {v : View R cfg}

/-- The threads whose open transaction has an event of a kind. -/
def openWith (f : Event → Bool) (J : Journal Event) (n : ℕ) : ℕ :=
  ((Finset.range n).filter fun t => (J.current t).any f).card

/-- **How often the gateway returned a result for a payment.** -/
theorem total_charges (h : (serviceSpec R cfg).Reachable v) (id : UUID) :
    v.world.journal.log.countP (Event.charges id) =
      ((v.world.payments.rows id).elim 0 fun p => if p.status.isFinal then 1 else 0) +
      v.world.journal.aborted.countP (fun tr => tr.any (Event.charges id)) +
      openWith (Event.charges id) v.world.journal v.born := by
  obtain ⟨hc, ha⟩ := single_ended h id
  rw [(balanced h).count_eq (fun tr htr => (hc tr htr).charges) (fun tr htr => (ha tr htr).charges)
    fun t => (single_current h t id).1.charges, (paymentBooks h id).charges]
  rfl

/-- **How often a notification about a payment was taken.** -/
theorem total_notifies (h : (serviceSpec R cfg).Reachable v) (id : UUID) :
    v.world.journal.log.countP (Event.notifies id) =
      ((v.world.payments.rows id).elim 0 fun p => if p.webhookDeliveredAt.isSome then 1 else 0) +
      v.world.journal.aborted.countP (fun tr => tr.any (Event.notifies id)) +
      openWith (Event.notifies id) v.world.journal v.born := by
  obtain ⟨hc, ha⟩ := single_ended h id
  rw [(balanced h).count_eq (fun tr htr => (hc tr htr).notifies)
    (fun tr htr => (ha tr htr).notifies) fun t => (single_current h t id).1.notifies,
    (paymentBooks h id).notifies]
  rfl

/-- **How often the broker confirmed an outbox message.** -/
theorem total_confirms (h : (serviceSpec R cfg).Reachable v) (id : UUID) :
    v.world.journal.log.countP (Event.confirms id) =
      ((v.world.outbox.rows id).elim 0 fun r => if r.publishedAt.isSome then 1 else 0) +
      v.world.journal.aborted.countP (fun tr => tr.any (Event.confirms id)) +
      openWith (Event.confirms id) v.world.journal v.born := by
  obtain ⟨hc, ha⟩ := single_ended h id
  rw [(balanced h).count_eq (fun tr htr => (hc tr htr).confirms)
    (fun tr htr => (ha tr htr).confirms) fun t => (single_current h t id).1.confirms,
    (outboxBooks h id).confirms]
  rfl

/-- **How often the publication of an outbox message failed**, as far as that is committed. -/
theorem total_fails (h : (serviceSpec R cfg).Reachable v) (id : UUID) :
    Journal.total (Event.fails id) v.world.journal.committed =
      (v.world.outbox.rows id).elim 0 OutboxMessage.attempts := by
  obtain ⟨hc, -⟩ := single_ended h id
  rw [Journal.total_eq_countP fun tr htr => (hc tr htr).fails, (outboxBooks h id).fails]

end Totals

end Payments
