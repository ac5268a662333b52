import PaymentProcessing.System.Progress
import PaymentProcessing.System.Waiting

/-!
# No deadlock

Transactions lock rows and wait for each other, but there is no circle: a thread that cannot go on
waits for one that can. When nothing is started any more and nothing fails, all threads return,
whatever the order in which they go on (`service_completes`).
-/

namespace Payments

open Effects Python Store

variable {R : Runtime} {cfg : Settings}

/-- The thread can execute its next operation without a failure. -/
def CanGoOn (s : (service R cfg).State) (t : ℕ) : Prop :=
  ∃ (k : Kind) (o : Op) (c : Res o → Prog Op Res (Out k)) (r : Res o) (w : World),
    s.threads t = .running k (.op o c) ∧ Smoothly cfg t o r s.world w

section Tracked

variable {s : (service R cfg).State} {v : View R cfg} {t : ℕ} {k : Kind}

/-- The next operation of a thread is a move of its protocol. -/
theorem exists_phase (htr : (serviceSpec R cfg).Tracks s v) {o : Op}
    {c : Res o → Prog Op Res (Out k)} (ht : s.threads t = .running k (.op o c)) :
    ∃ φ, v.status t = .active φ ∧ ∀ r, ∃ φ', Move R cfg φ o r φ' := by
  have htrack := htr.thread t
  rw [ht] at htrack
  generalize hst : v.status t = y at htrack
  cases htrack with
  | @running _ _ φ hp =>
    refine ⟨φ, rfl, fun r => ?_⟩
    obtain ⟨φ', hm, -⟩ := hp r
    exact ⟨φ', hm⟩

/-- **A thread that another waits for can go on.** -/
theorem canGoOn_of_waitsFor (h : (serviceSpec R cfg).Reachable v)
    (htr : (serviceSpec R cfg).Tracks s v) {o : Op} (hw : WaitsFor s.world t o) : CanGoOn s t := by
  rw [← htr.world] at hw
  obtain ⟨φ, hst, hφ⟩ := hw.holding h
  have htrack := htr.thread t
  rw [hst] at htrack
  generalize hth : s.threads t = x at htrack
  cases htrack with
  | @running k p _ hp =>
    cases p with
    | ret out => exact absurd hφ (Ended.not_holding hp)
    | op o c =>
      obtain ⟨φ', hst', hm⟩ := exists_phase htr hth
      obtain rfl : φ = φ' := by
        rw [hst] at hst'
        cases hst'
        rfl
      obtain ⟨r, w, hx⟩ := exists_smooth h hst hm fun t' _ => hφ.not_waiting hm v.world t'
      exact ⟨k, o, c, r, w, hth, htr.world ▸ hx⟩

end Tracked

/-- A thread that cannot go on waits for one that can. -/
theorem canGoOn_or_waitsFor {s : (service R cfg).State} (h : (service R cfg).Reachable s) {t : ℕ}
    {k : Kind} {o : Op} {c : Res o → Prog Op Res (Out k)} (ht : s.threads t = .running k (.op o c)) :
    CanGoOn s t ∨ ∃ t' ≠ t, WaitsFor s.world t' o ∧ CanGoOn s t' := by
  obtain ⟨v, hv, htr⟩ := Machine.Spec.tracked (serviceSpec R cfg) h
  by_cases hwait : ∃ t' ≠ t, WaitsFor s.world t' o
  · obtain ⟨t', hne, hw⟩ := hwait
    exact .inr ⟨t', hne, hw, canGoOn_of_waitsFor hv htr hw⟩
  · obtain ⟨φ, hst, hm⟩ := exists_phase htr ht
    push Not at hwait
    rw [← htr.world] at hwait
    obtain ⟨r, w, hx⟩ := exists_smooth hv hst hm hwait
    exact .inl ⟨k, o, c, r, w, ht, htr.world ▸ hx⟩

/-- **There is no deadlock.** A thread that cannot go on waits for one that can; and if no thread is
started or killed, nothing comes from outside and nothing fails, then all threads return, whatever
the order. -/
theorem service_completes {s : (service R cfg).State} (h : (service R cfg).Reachable s) :
    (∀ (t : ℕ) (k : Kind) (o : Op) (c : Res o → Prog Op Res (Out k)),
      s.threads t = .running k (.op o c) →
      CanGoOn s t ∨ ∃ t' ≠ t, WaitsFor s.world t' o ∧ CanGoOn s t') ∧
    Terminates ((service R cfg).Onward (Smoothly cfg)) (fun s' => ∀ t, ¬(service R cfg).Busy s' t)
      s := by
  refine ⟨fun t k o c ht => canGoOn_or_waitsFor h ht, ?_⟩
  refine Machine.terminates_onward (fun hx => hx.1) (fun {s} hs t ht => ?_) h
  have hgo : ∃ t', CanGoOn s t' := by
    obtain ⟨k, o, c, ht⟩ := ht
    rcases canGoOn_or_waitsFor hs ht with hgo | ⟨t', -, -, hgo⟩
    · exact ⟨t, hgo⟩
    · exact ⟨t', hgo⟩
  obtain ⟨t', k, o, c, r, w, ht', hx⟩ := hgo
  exact ⟨_, .exec ht' hx⟩

/-! ## A thread that waits -/

variable (cfg) in
/-- A delivery locks the payment of its event first. -/
theorem handleDelivery_locks {m : Message} {attempt : ℕ} {event : PaymentCreatedEvent}
    (ha : currentAttempt m.headers = .ok attempt) (hm : R.validateEvent m.body = .ok event) :
    ∃ c, (handleDelivery R cfg m).run = .op (.selectForUpdate event.paymentId) c := by
  unfold handleDelivery
  rw [ha]
  simp only [hm]
  exact ⟨_, rfl⟩

/-- Nobody else gets a lock that is held. -/
theorem not_canGoOn_of_locked {s : (service R cfg).State} {t t' : ℕ} {k : Kind} {id : UUID}
    {c : Res (.selectForUpdate id) → Prog Op Res (Out k)}
    (ht : s.threads t = .running k (.op (.selectForUpdate id) c))
    (hlock : s.world.payments.lock id = some t') (hne : t' ≠ t) : ¬CanGoOn s t := by
  rintro ⟨k', o, c', r, w, ht', hx, hsmooth⟩
  cases ht.symm.trans ht'
  cases hx with
  | locked hfree =>
    rcases hfree with hfree | hfree
    · cases hfree.symm.trans hlock
    · exact hne (Option.some.inj (hlock.symm.trans hfree))
  | missing hnone =>
    have hsome := s.world.payments.locked hlock
    rw [hnone] at hsome
    cases hsome
  | lockFailed => cases hsmooth

/-- Somebody publishes an event twice, and both messages are delivered at the same time: the second
delivery waits for the first, and both return. -/
theorem service_completes_waiting :
    ∃ (s : (service .transparent default).State) (t t' : ℕ) (e : Envelope) (id : UUID)
      (c : Res (.selectForUpdate id) → Prog Op Res (Out (.deliver e))),
      (service .transparent default).Reachable s ∧
      s.threads t = .running (.deliver e) (.op (.selectForUpdate id) c) ∧ ¬CanGoOn s t ∧
      t' ≠ t ∧ WaitsFor s.world t' (.selectForUpdate id) ∧ CanGoOn s t' ∧
      Terminates ((service .transparent default).Onward (Smoothly default))
        (fun s' => ∀ t, ¬(service .transparent default).Busy s' t) s := by
  obtain ⟨f, hf⟩ := bookCommand_validated.exists_fingerprint .transparent
  obtain ⟨p, _, s, h, -, hacc, hun⟩ := @exists_accepted .transparent default _ _ hf
  let m : Message :=
    { body := Runtime.transparent.encodeEvent ⟨paymentCreated, p.id, 0⟩
      headers := fun _ => none
      messageId := none
      correlationId := none }
  let e : Envelope := ⟨m, none, none⟩
  let n := s.born
  obtain ⟨c, hc⟩ := handleDelivery_locks (R := .transparent) default (m := m)
    (currentAttempt_of_none rfl)
    (Runtime.transparent.validateEvent_encodeEvent ⟨paymentCreated, p.id, 0⟩)
  -- the messages come in
  let w₁ : World := { s.world with broker := s.world.broker.accept [paymentsNewQueueName] e }
  let w₂ : World := { w₁ with broker := w₁.broker.accept [paymentsNewQueueName] e }
  have h₁ : (service .transparent default).Reachable ⟨w₁, s.threads, n⟩ :=
    h.step (.env (.foreign _ m))
  have h₂ : (service .transparent default).Reachable ⟨w₂, s.threads, n⟩ :=
    h₁.step (.env (.foreign _ m))
  have hq₂ : w₂.broker.queues paymentsNewQueueName = [e, e] := by
    simp [w₂, w₁, Broker.accept, hacc.broker]
  -- they are delivered
  let w₃ : World := { w₂ with broker := w₂.broker.deliver n e [e] }
  have hq₃ : w₃.broker.queues paymentsNewQueueName = [e] := by simp [w₃, Broker.deliver]
  let w₄ : World := { w₃ with broker := w₃.broker.deliver (n + 1) e [] }
  let x : (service .transparent default).Thread :=
    .running (.deliver e) (.op (.selectForUpdate p.id) c)
  have hx : (.running (.deliver e) (code .transparent default (.deliver e)) :
      (service .transparent default).Thread) = x :=
    congrArg (fun q => (.running (.deliver e) q : (service .transparent default).Thread)) hc
  have h₃ := h₂.step (.start (.head hq₂))
  have h₄ : (service .transparent default).Reachable
      ⟨w₄, Function.update (Function.update s.threads n x) (n + 1) x, n + 2⟩ :=
    h₃.step (hx ▸ .start (.head hq₃))
  -- the first of them locks the payment
  have hne : n ≠ n + 1 := (Nat.succ_ne_self n).symm
  have hfirst : Function.update (Function.update s.threads n x) (n + 1) x n = x := by
    rw [Function.update_of_ne hne, Function.update_self]
  have hrow : w₄.payments.rows p.id = some p := hacc.payment
  obtain ⟨s₅, h₅, hsecond, hlock⟩ : ∃ s₅ : (service .transparent default).State,
      (service .transparent default).Reachable s₅ ∧ s₅.threads (n + 1) = x ∧
      s₅.world.payments.lock p.id = some n := by
    refine ⟨_, h₄.step (.exec hfirst (.locked (w := w₄) (.inl hun.unlocked) hrow)), ?_, ?_⟩
    · exact (Function.update_of_ne hne.symm ..).trans (Function.update_self ..)
    · show (if p.id ∈ [p.id] then some n else w₄.payments.lock p.id) = some n
      exact if_pos (List.mem_singleton_self p.id)
  -- the second has to wait
  have hnot : ¬CanGoOn s₅ (n + 1) := not_canGoOn_of_locked hsecond hlock hne
  obtain ⟨hwaits, hreturn⟩ := service_completes h₅
  obtain ⟨t', hne', hw, hgo⟩ := (hwaits (n + 1) _ _ _ hsecond).resolve_left hnot
  exact ⟨s₅, n + 1, t', e, p.id, c, h₅, hsecond, hnot, hne', hw, hgo, hreturn⟩

end Payments
