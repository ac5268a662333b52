import PaymentProcessing.System.Calm
import PaymentProcessing.System.Copies
import PaymentProcessing.System.Progress

/-!
# The retry pipeline

A message and its payment in calm weather, when one thing happens at a time: a delivery is handled,
or a message has waited long enough and comes back. It ends (`retry_pipeline`), and what becomes of
the message is what the counter it starts with and the answers of the client say: it is accepted, or
refused, or was tried as often as it may be.
-/

namespace Payments

open Effects Python Store Relation

variable {R : Runtime} {cfg : Settings}

/-! ## One thing at a time -/

/-- A step of the service in calm weather. A message is delivered, and a message comes back, when
the delivery before it has been handled. -/
inductive CalmStep : (service R cfg).State × Outcomes → (service R cfg).State × Outcomes → Prop
  | deliver {s : (service R cfg).State} {σ : Outcomes} {e : Envelope} {w : World} (hi : Idle s)
      (h : Start s.born (.deliver e) s.world w) :
      CalmStep (s, σ) (⟨w, Function.update s.threads s.born
        (.running (.deliver e) (code R cfg (.deliver e))), s.born + 1⟩, σ)
  | exec {s : (service R cfg).State} {σ σ' : Outcomes} {t : ℕ} {k : Kind} {o : Op}
      {c : Res o → Prog Op Res (Out k)} {r : Res o} {w : World}
      (ht : s.threads t = .running k (.op o c)) (h : CalmExec cfg t o r (s.world, σ) (w, σ')) :
      CalmStep (s, σ) (⟨w, Function.update s.threads t (.running k (c r)), s.born⟩, σ')
  | expired {s : (service R cfg).State} {σ : Outcomes} {w : World} (hi : Idle s)
      (h : Expired cfg s.world w) : CalmStep (s, σ) (⟨w, s.threads, s.born⟩, σ)

/-- **Calm steps are steps of the service.** -/
theorem CalmStep.run {c c' : (service R cfg).State × Outcomes} (h : CalmStep c c') :
    (service R cfg).Run c.1 c'.1 := by
  cases h with
  | deliver hi h => exact .single (.start h)
  | @exec s σ σ' t k o c r w ht h =>
    cases h with
    | @intro _ _ _ _ clock hc hx _ =>
      have htick : (service R cfg).Step s ⟨{ s.world with clock := clock }, s.threads, s.born⟩ :=
        .env (.tick hc)
      exact .head htick (.single (.exec ht hx))
  | expired hi h => exact .single (.env (.expired h))

theorem calm_run {c c' : (service R cfg).State × Outcomes} (h : ReflTransGen CalmStep c c') :
    (service R cfg).Run c.1 c'.1 := by
  induction h with
  | refl => exact .refl
  | tail _ hs ih => exact ih.trans hs.run

/-! ## What becomes of a message -/

/-- One copy of `m` has been added to the dead-letter queue, with this counter. -/
def GivenUp (B : Broker) (m : Message) (count : ℕ) (w : World) : Prop :=
  ∃ e, w.broker.queues dlqName = B.queues dlqName ++ [e] ∧ e.message.body = m.body ∧
    e.message.messageId = m.messageId ∧ e.message.headers retryCountHeader = some (.int count)

/-- The payment was not notified, and has this many attempts. -/
def Unnotified (id : UUID) (attempts : ℕ) (w : World) : Prop :=
  ∃ p, w.payments.rows id = some p ∧ p.webhookDeliveredAt = none ∧ p.webhookLastError.isSome ∧
    p.webhookAttempts = attempts

/-- What becomes of a message with the counter `a` about a payment that has `attempts` attempts,
when `n` more retries are allowed and the client answers with `σ`; `B` is the broker before. -/
structure Fate (B : Broker) (id : UUID) (attempts : ℕ) (m : Message) (a n : ℕ) (σ : Outcomes)
    (w : World) : Prop where
  gone : w.broker.queues paymentsNewQueueName = [] ∧ ∀ i, w.broker.queues (retryQueueName i) = []
  acked : ∀ t, w.broker.unacked t → B.unacked t
  delivered : ∀ k ≤ n, (∀ j < k, (σ j).Transient) → (σ k).Delivers →
    w.broker.queues dlqName = B.queues dlqName ∧ ∃ p, w.payments.rows id = some p ∧
      p.webhookDeliveredAt.isSome ∧ p.webhookLastError = none ∧ p.webhookAttempts = attempts + k + 1
  refused : ∀ k ≤ n, (∀ j < k, (σ j).Transient) → ¬(σ k).Delivers → ¬(σ k).Transient →
    GivenUp B m (a + k) w ∧ Unnotified id (attempts + k + 1) w
  exhausted : (∀ j ≤ n, (σ j).Transient) →
    GivenUp B m (a + n) w ∧ Unnotified id (attempts + n + 1) w

section Fate

variable {B B' : Broker} {id : UUID} {attempts a n : ℕ} {m m' : Message} {σ : Outcomes} {w : World}

theorem GivenUp.congr {count : ℕ} (h : GivenUp B' m' count w)
    (hdlq : B'.queues dlqName = B.queues dlqName) (hbody : m'.body = m.body)
    (hid : m'.messageId = m.messageId) : GivenUp B m count w := by
  obtain ⟨e, hq, hb, hi, hc⟩ := h
  exact ⟨e, by rw [hq, hdlq], hb.trans hbody, hi.trans hid, hc⟩

theorem forall_lt_succ_transient {k : ℕ} (h : ∀ j < k + 1, (σ j).Transient) :
    ∀ j < k, (σ.tail j).Transient := fun j hj => h (j + 1) (by omega)

/-- After a transient failure the next answers decide. -/
theorem Fate.of_tail (h : Fate B' id (attempts + 1) m' (a + 1) n σ.tail w)
    (hσ : (σ 0).Transient) (hnot : ¬(σ 0).Delivers)
    (hdlq : B'.queues dlqName = B.queues dlqName) (hunacked : ∀ t, B'.unacked t → B.unacked t)
    (hbody : m'.body = m.body) (hid : m'.messageId = m.messageId) :
    Fate B id attempts m a (n + 1) σ w where
  gone := h.gone
  acked t ht := hunacked t (h.acked t ht)
  delivered k hk ht hd := by
    cases k with
    | zero => exact absurd hd hnot
    | succ k =>
      obtain ⟨hq, p, hp, hdel, herr, hatt⟩ :=
        h.delivered k (by omega) (forall_lt_succ_transient ht) hd
      exact ⟨hq.trans hdlq, p, hp, hdel, herr, by omega⟩
  refused k hk ht hd hn := by
    cases k with
    | zero => exact absurd hσ hn
    | succ k =>
      obtain ⟨hgiven, hun⟩ := h.refused k (by omega) (forall_lt_succ_transient ht) hd hn
      refine ⟨?_, ?_⟩
      · rw [show a + (k + 1) = a + 1 + k by omega]
        exact hgiven.congr hdlq hbody hid
      · rw [show attempts + (k + 1) + 1 = attempts + 1 + k + 1 by omega]
        exact hun
  exhausted ht := by
    obtain ⟨hgiven, hun⟩ := h.exhausted fun j hj => ht (j + 1) (by omega)
    refine ⟨?_, ?_⟩
    · rw [show a + (n + 1) = a + 1 + n by omega]
      exact hgiven.congr hdlq hbody hid
    · rw [show attempts + (n + 1) + 1 = attempts + 1 + n + 1 by omega]
      exact hun

/-- The first answer was that the notification is accepted. -/
theorem Fate.of_delivered (hd : (σ 0).Delivers) (ht : ¬(σ 0).Transient)
    (hgone : w.broker.queues paymentsNewQueueName = [] ∧ ∀ i, w.broker.queues (retryQueueName i) = [])
    (hacked : ∀ t, w.broker.unacked t → B.unacked t)
    (h : w.broker.queues dlqName = B.queues dlqName ∧ ∃ p, w.payments.rows id = some p ∧
      p.webhookDeliveredAt.isSome ∧ p.webhookLastError = none ∧ p.webhookAttempts = attempts + 1) :
    Fate B id attempts m a n σ w where
  gone := hgone
  acked := hacked
  delivered k _ hlt _ := by
    cases k with
    | zero => exact h
    | succ k => exact absurd (hlt 0 k.succ_pos) ht
  refused k _ hlt hnot _ := by
    cases k with
    | zero => exact absurd hd hnot
    | succ k => exact absurd (hlt 0 k.succ_pos) ht
  exhausted hall := absurd (hall 0 n.zero_le) ht

/-- The first answer was not, and it was the last one. -/
theorem Fate.of_givenUp (hd : ¬(σ 0).Delivers) (hlast : ¬(σ 0).Transient ∨ n = 0)
    (hgone : w.broker.queues paymentsNewQueueName = [] ∧ ∀ i, w.broker.queues (retryQueueName i) = [])
    (hacked : ∀ t, w.broker.unacked t → B.unacked t)
    (h : GivenUp B m a w ∧ Unnotified id (attempts + 1) w) : Fate B id attempts m a n σ w := by
  have hfirst : ∀ k ≤ n, (∀ j < k, (σ j).Transient) → k = 0 := by
    intro k hk hlt
    by_contra hne
    rcases hlast with ht | rfl
    · exact ht (hlt 0 (Nat.pos_of_ne_zero hne))
    · exact hne (Nat.le_zero.mp hk)
  refine ⟨hgone, hacked, fun k hk hlt hdel => ?_, fun k hk hlt _ _ => ?_, fun hall => ?_⟩
  · obtain rfl := hfirst k hk hlt
    exact absurd hdel hd
  · obtain rfl := hfirst k hk hlt
    exact h
  · rcases hlast with ht | rfl
    · exact absurd (hall 0 n.zero_le) ht
    · exact h

end Fate

/-! ## Stages -/

/-- The queues hold these messages and no others, beside the dead-letter queue. -/
structure Queues (B : Broker) (main : List Envelope) (retry : ℕ → List Envelope) : Prop where
  main : B.queues paymentsNewQueueName = main
  retry : ∀ n, B.queues (retryQueueName n) = retry n

namespace Queues

variable {B : Broker} {e : Envelope} {t : ℕ} {p : Publication}

theorem gone (h : Queues B [] fun _ => []) :
    B.queues paymentsNewQueueName = [] ∧ ∀ i, B.queues (retryQueueName i) = [] := ⟨h.main, h.retry⟩

theorem deliver (h : Queues B [e] fun _ => []) : Queues (B.deliver t e []) [] fun _ => [] := by
  refine ⟨by simp [Broker.deliver], fun n => ?_⟩
  simp [Broker.deliver, (retryQueueName_ne n).1, h.retry n]

theorem settle {main : List Envelope} {retry : ℕ → List Envelope} (h : Queues B main retry) :
    Queues (B.settle t) main retry := ⟨h.main, h.retry⟩

end Queues

section Routed

variable {B : Broker} {e : Envelope} {t : ℕ} {p : Publication} {q : RabbitQueue}

theorem dlq_deliver : (B.deliver t e []).queues dlqName = B.queues dlqName := by
  simp [Broker.deliver, paymentsNewQueueName_ne_dlqName.symm]

/-- A message that is routed to one queue. -/
theorem queues_routed (hroute : route cfg p.exchange p.routingKey = [q]) (name : String) :
    (B.routed cfg t p).queues name = B.queues name ++ if name = q.name then
      [⟨p.message, (B.delivered t).elim (some p.message) Envelope.origin, p.cause⟩] else [] := by
  unfold Broker.routed Broker.accept
  rw [hroute]
  by_cases hname : name = q.name
  · simp [hname]
  · simp [hname, Ne.symm hname]

end Routed

section Stages

variable {B : Broker} {e : Envelope} {t n : ℕ} {m : Message} {error : Exn}

variable (R cfg t n m error) in
/-- A message that is given up is in no queue but the dead-letter queue. -/
theorem Queues.routed_dlq (h : Queues B [] fun _ => []) :
    Queues (B.routed cfg t (dlqPublication R m n error)) [] (fun _ => []) ∧
      ∃ origin, (B.routed cfg t (dlqPublication R m n error)).queues dlqName =
        B.queues dlqName ++ [⟨routedMessage R m n error, origin, some error⟩] := by
  have hq := queues_routed (B := B) (t := t) (p := dlqPublication R m n error) (route_dlx cfg)
  have hname : dlqQueue.name = dlqName := rfl
  refine ⟨⟨?_, fun i => ?_⟩,
    (B.delivered t).elim (some (routedMessage R m n error)) Envelope.origin, ?_⟩
  · rw [hq, hname, if_neg paymentsNewQueueName_ne_dlqName, h.main]
    rfl
  · rw [hq, hname, if_neg (retryQueueName_ne i).2, h.retry]
    rfl
  · rw [hq, hname, if_pos rfl]
    rfl

variable (R cfg t m error) in
/-- A message that is to be tried again waits in the queue of its attempt. -/
theorem Queues.routed_retry (h : Queues B [] fun _ => []) (hn : n + 1 ≤ cfg.maxRetries) :
    ∃ origin, Queues (B.routed cfg t (retryPublication R m (n + 1) error)) []
        (fun i => if i = n + 1 then [⟨routedMessage R m (n + 1) error, origin, some error⟩] else []) ∧
      (B.routed cfg t (retryPublication R m (n + 1) error)).queues dlqName = B.queues dlqName := by
  have hq := queues_routed (B := B) (t := t) (p := retryPublication R m (n + 1) error)
    (route_retry cfg (Nat.le_add_left 1 n) hn)
  have hname : (retryQueue cfg (n + 1)).name = retryQueueName (n + 1) := rfl
  obtain ⟨hmain, hdlq⟩ := retryQueueName_ne (n + 1)
  refine ⟨(B.delivered t).elim (some (routedMessage R m (n + 1) error)) Envelope.origin,
    ⟨?_, fun i => ?_⟩, ?_⟩
  · rw [hq, hname, if_neg hmain.symm, h.main]
    rfl
  · rw [hq, hname, h.retry, List.nil_append]
    simp only [retryQueueName_injective.eq_iff]
    rfl
  · rw [hq, hname, if_neg hdlq.symm, List.append_nil]

/-- A message that has waited is the only one again. -/
theorem Queues.back (h : Queues B [] fun i => if i = n then [e] else []) (e' : Envelope) :
    Queues (B.move (retryQueueName n) [] [paymentsNewQueueName] e') [e'] (fun _ => []) ∧
      (B.move (retryQueueName n) [] [paymentsNewQueueName] e').queues dlqName =
        B.queues dlqName := by
  obtain ⟨hmain, hdlq⟩ := retryQueueName_ne n
  refine ⟨⟨?_, fun i => ?_⟩, ?_⟩
  · simp [Broker.move, Broker.accept, hmain.symm, h.main]
  · by_cases hi : i = n
    · subst hi
      simp [Broker.move, Broker.accept, hmain.symm]
    · have hne : retryQueueName i ≠ retryQueueName n := fun hn => hi (retryQueueName_injective hn)
      simp [Broker.move, Broker.accept, hne, (retryQueueName_ne i).1.symm, h.retry, hi]
  · simp [Broker.move, Broker.accept, hdlq.symm, paymentsNewQueueName_ne_dlqName]

end Stages

/-- A queue with one message. -/
theorem eq_of_singleton_eq {e e' : Envelope} {before after : List Envelope}
    (h : [e] = before ++ e' :: after) : before = [] ∧ e' = e ∧ after = [] := by
  cases before with
  | nil => simpa [eq_comm] using h
  | cons b before => simp at h

/-- **Nothing is left to do.** -/
theorem no_calmStep {s : (service R cfg).State} {σ : Outcomes} (hi : Idle s)
    (hq : Queues s.world.broker [] fun _ => []) (c : (service R cfg).State × Outcomes) :
    ¬CalmStep (s, σ) c := by
  intro h
  cases h with
  | deliver _ h =>
    cases h with
    | deliver h =>
      rw [hq.main] at h
      simp at h
  | exec ht _ => exact hi _ _ _ _ ht
  | expired _ h =>
    obtain ⟨n, before, after, e, headers, hqueue, -⟩ := h.retry
    rw [hq.retry n] at hqueue
    simp at hqueue

/-- A message that waits in `payments.new` is delivered. -/
theorem calmStep_of_main {s : (service R cfg).State} {σ : Outcomes} {e : Envelope} (hi : Idle s)
    (hq : Queues s.world.broker [e] fun _ => []) {c : (service R cfg).State × Outcomes}
    (h : CalmStep (s, σ) c) :
    c = (⟨{ s.world with broker := s.world.broker.deliver s.born e [] },
      Function.update s.threads s.born (.running (.deliver e) (code R cfg (.deliver e))),
      s.born + 1⟩, σ) := by
  cases h with
  | deliver _ h =>
    cases h with
    | deliver h =>
      rw [hq.main] at h
      obtain ⟨rfl, rfl, rfl⟩ := eq_of_singleton_eq h
      rfl
  | exec ht _ => exact absurd ht (hi _ _ _ _)
  | expired _ h =>
    obtain ⟨n, before, after, e, headers, hqueue, -⟩ := h.retry
    rw [hq.retry n] at hqueue
    simp at hqueue

/-- A message that waits to be tried again comes back. -/
theorem calmStep_of_retry {s : (service R cfg).State} {σ : Outcomes} {e : Envelope} {n : ℕ}
    (hi : Idle s) (hq : Queues s.world.broker [] fun i => if i = n then [e] else [])
    {c : (service R cfg).State × Outcomes} (h : CalmStep (s, σ) c) :
    ∃ headers : Headers, (∀ key, key ∉ brokerOwnedHeaders → headers key = e.message.headers key) ∧
      c = (⟨{ s.world with
        broker := s.world.broker.move (retryQueueName n) [] [paymentsNewQueueName]
          { e with message := { e.message with headers := headers } } }, s.threads, s.born⟩, σ) := by
  cases h with
  | deliver _ h =>
    cases h with
    | deliver h =>
      rw [hq.main] at h
      simp at h
  | exec ht _ => exact absurd ht (hi _ _ _ _)
  | expired _ h =>
    obtain ⟨i, before, after, e', headers, hqueue, hh, rfl⟩ := h.retry
    rw [hq.retry i] at hqueue
    by_cases hin : i = n
    · subst hin
      rw [if_pos rfl] at hqueue
      obtain ⟨rfl, rfl, rfl⟩ := eq_of_singleton_eq hqueue
      exact ⟨headers, hh, rfl⟩
    · simp [hin] at hqueue

/-! ## One delivery -/

section Delivery

variable {s : (service R cfg).State} {σ : Outcomes} {e : Envelope} {id : UUID} {p : Payment} {a : ℕ}

/-- A thread that has not been started has written nothing. -/
theorem wrote_born (h : (service R cfg).Reachable s) : s.world.payments.Wrote s.born [] := by
  obtain ⟨v, hv, htr⟩ := Machine.Spec.tracked (serviceSpec R cfg) h
  have hk := knowing hv v.born
  rw [hv.unborn.mpr le_rfl, htr.world, htr.born] at hk
  exact hk.1

/-- When nobody has anything to do, no payment is locked. -/
theorem Idle.lock_eq_none (hi : Idle s) (hv : (service R cfg).Reachable s) (id : UUID) :
    s.world.payments.lock id = none := by
  obtain ⟨v, hv, htr⟩ := Machine.Spec.tracked (serviceSpec R cfg) hv
  rw [← htr.world]
  refine Option.eq_none_iff_forall_ne_some.mpr fun t => unlocked hv (fun φ hφ => ?_) id
  have hthread := htr.thread t
  rw [hφ] at hthread
  generalize hs : s.threads t = x at hthread
  cases hthread with
  | @running k p _ hp =>
    cases p with
    | op o c => exact absurd hs (hi t k o c)
    | ret out =>
      cases k with
      | create c =>
        obtain ⟨ψ, rfl, -⟩ := hp
        rfl
      | relay =>
        obtain rfl : φ = .relay .closing := hp
        rfl
      | deliver e =>
        rcases (show φ = _ ∨ φ = _ from hp) with rfl | rfl <;> rfl

/-- A thread that has returned has no operation to execute. -/
theorem Idle.returned (hi : Idle s) {t : ℕ} {k : Kind} {out : Out k} {w : World} {n : ℕ} :
    Idle (⟨w, Function.update s.threads t (.running k (.ret out)), n⟩ : (service R cfg).State) := by
  intro t' k' o c ht
  by_cases htt : t' = t
  · subst htt
    cases (Function.update_self t' _ s.threads).symm.trans ht
  · exact hi t' k' o c ((Function.update_of_ne htt _ _).symm.trans ht)

variable (s e) in
/-- The service while a delivery of `e` has yet to execute `p`. -/
def handling (p : Prog Op Res (Except Exn Unit)) (x : World × Outcomes) :
    (service R cfg).State × Outcomes :=
  (⟨x.1, Function.update s.threads s.born (.running (.deliver e) p), s.born + 1⟩, x.2)

theorem handling_exec {o : Op} {k : Res o → Prog Op Res (Except Exn Unit)} {r : Res o}
    {x x' : World × Outcomes} (h : CalmExec cfg s.born o r x x') :
    CalmStep (handling s e (.op o k) x) (handling s e (k r) x') := by
  have hself : (handling s e (.op o k) x).1.threads s.born = .running (.deliver e) (.op o k) :=
    Function.update_self ..
  have hstep := CalmStep.exec hself h
  unfold handling at hstep ⊢
  rwa [Function.update_idem] at hstep

/-- Nothing else happens meanwhile. -/
theorem handling_only (hi : Idle s) {o : Op} {k : Res o → Prog Op Res (Except Exn Unit)}
    {x : World × Outcomes} {c : (service R cfg).State × Outcomes}
    (h : CalmStep (handling s e (.op o k) x) c) :
    ∃ r x', CalmExec cfg s.born o r x x' ∧ c = handling s e (k r) x' := by
  have hself : (handling s e (.op o k) x).1.threads s.born = .running (.deliver e) (.op o k) :=
    Function.update_self ..
  generalize hc : handling s e (.op o k) x = c₀ at h hself
  cases h with
  | deliver hi' _ => exact absurd hself (hi' _ _ _ _)
  | expired hi' _ => exact absurd hself (hi' _ _ _ _)
  | @exec s₁ σ₁ σ' t k' o' c' r w ht hx =>
    obtain ⟨rfl, rfl⟩ := Prod.mk.inj hc
    by_cases htt : t = s.born
    · subst htt
      cases (Function.update_self s.born _ s.threads).symm.trans ht
      refine ⟨r, (w, σ'), hx, ?_⟩
      unfold handling
      rw [Function.update_idem]
    · exact absurd ((Function.update_of_ne htt _ _).symm.trans ht) (hi _ _ _ _)

/-- **A waiting message is delivered and handled.** -/
theorem terminates_of_handled {Q : (service R cfg).State × Outcomes → Prop}
    (hv : (service R cfg).Reachable s) (hi : Idle s) (hq : Queues s.world.broker [e] fun _ => [])
    (hrow : s.world.payments.rows id = some p) (hw : p.wantsWebhook)
    (hd : p.webhookDeliveredAt = none)
    (hm : eventPayment R e.message = some id) (ha : currentAttempt e.message.headers = .ok a)
    (hend : ∀ s' σ', (service R cfg).Reachable s' → Idle s' →
      Handled R cfg s.born id (s.world.broker.deliver s.born e []) e.message a p σ (s'.world, σ') →
      Terminates CalmStep Q (s', σ')) : Terminates CalmStep Q (s, σ) := by
  have hstart : Start s.born (.deliver e) s.world
      { s.world with broker := s.world.broker.deliver s.born e ([] ++ []) } :=
    .deliver (by rw [hq.main]; rfl)
  refine .go (.deliver hi hstart) fun c hc => ?_
  have hrun := hc.run
  obtain rfl := calmStep_of_main hi hq hc
  have hsees : Sees s.born id (s.world.broker.deliver s.born e []) p none [] σ
      ({ s.world with broker := s.world.broker.deliver s.born e [] }, σ) :=
    ⟨s.world.payments.key_rows hrow, hrow, hi.lock_eq_none hv id, wrote_born hv, rfl, rfl⟩
  have hunacked : (s.world.broker.deliver s.born e []).unacked s.born = true :=
    Function.update_self ..
  refine Terminates.of_wp (C := handling s e) handling_exec (handling_only hi)
    (handleDelivery_calm ha hm hunacked hsees hw hd) fun out x hpost hr => ?_
  cases out with
  | error err => exact hpost.elim
  | ok u => exact hend _ _ ((hv.run hrun).run (calm_run hr)) hi.returned hpost

end Delivery

/-! ## The whole run -/

variable (R cfg) in
/-- What a failed message is published to. -/
theorem failurePublication_cases (m : Message) (a : ℕ) (error : Exn) :
    ((error.isPermanent ∨ cfg.maxRetries ≤ a) ∧
      failurePublication R cfg m a error = dlqPublication R m a error) ∨
    (error.isPermanent = false ∧ a + 1 ≤ cfg.maxRetries ∧
      failurePublication R cfg m a error = retryPublication R m (a + 1) error) := by
  unfold failurePublication
  split
  · exact .inl ⟨.inl ‹_›, rfl⟩
  · split
    · exact .inl ⟨.inr (by omega), rfl⟩
    · exact .inr ⟨by simpa using ‹¬error.isPermanent = true›, by omega, rfl⟩

section Run

variable {s : (service R cfg).State} {σ : Outcomes} {e : Envelope} {id : UUID} {p : Payment} {a : ℕ}

/-- A message that waits in a retry queue comes back. -/
theorem terminates_of_back {Q : (service R cfg).State × Outcomes → Prop} {n : ℕ}
    (hv : (service R cfg).Reachable s) (hi : Idle s)
    (hq : Queues s.world.broker [] fun i => if i = n then [e] else []) (h1 : 1 ≤ n)
    (hn : n ≤ cfg.maxRetries)
    (hend : ∀ (headers : Headers) (s' : (service R cfg).State), (service R cfg).Reachable s' →
      Idle s' → (∀ key, key ∉ brokerOwnedHeaders → headers key = e.message.headers key) →
      s'.world = { s.world with
        broker := s.world.broker.move (retryQueueName n) [] [paymentsNewQueueName]
          { e with message := { e.message with headers := headers } } } →
      Terminates CalmStep Q (s', σ)) : Terminates CalmStep Q (s, σ) := by
  have hdecl : retryQueue cfg n ∈ queues cfg :=
    mem_queues_of_mem_route cfg (by rw [route_retry cfg h1 hn]; exact List.mem_singleton_self _)
  have hqueue : s.world.broker.queues (retryQueue cfg n).name = [] ++ e :: [] :=
    (hq.retry n).trans (if_pos rfl)
  refine .go (.expired hi (.intro hdecl rfl rfl hqueue fun _ _ => rfl)) fun c hc => ?_
  have hrun := hc.run
  obtain ⟨headers, hh, rfl⟩ := calmStep_of_retry hi hq hc
  exact hend headers _ (hv.run hrun) hi hh rfl

/-- The broker once a delivery of the waiting message is settled; only deliveries that were not
settled before are unsettled. -/
theorem unacked_of_settle (e : Envelope) {B B' : Broker} {t : ℕ}
    (hB : B'.unacked = (B.deliver t e []).unacked) {t' : ℕ} (h : (B'.settle t).unacked t') :
    B.unacked t' := by
  by_cases ht : t' = t
  · subst ht
    simp [Broker.settle] at h
  · simpa [Broker.settle, hB, Broker.deliver, ht] using h

variable {s' : (service R cfg).State} {σ' : Outcomes} {p₁ : Payment} {n : ℕ}

/-- The notification was accepted. -/
theorem terminates_delivered (hq : Queues s.world.broker [e] fun _ => [])
    (hp : p.SameNotifications p₁) (hi : Idle s') (hσ : classify (σ 0).answer = .ok ()) {now : Time}
    (h : Sees s.born id ((s.world.broker.deliver s.born e []).settle s.born) (p₁.delivered now)
      none [] σ.tail (s'.world, σ')) :
    Terminates CalmStep (fun c => Fate s.world.broker id p.webhookAttempts e.message a n σ c.1.world)
      (s', σ') := by
  obtain ⟨hdel, hnt⟩ := WebhookOutcome.of_classify_ok hσ
  have hb := h.broker
  have hq' : Queues s'.world.broker [] fun _ => [] := hb ▸ hq.deliver.settle
  refine .stop (no_calmStep hi hq') (.of_delivered hdel hnt hq'.gone (fun t ht => ?_)
    ⟨?_, _, h.row, rfl, rfl, congrArg (· + 1) hp.webhookAttempts⟩)
  · rw [hb] at ht
    exact unacked_of_settle e rfl ht
  · rw [hb]
    exact dlq_deliver (B := s.world.broker) (t := s.born) (e := e)

/-- The notification was refused, or there are no retries left. -/
theorem terminates_givenUp (hq : Queues s.world.broker [e] fun _ => [])
    (hd : p.webhookDeliveredAt = none) (hp : p.SameNotifications p₁) (hi : Idle s') {error : Exn}
    (hσ : classify (σ 0).answer = .error error) (hlast : error.isPermanent ∨ n = 0)
    (h : Sees s.born id (((s.world.broker.deliver s.born e []).routed cfg s.born
      (dlqPublication R e.message a error)).settle s.born) (p₁.undelivered (errorText R error))
      none [] σ.tail (s'.world, σ')) :
    Terminates CalmStep (fun c => Fate s.world.broker id p.webhookAttempts e.message a n σ c.1.world)
      (s', σ') := by
  obtain ⟨hnd, htrans⟩ := WebhookOutcome.of_classify_error hσ
  obtain ⟨hq₂, origin, hdlq⟩ := (hq.deliver (t := s.born)).routed_dlq R cfg s.born a
    e.message error
  have hb := h.broker
  have hq' : Queues s'.world.broker [] fun _ => [] := hb ▸ hq₂.settle
  have hlast' : ¬(σ 0).Transient ∨ n = 0 :=
    hlast.imp_left fun hperm ht => by simp [htrans.mp ht] at hperm
  refine .stop (no_calmStep hi hq') (.of_givenUp hnd hlast' hq'.gone (fun t ht => ?_)
    ⟨⟨⟨routedMessage R e.message a error, origin, some error⟩, ?_, rfl, rfl, rfl⟩,
      _, h.row, hp.webhookDeliveredAt.trans hd, rfl, congrArg (· + 1) hp.webhookAttempts⟩)
  · rw [hb] at ht
    exact unacked_of_settle e rfl ht
  · rw [hb]
    exact hdlq.trans (by rw [dlq_deliver])

/-- The notification is tried again. -/
theorem terminates_retry (hv : (service R cfg).Reachable s')
    (hq : Queues s.world.broker [e] fun _ => []) (hi : Idle s') {error : Exn}
    (hσ : classify (σ 0).answer = .error error) (hperm : error.isPermanent = false)
    (hmax : a + 1 ≤ cfg.maxRetries)
    (h : Sees s.born id (((s.world.broker.deliver s.born e []).routed cfg s.born
      (retryPublication R e.message (a + 1) error)).settle s.born)
      (p₁.undelivered (errorText R error)) none [] σ.tail (s'.world, σ'))
    (hnext : ∀ (s'' : (service R cfg).State) (e' : Envelope), (service R cfg).Reachable s'' →
      Idle s'' → Queues s''.world.broker [e'] (fun _ => []) →
      s''.world.payments = s'.world.payments → e'.message.body = e.message.body →
      currentAttempt e'.message.headers = .ok (a + 1) →
      Terminates CalmStep (fun c => Fate s''.world.broker id (p.webhookAttempts + 1) e'.message
        (a + 1) n σ' c.1.world) (s'', σ')) :
    Terminates CalmStep (fun c => Fate s.world.broker id p.webhookAttempts e.message a (n + 1) σ
      c.1.world) (s', σ') := by
  obtain ⟨hnd, htrans⟩ := WebhookOutcome.of_classify_error hσ
  obtain ⟨origin, hq₂, hdlq⟩ := (hq.deliver (t := s.born)).routed_retry R cfg s.born
    e.message error hmax
  have hb := h.broker
  have hq' := hq₂.settle (t := s.born)
  rw [← hb] at hq'
  refine terminates_of_back hv hi hq' (Nat.le_add_left 1 a) hmax
    fun headers s'' hv'' hi'' hh hw => ?_
  obtain ⟨hq'', hdlq''⟩ := hq'.back ⟨{ routedMessage R e.message (a + 1) error with
    headers := headers }, origin, some error⟩
  have hcount : headers retryCountHeader = some (.int (a + 1 : ℕ)) := hh _ (by decide)
  have hend := hnext s'' ⟨{ routedMessage R e.message (a + 1) error with headers := headers },
    origin, some error⟩ hv'' hi'' (by rw [hw]; exact hq'') (by rw [hw]) rfl
    (currentAttempt_of_int hcount)
  obtain rfl : σ' = σ.tail := h.outcomes
  refine hend.mono fun c hc => hc.of_tail (htrans.mpr hperm) hnd ?_ (fun t ht => ?_) rfl rfl
  · rw [hw]
    exact hdlq''.trans (by rw [hb]; exact hdlq.trans dlq_deliver)
  · rw [hw] at ht
    change s'.world.broker.unacked t at ht
    rw [hb] at ht
    exact unacked_of_settle e rfl ht

/-- **The pipeline ends**, by induction on the number of retries that are left. -/
theorem terminates_pipeline {n : ℕ} (hn : cfg.maxRetries - a = n)
    (hv : (service R cfg).Reachable s) (hi : Idle s) (hq : Queues s.world.broker [e] fun _ => [])
    (hrow : s.world.payments.rows id = some p) (hw : p.wantsWebhook)
    (hd : p.webhookDeliveredAt = none)
    (hm : eventPayment R e.message = some id) (ha : currentAttempt e.message.headers = .ok a) :
    Terminates CalmStep (fun c => Fate s.world.broker id p.webhookAttempts e.message a n σ c.1.world)
      (s, σ) := by
  induction n using Nat.strong_induction_on generalizing s σ e p a with
  | _ n ih =>
    refine terminates_of_handled hv hi hq hrow hw hd hm ha fun s' σ' hv' hi' hh => ?_
    cases hh with
    | delivered hp hσ h => exact terminates_delivered hq hp hi' hσ h
    | @routed p₁ error hp hσ h =>
      rcases failurePublication_cases R cfg e.message a error with ⟨hlast, heq⟩ | ⟨hperm, hmax, heq⟩
      · rw [heq] at h
        exact terminates_givenUp hq hd hp hi' hσ (hlast.imp_right fun hmax => by omega) h
      · rw [heq] at h
        obtain ⟨n, rfl⟩ : ∃ n', n = n' + 1 := ⟨n - 1, by omega⟩
        refine terminates_retry hv' hq hi' hσ hperm hmax h
          fun s'' e' hv'' hi'' hq'' hpay hbody ha' => ?_
        have hatt : (p₁.undelivered (errorText R error)).webhookAttempts = p.webhookAttempts + 1 :=
          congrArg (· + 1) hp.webhookAttempts
        have hw' : (p₁.undelivered (errorText R error)).wantsWebhook := by
          rwa [Payment.wantsWebhook, Payment.undelivered, hp.webhookUrl]
        rw [← hatt]
        exact ih n (Nat.lt_succ_self n) (by omega) hv'' hi'' hq'' (by rw [hpay]; exact h.row) hw'
          (hp.webhookDeliveredAt.trans hd) ((eventPayment_congr hbody).trans hm) ha'

end Run

/-- **The retry pipeline does what its settings promise.** A message with the counter `a` about a
payment whose client has not been notified is handled in calm weather until it is gone, whatever the
client answers: with `n` for the retries that are left, it is handled at most `n + 1` times. If the
first answer that is not transient comes within these and is a success, the payment is notified; if
it is a refusal, one copy with the counter it was refused with is in the dead-letter queue; and if
there is none, one copy with the highest counter. -/
theorem retry_pipeline {s : (service R cfg).State} (hv : (service R cfg).Reachable s) (hi : Idle s)
    {id : UUID} {p : Payment} (hrow : s.world.payments.rows id = some p) (hw : p.wantsWebhook)
    (hd : p.webhookDeliveredAt = none) {e : Envelope} (hm : eventPayment R e.message = some id)
    {a : ℕ} (ha : currentAttempt e.message.headers = .ok a)
    (hq : s.world.broker.queues paymentsNewQueueName = [e] ∧
      ∀ n, s.world.broker.queues (retryQueueName n) = []) (σ : Outcomes) :
    Terminates CalmStep (fun c => Fate s.world.broker id p.webhookAttempts e.message a
      (cfg.maxRetries - a) σ c.1.world) (s, σ) :=
  terminates_pipeline rfl hv hi ⟨hq.1, hq.2⟩ hrow hw hd hm ha

/-- The client is not available twice, and then accepts the notification. -/
def comingBack : Outcomes := fun i => if i < 2 then .status 503 else .status 200

/-- The shop is notified of the payment for the book by the third attempt. -/
theorem retry_pipeline_published :
    ∃ (s : (service .transparent default).State) (p : Payment) (m : OutboxMessage),
      Published bookCommand p m s ∧
        Terminates CalmStep (fun c => c.1.world.broker.queues dlqName = s.world.broker.queues dlqName ∧
          ∃ p', c.1.world.payments.rows p.id = some p' ∧ p'.webhookDeliveredAt.isSome ∧
            p'.webhookLastError = none ∧ p'.webhookAttempts = p.webhookAttempts + 3)
          (s, comingBack) := by
  obtain ⟨p, m, s, h⟩ := exists_book_published
  obtain ⟨hrow, hpending, hurl, hdel, hm, hpub, hpay, hmain, hretry⟩ := h.relayed
  have hw : p.wantsWebhook := by
    rw [Payment.wantsWebhook, hurl]
    decide
  have hid : eventPayment .transparent (relayed .transparent m).message = some p.id := by
    rw [← hpay]
    exact eventPayment_outboxPublication m
  have hend := retry_pipeline h.reachable h.idle hrow hw hdel hid (a := 0) rfl ⟨hmain, hretry⟩
    comingBack
  refine ⟨s, p, m, h, hend.mono fun c hc => hc.delivered 2 (by decide) (fun j hj => ?_) ?_⟩
  · rw [comingBack, if_pos hj]
    exact .inl (by decide)
  · exact ⟨by decide, by decide⟩

end Payments
