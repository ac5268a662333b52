import PaymentProcessing.Foundations.Effects.Completion
import PaymentProcessing.Properties.Records
import PaymentProcessing.System.Copies
import PaymentProcessing.System.Handling

/-!
# Recovery

All processes are killed in the middle of whatever they do, and started again (`Restarted`). What
the service then does in an orderly way, without new requests, is `OwnRun`: a relay takes the first
rows that are eligible, messages leave the queues at the head, and time passes. A payment that waits
for something still waits for it after the restart (`Restarted.underway`), and as long as anything
is left to do the service can do the next thing, which takes nothing away from any payment
(`exists_settled`).
-/

namespace Payments

open Effects Python Store Relation

variable {R : Runtime} {cfg : Settings}

/-! ## The steps of the service -/

/-- **An orderly step of the service** that is no new request and no message of somebody else: no
message overtakes another in its queue. -/
inductive OwnStep : (service R cfg).State → (service R cfg).State → Prop
  | relay (s : (service R cfg).State) :
      OwnStep s ⟨s.world, Function.update s.threads s.born (.running .relay (code R cfg .relay)),
        s.born + 1⟩
  | deliver {s : (service R cfg).State} {e : Envelope} {after : List Envelope}
      (h : s.world.broker.queues paymentsNewQueueName = e :: after) :
      OwnStep s ⟨{ s.world with broker := s.world.broker.deliver s.born e after },
        Function.update s.threads s.born (.running (.deliver e) (code R cfg (.deliver e))),
        s.born + 1⟩
  | exec {s : (service R cfg).State} {t : ℕ} {k : Kind} {o : Op} {c : Res o → Prog Op Res (Out k)}
      {r : Res o} {w : World} (ht : s.threads t = .running k (.op o c))
      (h : Exec cfg t o r s.world w) (ho : InOrder s.world o r) :
      OwnStep s ⟨w, Function.update s.threads t (.running k (c r)), s.born⟩
  | tick {s : (service R cfg).State} {clock : Time} (h : s.world.clock ≤ clock) :
      OwnStep s ⟨{ s.world with clock := clock }, s.threads, s.born⟩
  | expired {s : (service R cfg).State} {n : ℕ} (h1 : 1 ≤ n) (hn : n ≤ cfg.maxRetries)
      {e : Envelope} {after : List Envelope}
      (h : s.world.broker.queues (retryQueueName n) = e :: after) {headers : Headers}
      (hh : ∀ key, key ∉ brokerOwnedHeaders → headers key = e.message.headers key) :
      OwnStep s ⟨{ s.world with
        broker := s.world.broker.move (retryQueueName n) after [paymentsNewQueueName]
          { e with message := { e.message with headers := headers } } }, s.threads, s.born⟩

/-- Any number of such steps. -/
abbrev OwnRun : (service R cfg).State → (service R cfg).State → Prop := ReflTransGen OwnStep

/-- **They are steps of the service.** -/
theorem OwnStep.step {s s' : (service R cfg).State} (h : OwnStep s s') :
    (service R cfg).Step s s' := by
  cases h with
  | relay => exact .start (.relay _)
  | deliver h => exact .start (.head h)
  | exec ht h _ => exact .exec ht h
  | tick h => exact .env (.tick h)
  | @expired n h1 hn e after h headers hh =>
    have hmem : retryQueue cfg n ∈ queues cfg :=
      mem_queues_of_mem_route cfg (by rw [route_retry cfg h1 hn]; exact List.mem_singleton_self _)
    have h' : s.world.broker.queues (retryQueue cfg n).name = [] ++ e :: after := h
    have hexpired : Expired cfg s.world _ := .intro hmem rfl rfl h' hh
    rw [route_payments] at hexpired
    exact .env (.expired hexpired)

theorem OwnRun.run {s s' : (service R cfg).State} (h : OwnRun s s') : (service R cfg).Run s s' := by
  induction h with
  | refl => exact .refl
  | tail _ hs ih => exact ih.tail hs.step

/-- A thread is started, and does what its code can. -/
theorem ownRun_of_wp {w : World} (threads : ℕ → (service R cfg).Thread) {t : ℕ} (born : ℕ)
    {k : Kind} {p : Prog Op Res (Out k)} {post : Out k → World → Prop}
    (hp : p.wp (.possible (ExecInOrder cfg t)) post w) :
    ∃ a w', post a w' ∧ OwnRun (⟨w, Function.update threads t (.running k p), born⟩ :
      (service R cfg).State) ⟨w', Function.update threads t (.running k (.ret a)), born⟩ := by
  refine exists_run_of_wp (C := fun (p : Prog Op Res (Out k)) w =>
    (⟨w, Function.update threads t (.running k p), born⟩ : (service R cfg).State)) ?_ hp
  intro o c r w w' hx
  have hs := OwnStep.exec (s := ⟨w, Function.update threads t (.running k (.op o c)), born⟩)
    (Function.update_self t _ threads) hx.1 hx.2
  rwa [Function.update_idem] at hs

/-! ## Stopped states -/

/-- No thread is running. -/
def Stopped (s : (service R cfg).State) : Prop := ∀ t k p, s.threads t ≠ .running k p

namespace Broker

/-- Thread `t` has no delivery that is not settled. -/
def Cleared (B : Broker) (t : ℕ) : Prop := ∀ e, B.delivered t = some e → B.unacked t = false

theorem cleared_requeue_self (B : Broker) (t : ℕ) : (B.requeue t).Cleared t := by
  intro e he
  rw [delivered_requeue] at he
  cases hu : B.unacked t with
  | false =>
    rcases B.requeue_cases t with heq | ⟨_, _, hu', _⟩
    · rw [heq, hu]
    · exact absurd hu' (by simp [hu])
  | true => simp [requeue, he, hu, settle]

theorem Cleared.requeue {B : Broker} {t : ℕ} (h : B.Cleared t) (t' : ℕ) :
    (B.requeue t').Cleared t := by
  by_cases ht : t = t'
  · subst ht
    exact B.cleared_requeue_self t
  · intro e he
    rw [unacked_requeue ht]
    exact h e (by rwa [delivered_requeue] at he)

end Broker

/-- **A thread that is not running has locked no event, and has no delivery to settle.** -/
theorem left_nothing {v : View R cfg} (h : (serviceSpec R cfg).Reachable v) {t : ℕ}
    (ht : ∀ φ, v.status t ≠ .active φ) :
    (∀ id, v.world.outbox.lock id ≠ some t) ∧ v.world.broker.Cleared t := by
  refine h.threadwise (P := fun w t (y : Status R cfg) => (∀ φ, y ≠ .active φ) →
    (∀ id, w.outbox.lock id ≠ some t) ∧ w.broker.Cleared t) ?_ ?_ ?_ ?_ t ht
  · rintro w t ⟨clock, rfl⟩ -
    exact ⟨by simp [World.initial, Table.empty], by simp [World.initial, Broker.Cleared]⟩
  · intro v t w y hv ih ha hy
    cases ha with
    | start => exact absurd rfl (hy _)
    | exec => exact absurd rfl (hy _)
    | crash hst hw =>
      obtain rfl : w = World.crash v.world t := hw
      refine ⟨fun id hl => ?_, v.world.broker.cleared_requeue_self t⟩
      have hrel : v.world.outbox.released t id = some t := hl
      unfold Table.released at hrel
      split at hrel <;> simp_all
  · intro v t t' w y hv ih ha htt hy
    obtain ⟨hlock, hcleared⟩ := ih t' hy
    refine ⟨fun id hl => ?_, ?_⟩
    · exact hlock id ((seen_of_acts ha (knowing hv t)).outbox.lock_back htt hl)
    · cases ha with
      | start hst =>
        cases hst with
        | create => exact hcleared
        | relay => exact hcleared
        | deliver =>
          intro e he
          have he : v.world.broker.delivered t' = some e :=
            (Function.update_of_ne htt _ _).symm.trans he
          exact (Function.update_of_ne htt _ _).trans (hcleared e he)
      | exec hst hm hx =>
        intro e he
        rw [Exec.unacked hx htt]
        exact hcleared e (by rwa [Exec.delivered hx] at he)
      | crash hst hw =>
        obtain rfl : w = World.crash v.world t := hw
        exact hcleared.requeue t
  · intro w w' t y hy he hidle
    obtain ⟨hlock, hcleared⟩ := hy hidle
    refine ⟨by rwa [(Environment.same he).2.2.1], ?_⟩
    cases he with
    | tick => exact hcleared
    | expired he =>
      cases he
      exact hcleared
    | foreign => exact hcleared
    | channelLost t' => exact hcleared.requeue t'

/-- What is known of a stopped state. -/
theorem Stopped.atRest {s : (service R cfg).State} (hq : Stopped s)
    (h : (service R cfg).Reachable s) : AtRest s.world ∧ ∀ t, s.world.broker.Cleared t := by
  obtain ⟨v, hv, htr⟩ := Machine.Spec.tracked (serviceSpec R cfg) h
  have hidle : ∀ t φ, v.status t ≠ .active φ := by
    intro t φ hst
    have htrack := htr.thread t
    rw [hst] at htrack
    generalize hth : s.threads t = x at htrack
    cases htrack with
    | running => exact hq t _ _ hth
  have hnone : ∀ {o : Option ℕ}, (∀ t, o ≠ some t) → o = none := by
    intro o ho
    cases o with
    | none => rfl
    | some t => exact absurd rfl (ho t)
  rw [← htr.world]
  refine ⟨⟨fun id => hnone fun t => ?_, fun id => hnone fun t => ?_, fun t => ?_⟩, fun t => ?_⟩
  · exact unlocked hv (fun φ hφ => absurd hφ (hidle t φ)) id
  · exact (left_nothing hv (hidle t)).1 id
  · have hk := knowing hv t
    cases hst : v.status t with
    | active φ => exact absurd hst (hidle t φ)
    | unborn =>
      rw [hst] at hk
      exact hk
    | crashed =>
      rw [hst] at hk
      exact hk
  · exact (left_nothing hv (hidle t)).2

/-! ## What a payment waits for -/

variable (R cfg) in
/-- The event of the payment is in the outbox and not published, or a message about it whose counter
can be read is ready, delivered and not settled, or waiting to be tried again. -/
inductive Awaits (w : World) (id : UUID) : Prop
  | event {messageId : UUID} {m : OutboxMessage} (hm : w.outbox.rows messageId = some m)
      (ha : m.aggregateId = id) (hp : m.publishedAt = none)
  | ready {e : Envelope} {attempt : ℕ} (hid : eventPayment R e.message = some id)
      (ha : currentAttempt e.message.headers = .ok attempt)
      (he : e ∈ w.broker.queues paymentsNewQueueName)
  | delivered {e : Envelope} {attempt t : ℕ} (hid : eventPayment R e.message = some id)
      (ha : currentAttempt e.message.headers = .ok attempt)
      (hd : w.broker.delivered t = some e) (hu : w.broker.unacked t = true)
  | waiting {e : Envelope} {attempt n : ℕ} (hid : eventPayment R e.message = some id)
      (ha : currentAttempt e.message.headers = .ok attempt) (h1 : 1 ≤ n) (hn : n ≤ cfg.maxRetries)
      (he : e ∈ w.broker.queues (retryQueueName n))

section Awaits

variable {w : World} {id : UUID}

/-- What a payment waits for is not lost when a thread is killed. -/
theorem Awaits.crash (h : Awaits R cfg w id) (t : ℕ) : Awaits R cfg (w.crash t) id := by
  cases h with
  | event hm ha hp => exact .event hm ha hp
  | ready hid ha he => exact .ready hid ha (Broker.mem_requeue_of_mem he)
  | @delivered e attempt t' hid ha hd hu =>
    rcases Broker.held_requeue hd hu t with hu' | he
    · refine .delivered (t := t') hid ha ?_ hu'
      change (w.broker.requeue t).delivered t' = some e
      rwa [Broker.delivered_requeue]
    · exact .ready hid ha he
  | waiting hid ha h1 hn he => exact .waiting hid ha h1 hn (Broker.mem_requeue_of_mem he)

end Awaits

/-! ## Restarting the processes -/

/-- A thread is killed. -/
inductive Kill : (service R cfg).State → (service R cfg).State → Prop
  | intro {s : (service R cfg).State} {t : ℕ} {k : Kind} {p : Prog Op Res (Out k)}
      (ht : s.threads t = .running k p) :
      Kill s ⟨s.world.crash t, Function.update s.threads t (.crashed k), s.born⟩

theorem Kill.step {s s' : (service R cfg).State} (h : Kill s s') : (service R cfg).Step s s' := by
  cases h with
  | intro ht => exact .crash ht rfl

/-- The messages in the queues stand in another order. -/
inductive Reordered (s : (service R cfg).State) : (service R cfg).State → Prop
  | intro (queues : String → List Envelope)
      (h : ∀ name, (queues name).Perm (s.world.broker.queues name)) :
      Reordered s ⟨{ s.world with broker := { s.world.broker with queues := queues } }, s.threads,
        s.born⟩

/-- **All threads have been killed**, in any order; the broker has put the messages that were not
settled back, wherever it likes. -/
def Restarted (s s' : (service R cfg).State) : Prop :=
  ∃ s₁, ReflTransGen Kill s s₁ ∧ Stopped s₁ ∧ Reordered s₁ s'

variable {s s' : (service R cfg).State}

theorem run_of_kills (h : ReflTransGen Kill s s') : (service R cfg).Run s s' := by
  induction h with
  | refl => exact .refl
  | tail _ hk ih => exact ih.tail hk.step

/-- The threads can be killed. -/
theorem exists_restarted (h : (service R cfg).Reachable s) : ∃ s', Restarted s s' := by
  have hkill : ∀ n, ∃ s' : (service R cfg).State, ReflTransGen Kill s s' ∧ s'.born = s.born ∧
      ∀ t < n, ∀ k p, s'.threads t ≠ .running k p := by
    intro n
    induction n with
    | zero => exact ⟨s, .refl, rfl, by simp⟩
    | succ n ih =>
      obtain ⟨s', hr, hborn, hkilled⟩ := ih
      have hsame : (∀ k p, s'.threads n ≠ .running k p) → ∀ t < n + 1, ∀ k p,
          s'.threads t ≠ .running k p := by
        intro hn t ht
        rcases Nat.lt_succ_iff_lt_or_eq.mp ht with ht | rfl
        · exact hkilled t ht
        · exact hn
      cases ht : s'.threads n with
      | running k p =>
        refine ⟨_, hr.tail (.intro ht), hborn, fun t htn k' p' => ?_⟩
        by_cases htn' : t = n
        · subst htn'
          simp
        · have hlt : t < n := by omega
          simpa [htn'] using hkilled t hlt k' p'
      | unborn => exact ⟨s', hr, hborn, hsame (by simp [ht])⟩
      | crashed k => exact ⟨s', hr, hborn, hsame (by simp [ht])⟩
  obtain ⟨s', hr, hborn, hkilled⟩ := hkill s.born
  refine ⟨_, s', hr, fun t k p ht => ?_, .intro s'.world.broker.queues fun _ => .refl _⟩
  by_cases htb : t < s.born
  · exact hkilled t htb k p ht
  · cases ht.symm.trans (Machine.Reachable.unborn (h.run (run_of_kills hr)) (by omega))

/-! ## Payments on their way -/

variable (R cfg) in
/-- The payment is settled, or its event is in the outbox and not published, or a message about it
whose counter can be read is ready or waiting to be tried again. -/
inductive Underway (w : World) (id : UUID) : Prop
  | settled {p : Payment} (hp : w.payments.rows id = some p) (hs : p.Settled)
  | event {m : OutboxMessage} (hm : w.outbox.rows m.id = some m) (ha : m.aggregateId = id)
      (hp : m.publishedAt = none)
  | ready {e : Envelope} {attempt : ℕ} (hid : eventPayment R e.message = some id)
      (ha : currentAttempt e.message.headers = .ok attempt)
      (he : e ∈ w.broker.queues paymentsNewQueueName)
  | waiting {e : Envelope} {attempt n : ℕ} (hid : eventPayment R e.message = some id)
      (ha : currentAttempt e.message.headers = .ok attempt) (h1 : 1 ≤ n) (hn : n ≤ cfg.maxRetries)
      (he : e ∈ w.broker.queues (retryQueueName n))

/-- What the service needs to know to go on: no transaction is open, and the rows of the outbox are
events of payments. -/
structure Ready (w : World) : Prop where
  atRest : AtRest w
  events : ∀ m, w.outbox.rows m.id = some m →
    m.payload.paymentId = m.aggregateId ∧ m.routingKey = paymentsNewRoutingKey

/-- **A restart leaves the payments as they are**, and what they wait for. -/
theorem Restarted.underway (h : (service R cfg).Reachable s) (hr : Restarted s s') :
    Ready s'.world ∧ s'.world.payments.rows = s.world.payments.rows ∧
      ∀ id, Awaits R cfg s.world id → Underway R cfg s'.world id := by
  obtain ⟨s₁, hk, hstop, hre⟩ := hr
  have h₁ := h.run (run_of_kills hk)
  obtain ⟨hrest, hcleared⟩ := hstop.atRest h₁
  obtain ⟨v, hv, htr⟩ := Machine.Spec.tracked (serviceSpec R cfg) h₁
  obtain ⟨hrows, hawaits⟩ : s₁.world.payments.rows = s.world.payments.rows ∧
      ∀ id, Awaits R cfg s.world id → Awaits R cfg s₁.world id := by
    clear hre h₁ hrest hcleared v hv htr hstop
    induction hk with
    | refl => exact ⟨rfl, fun _ ha => ha⟩
    | tail _ hk ih =>
      cases hk with
      | intro ht => exact ⟨ih.1, fun id ha => (ih.2 id ha).crash _⟩
  obtain ⟨queues, hperm⟩ := hre
  refine ⟨⟨⟨hrest.payments, hrest.outbox, hrest.wrote⟩, fun m hm => ?_⟩, hrows, fun id ha => ?_⟩
  · obtain ⟨-, hpay, -, hkey⟩ := (paired hv).payment m.id m (by rw [htr.world]; exact hm)
    exact ⟨hpay, hkey⟩
  · cases hawaits id ha with
    | @event messageId m hm ha hp =>
      obtain rfl : m.id = messageId := s₁.world.outbox.key_rows hm
      exact .event hm ha hp
    | ready hid ha he => exact .ready hid ha ((hperm _).mem_iff.mpr he)
    | delivered hid ha hd hu => exact absurd (hcleared _ _ hd) (by simp [hu])
    | waiting hid ha h1 hn he => exact .waiting hid ha h1 hn ((hperm _).mem_iff.mpr he)

/-! ## One thing after another -/

/-- The rows that have not been published. -/
def unpublished (T : OutboxTable) : Set UUID := {id | ∃ m, T.rows id = some m ∧ m.publishedAt = none}

theorem finite_unpublished (T : OutboxTable) : (unpublished T).Finite := by
  have : Finite UUID := Finite.of_injective BitVec.toFin fun _ _ => BitVec.eq_of_toFin_eq
  exact Set.toFinite _

variable (cfg) in
/-- What is left to do: rows to publish, messages to wait for, and messages to handle. -/
noncomputable def backlog (w : World) : ℕ ×ₗ ℕ ×ₗ ℕ :=
  toLex ((unpublished w.outbox).ncard,
    toLex (∑ n ∈ Finset.range cfg.maxRetries, (w.broker.queues (retryQueueName (n + 1))).length,
      (w.broker.queues paymentsNewQueueName).length))

/-- The service has done something, and taken nothing away from any payment. -/
structure Onward (s s' : (service R cfg).State) : Prop where
  run : OwnRun s s'
  ready : Ready s'.world
  rows : ∀ id, (s.world.payments.rows id).isSome → (s'.world.payments.rows id).isSome
  underway : ∀ id, (s.world.payments.rows id).isSome → Underway R cfg s.world id →
    Underway R cfg s'.world id
  less : backlog cfg s'.world < backlog cfg s.world

/-- A thread is started, and returns. -/
theorem exists_ownReturned {k : Kind} {w : World}
    (hstart : OwnStep s
      ⟨w, Function.update s.threads s.born (.running k (code R cfg k)), s.born + 1⟩)
    {Q : World → Prop} (hp : (code R cfg k).wp (.possible (ExecInOrder cfg s.born)) (fun _ => Q) w) :
    ∃ s', OwnRun s s' ∧ Q s'.world := by
  obtain ⟨out, w', hpost, hr⟩ := ownRun_of_wp s.threads (s.born + 1) hp
  exact ⟨_, ReflTransGen.head hstart hr, hpost⟩

/-- **Rows that are not published can be**: the relay waits until one is eligible, and publishes the
first of those that are. -/
theorem exists_relayed (h : Ready s.world) {m : OutboxMessage}
    (hm : s.world.outbox.rows m.id = some m) (hp : m.publishedAt = none) :
    ∃ s' : (service R cfg).State, Onward s s' := by
  let clock := max s.world.clock m.nextRetryAt
  let s₁ : (service R cfg).State := ⟨{ s.world with clock := clock }, s.threads, s.born⟩
  obtain ⟨rows, hfirst⟩ : ∃ rows, FirstEligible cfg s₁.world.outbox clock rows :=
    exists_first (finite_eligible _ _) _
  have hne : rows ≠ [] := by
    rintro rfl
    obtain ⟨hlen, -⟩ := hfirst.complete m ⟨hm, hp, le_max_right _ _⟩ (by simp)
    exact absurd hlen.symm (Nat.one_le_iff_ne_zero.mp cfg.outboxBatchSize_ge)
  have hrest : AtRest s₁.world := ⟨h.atRest.payments, h.atRest.outbox, h.atRest.wrote⟩
  have hwp := publishBatch_possible (R := R) (t := s₁.born) hrest hfirst hne
    fun row hrow => (h.events row (hfirst.mem row hrow).1).2
  obtain ⟨s', hr, hrest', hpay, hall, htook⟩ := exists_ownReturned (s := s₁) (.relay s₁)
    (Q := fun w' => AtRest w' ∧ w'.payments.rows = s₁.world.payments.rows ∧
      AllPublished rows clock s₁.world.outbox w'.outbox ∧
      s₁.world.broker.Took R s₁.born rows w'.broker)
    (Prog.wp_mono _ hwp fun out w => by
      cases out with
      | ok count => exact id
      | error e => exact False.elim)
  have hback : ∀ id m', s'.world.outbox.rows id = some m' →
      s.world.outbox.rows id = some m' ∨ ∃ row ∈ rows, row.id = id ∧ m' = row.published clock := by
    intro id m' hm'
    by_cases hid : ∃ row ∈ rows, row.id = id
    · obtain ⟨row, hrow, rfl⟩ := hid
      exact .inr ⟨row, hrow, rfl, Option.some.inj (hm'.symm.trans (hall.published row hrow))⟩
    · push Not at hid
      exact .inl ((hall.others id hid).symm.trans hm')
  refine ⟨s', .head (.tick (le_max_left _ _)) hr, ⟨hrest', fun m' hm' => ?_⟩, fun id hid => ?_,
    fun id hid hu => ?_, ?_⟩
  · rcases hback m'.id m' hm' with hold | ⟨row, hrow, -, rfl⟩
    · exact h.events m' hold
    · exact h.events row (hfirst.mem row hrow).1
  · rw [hpay]
    exact hid
  · have hmain : ∀ e ∈ s.world.broker.queues paymentsNewQueueName,
        e ∈ s'.world.broker.queues paymentsNewQueueName := fun e he => by
      rw [htook.main]
      exact List.mem_append_left _ he
    cases hu with
    | settled hp' hs => exact .settled (by rw [hpay]; exact hp') hs
    | @event m' hm' ha hp' =>
      by_cases hrow : m' ∈ rows
      · have hid' : eventPayment R (s.world.broker.envelope R s.born m').message = some id :=
          (eventPayment_outboxPublication m').trans (congrArg some ((h.events m' hm').1.trans ha))
        have ha' : currentAttempt (s.world.broker.envelope R s.born m').message.headers = .ok 0 := rfl
        refine .ready hid' ha' ?_
        rw [htook.main]
        exact List.mem_append_right _ (List.mem_map_of_mem hrow)
      · refine .event ((hall.others m'.id fun row hr hid => hrow ?_).trans hm') ha hp'
        have hrow' := (hfirst.mem row hr).1
        rw [hid] at hrow'
        rwa [Option.some.inj (hm'.symm.trans hrow')]
    | ready hid' ha he => exact .ready hid' ha (hmain _ he)
    | waiting hid' ha h1 hn he =>
      exact .waiting hid' ha h1 hn (by rw [htook.others _ (retryQueueName_ne _).1]; exact he)
  · refine Prod.Lex.toLex_lt_toLex.mpr (.inl (Set.ncard_lt_ncard ?_ (finite_unpublished _)))
    have hsub : unpublished s'.world.outbox ⊆ unpublished s.world.outbox := by
      rintro id ⟨m', hm', hnone⟩
      rcases hback id m' hm' with hold | ⟨row, -, -, rfl⟩
      · exact ⟨m', hold, hnone⟩
      · exact nomatch hnone
    obtain ⟨row, hrow⟩ := List.exists_mem_of_ne_nil rows hne
    obtain ⟨hrow', hnone, -⟩ := hfirst.mem row hrow
    refine ⟨hsub, fun hsup => ?_⟩
    obtain ⟨m', hm', hnone'⟩ := hsup ⟨row, hrow', hnone⟩
    cases (hall.published row hrow).symm.trans hm'
    exact nomatch hnone'

section Dispatched

variable {e : Envelope} {after : List Envelope} {w' : World}

/-- What becomes of the message at the head of `payments.new`: its payment is settled, if it can be
read and there is one, and all other payments and messages are as they were. -/
structure Dispatched (R : Runtime) (e : Envelope) (after : List Envelope) (w w' : World) : Prop where
  atRest : AtRest w'
  outbox : w'.outbox.rows = w.outbox.rows
  payments : ∀ id p, w.payments.rows id = some p →
    ∃ p', w'.payments.rows id = some p' ∧ (p.Settled → p'.Settled)
  settled : ∀ id attempt, eventPayment R e.message = some id →
    currentAttempt e.message.headers = .ok attempt → (w.payments.rows id).isSome →
    ∃ p', w'.payments.rows id = some p' ∧ p'.Settled
  main : w'.broker.queues paymentsNewQueueName = after
  retry : ∀ n, w'.broker.queues (retryQueueName n) = w.broker.queues (retryQueueName n)

/-- Handling a message brings the service onward. -/
theorem Dispatched.onward {s' : (service R cfg).State} (h : Ready s.world)
    (hq : s.world.broker.queues paymentsNewQueueName = e :: after) (hr : OwnRun s s')
    (hh : Dispatched R e after s.world s'.world) : Onward s s' := by
  refine ⟨hr, ⟨hh.atRest, fun m hm => h.events m (by rwa [hh.outbox] at hm)⟩, fun id hid => ?_,
    fun id hid hu => ?_, ?_⟩
  · obtain ⟨p, hp⟩ := Option.isSome_iff_exists.mp hid
    obtain ⟨p', hp', -⟩ := hh.payments id p hp
    rw [hp']
    rfl
  · have hpay : ∀ p, s.world.payments.rows id = some p → p.Settled →
        ∃ p', s'.world.payments.rows id = some p' ∧ p'.Settled := fun p hp hs => by
      obtain ⟨p', hp', hs'⟩ := hh.payments id p hp
      exact ⟨p', hp', hs' hs⟩
    cases hu with
    | settled hp hs =>
      obtain ⟨p', hp', hs'⟩ := hpay _ hp hs
      exact .settled hp' hs'
    | event hm ha hp => exact .event (by rw [hh.outbox]; exact hm) ha hp
    | @ready e' attempt hid' ha he =>
      rw [hq] at he
      rcases List.mem_cons.mp he with rfl | he
      · obtain ⟨p', hp', hs'⟩ := hh.settled id attempt hid' ha hid
        exact .settled hp' hs'
      · exact .ready hid' ha (by rw [hh.main]; exact he)
    | waiting hid' ha h1 hn he => exact .waiting hid' ha h1 hn (by rw [hh.retry]; exact he)
  · have hsame : unpublished s'.world.outbox = unpublished s.world.outbox := by
      unfold unpublished
      rw [hh.outbox]
    have hshort : (s'.world.broker.queues paymentsNewQueueName).length <
        (s.world.broker.queues paymentsNewQueueName).length := by
      rw [hh.main, hq, List.length_cons]
      omega
    refine Prod.Lex.toLex_lt_toLex.mpr (.inr ⟨congrArg Set.ncard hsame, ?_⟩)
    refine Prod.Lex.toLex_lt_toLex.mpr (.inr ⟨?_, hshort⟩)
    simp only [hh.retry]

/-- The queues once the message has been delivered, wherever it has been put then. -/
theorem Dispatched.of_queues (w w₁ : World) (t : ℕ) (e : Envelope) (after es : List Envelope)
    (hq : ∀ name, w₁.broker.queues name =
      (w.broker.deliver t e after).queues name ++ if name = dlqName then es else []) :
    w₁.broker.queues paymentsNewQueueName = after ∧
      ∀ n, w₁.broker.queues (retryQueueName n) = w.broker.queues (retryQueueName n) := by
  have hname : paymentsNewQueueName ≠ dlqName := by decide
  refine ⟨?_, fun n => ?_⟩
  · rw [hq, if_neg hname]
    simp [Broker.deliver]
  · rw [hq, if_neg (retryQueueName_ne n).2]
    simp [Broker.deliver, (retryQueueName_ne n).1]

/-- **The message at the head of `payments.new` can be handled.** -/
theorem exists_handled (h : Ready s.world)
    (hq : s.world.broker.queues paymentsNewQueueName = e :: after) :
    ∃ s' : (service R cfg).State, Onward s s' := by
  let w : World := { s.world with broker := s.world.broker.deliver s.born e after }
  have hrest : AtRest w := ⟨h.atRest.payments, h.atRest.outbox, h.atRest.wrote⟩
  have hu : w.broker.unacked s.born = true := Function.update_self ..
  have hwp : (code R cfg (.deliver e)).wp (.possible (ExecInOrder cfg s.born))
      (fun _ w' => Dispatched R e after s.world w') w := by
    have hgone : ∀ w', Discarded s.born w w' → (∀ id attempt, eventPayment R e.message = some id →
        currentAttempt e.message.headers = .ok attempt → s.world.payments.rows id = none) →
        Dispatched R e after s.world w' := by
      intro w' hg hnone
      obtain ⟨hrest', hpay, hout, e', hbroker⟩ := hg
      obtain ⟨hmain, hretry⟩ :=
        Dispatched.of_queues s.world w' s.born e after [e'] fun name => by
          rw [hbroker]
          by_cases hname : name = dlqName
          · subst hname
            simp [Broker.settle, Broker.accept, w]
          · simp [Broker.settle, Broker.accept, w, hname, Ne.symm hname]
      refine ⟨hrest', hout, fun id p hp => ⟨p, by rw [hpay]; exact hp, fun hs => hs⟩,
        fun id attempt hid ha hsome => ?_, hmain, hretry⟩
      rw [hnone id attempt hid ha] at hsome
      cases hsome
    cases ha : currentAttempt e.message.headers with
    | error error =>
      refine Prog.wp_mono _ (handleDelivery_unreadable ha) fun out w' => ?_
      cases out with
      | ok u => exact False.elim
      | error e' =>
        rintro rfl
        obtain ⟨hmain, hretry⟩ :=
          Dispatched.of_queues s.world w s.born e after [] fun name => by simp [w]
        refine ⟨hrest, rfl, fun id p hp => ⟨p, hp, fun hs => hs⟩, fun id attempt hid ha' => ?_,
          hmain, hretry⟩
        cases ha.symm.trans ha'
    | ok attempt =>
      by_cases hnone : ∀ id ∈ eventPayment R e.message, s.world.payments.rows id = none
      · refine Prog.wp_mono _ (handleDelivery_discarded ha hnone hu hrest) fun out w' => ?_
        cases out with
        | ok u => exact fun hg => hgone w' hg fun id _ hid _ => hnone id hid
        | error e' => exact False.elim
      · push Not at hnone
        obtain ⟨id, hid, hsome⟩ := hnone
        obtain ⟨p, hp⟩ := Option.ne_none_iff_exists'.mp hsome
        refine Prog.wp_mono _ (handleDelivery_possible ha hid hu (.begin hrest s.born hp))
          fun out w' => ?_
        cases out with
        | error e' => exact False.elim
        | ok u =>
          rintro ⟨p', hset, -, hh⟩
          obtain ⟨hmain, hretry⟩ :=
            Dispatched.of_queues s.world w' s.born e after [] fun name => by
              rw [hh.broker]
              simp [Broker.settle, w]
          refine ⟨hh.atRest, hh.outbox, fun id' q hq' => ?_, fun id' a' hid' _ _ => ?_, hmain,
            hretry⟩
          · by_cases hne : id' = id
            · subst hne
              exact ⟨p', hh.row, fun _ => hset⟩
            · exact ⟨q, (hh.others id' hne).trans hq', fun hs => hs⟩
          · obtain rfl := Option.some.inj (hid'.symm.trans hid)
            exact ⟨p', hh.row, hset⟩
  obtain ⟨s', hr, hh⟩ := exists_ownReturned (.deliver hq) hwp
  exact ⟨s', hh.onward h hq hr⟩

end Dispatched

/-- **A message that waits to be tried again can come back**, the first of its queue. -/
theorem exists_back (h : Ready s.world) {n : ℕ} (h1 : 1 ≤ n) (hn : n ≤ cfg.maxRetries)
    (hne : s.world.broker.queues (retryQueueName n) ≠ []) :
    ∃ s' : (service R cfg).State, Onward s s' := by
  obtain ⟨e, after, hq⟩ := List.exists_cons_of_ne_nil hne
  have hstep := OwnStep.expired (R := R) h1 hn hq fun key _ => rfl
  let B := s.world.broker.move (retryQueueName n) after [paymentsNewQueueName] e
  have hmain : B.queues paymentsNewQueueName = s.world.broker.queues paymentsNewQueueName ++ [e] := by
    simp [B, Broker.move, Broker.accept, (retryQueueName_ne n).1.symm]
  have hretry : ∀ m, B.queues (retryQueueName m) =
      if m = n then after else s.world.broker.queues (retryQueueName m) := by
    intro m
    have hcount : [paymentsNewQueueName].count (retryQueueName m) = 0 := by
      simp [(retryQueueName_ne m).1.symm]
    simp only [B, Broker.move, Broker.accept, hcount, List.replicate_zero, List.append_nil,
      Function.update_apply, retryQueueName_injective.eq_iff]
  refine ⟨_, .single hstep, ⟨⟨h.atRest.payments, h.atRest.outbox, h.atRest.wrote⟩, h.events⟩,
    fun _ hid => hid, fun id _ hu => ?_, ?_⟩
  · cases hu with
    | settled hp hs => exact .settled hp hs
    | event hm ha hp => exact .event hm ha hp
    | ready hid ha he =>
      refine .ready hid ha (?_ : _ ∈ B.queues paymentsNewQueueName)
      rw [hmain]
      exact List.mem_append_left _ he
    | @waiting e' attempt m hid ha hm1 hm he =>
      by_cases hme : m = n ∧ e' = e
      · obtain ⟨rfl, rfl⟩ := hme
        refine .ready hid ha (?_ : _ ∈ B.queues paymentsNewQueueName)
        rw [hmain]
        exact List.mem_append_right _ (List.mem_singleton_self _)
      · refine .waiting hid ha hm1 hm (?_ : _ ∈ B.queues (retryQueueName m))
        rw [hretry]
        by_cases hmn : m = n
        · subst hmn
          rw [hq] at he
          rw [if_pos rfl]
          exact (List.mem_cons.mp he).resolve_left fun heq => hme ⟨rfl, heq⟩
        · rwa [if_neg hmn]
  · refine Prod.Lex.toLex_lt_toLex.mpr (.inr ⟨rfl, Prod.Lex.toLex_lt_toLex.mpr (.inl ?_)⟩)
    refine Finset.sum_lt_sum (fun m _ => ?_) ⟨n - 1, Finset.mem_range.mpr (by omega), ?_⟩
    · refine (congrArg List.length (hretry (m + 1))).trans_le ?_
      split
      · next hm => rw [hm, hq, List.length_cons]; omega
      · exact le_rfl
    · refine (congrArg List.length (hretry (n - 1 + 1))).trans_lt ?_
      rw [if_pos (by omega), show n - 1 + 1 = n by omega, hq, List.length_cons]
      omega

/-- Where nothing can be done, every payment that is on its way is settled. -/
theorem settled_of_underway {id : UUID} (hu : Underway R cfg s.world id)
    (hout : ∀ m, s.world.outbox.rows m.id = some m → m.publishedAt ≠ none)
    (hmain : s.world.broker.queues paymentsNewQueueName = [])
    (hretry : ∀ n, 1 ≤ n → n ≤ cfg.maxRetries → s.world.broker.queues (retryQueueName n) = []) :
    ∃ p, s.world.payments.rows id = some p ∧ p.Settled := by
  cases hu with
  | settled hp hs => exact ⟨_, hp, hs⟩
  | event hm _ hp => exact absurd hp (hout _ hm)
  | ready _ _ he =>
    rw [hmain] at he
    cases he
  | waiting _ _ h1 hn he =>
    rw [hretry _ h1 hn] at he
    cases he

/-- **What is left to do can be done**, by induction on it. -/
theorem exists_settled (h : Ready s.world) :
    ∃ s' : (service R cfg).State, OwnRun s s' ∧ ∀ id, (s.world.payments.rows id).isSome →
      Underway R cfg s.world id → ∃ p, s'.world.payments.rows id = some p ∧ p.Settled := by
  induction hb : backlog cfg s.world using WellFoundedLT.induction generalizing s with
  | ind b ih =>
    have hgo : ∀ s₁ : (service R cfg).State, Onward s s₁ → ∃ s' : (service R cfg).State, OwnRun s s' ∧
        ∀ id, (s.world.payments.rows id).isSome → Underway R cfg s.world id →
          ∃ p, s'.world.payments.rows id = some p ∧ p.Settled := by
      intro s₁ hon
      obtain ⟨s', hr, hset⟩ := ih _ (hb ▸ hon.less) hon.ready rfl
      exact ⟨s', hon.run.trans hr, fun id hid hu => hset id (hon.rows id hid) (hon.underway id hid hu)⟩
    by_cases hout : ∃ m, s.world.outbox.rows m.id = some m ∧ m.publishedAt = none
    · obtain ⟨m, hm, hp⟩ := hout
      obtain ⟨s₁, hon⟩ := exists_relayed h hm hp
      exact hgo s₁ hon
    by_cases hretry : ∃ n, 1 ≤ n ∧ n ≤ cfg.maxRetries ∧ s.world.broker.queues (retryQueueName n) ≠ []
    · obtain ⟨n, h1, hn, hne⟩ := hretry
      obtain ⟨s₁, hon⟩ := exists_back h h1 hn hne
      exact hgo s₁ hon
    cases hmain : s.world.broker.queues paymentsNewQueueName with
    | cons e after =>
      obtain ⟨s₁, hon⟩ := exists_handled h hmain
      exact hgo s₁ hon
    | nil =>
      push Not at hout hretry
      exact ⟨s, .refl, fun id _ hu => settled_of_underway hu hout hmain hretry⟩

end Payments
