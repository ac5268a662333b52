import PaymentProcessing.System.Pairs

/-!
# Copies of messages

What the broker does with a message changes where it is and some of its headers, never what it is
about. A message that comes from the relay is a copy of what the relay published (`Descends`), and
where it is agrees with the retry counter it carries (`Placed`); `copies_sound` says so for every
message inside the broker.
-/

namespace Payments

open Effects Python Store

variable {R : Runtime} {cfg : Settings} {v : View R cfg}

/-! ## The queues after a step -/

namespace Broker

variable {B : Broker} {q : String} {e e' : Envelope} {t t' : ℕ}

theorem mem_accept {names : List String} (h : e ∈ (B.accept names e').queues q) :
    e ∈ B.queues q ∨ (e = e' ∧ q ∈ names) := by
  rcases List.mem_append.mp h with h | h
  · exact .inl h
  · obtain ⟨hne, rfl⟩ := List.mem_replicate.mp h
    exact .inr ⟨rfl, List.count_pos_iff.mp (Nat.pos_of_ne_zero hne)⟩

theorem mem_accept_of_mem {names : List String} (h : e ∈ B.queues q) :
    e ∈ (B.accept names e').queues q :=
  List.mem_append_left _ h

theorem mem_accept_self {names : List String} (h : q ∈ names) : e ∈ (B.accept names e).queues q :=
  List.mem_append_right _ (List.mem_replicate.mpr ⟨(List.count_pos_iff.mpr h).ne', rfl⟩)

/-- Giving a message back changes nothing, or makes it ready and settles the delivery. -/
theorem requeue_cases (B : Broker) (t : ℕ) :
    B.requeue t = B ∨ ∃ e, B.delivered t = some e ∧ B.unacked t = true ∧
      B.requeue t = (B.accept [paymentsNewQueueName] e).settle t := by
  unfold requeue
  cases hd : B.delivered t with
  | none => exact .inl rfl
  | some e =>
    cases hu : B.unacked t with
    | false => exact .inl (by simp)
    | true => exact .inr ⟨e, rfl, rfl, by simp⟩

theorem mem_requeue (h : e ∈ (B.requeue t).queues q) :
    e ∈ B.queues q ∨ (q = paymentsNewQueueName ∧ B.delivered t = some e) := by
  rcases B.requeue_cases t with heq | ⟨e', hd, -, heq⟩
  · exact .inl (heq ▸ h)
  · rw [heq] at h
    rcases mem_accept h with h | ⟨rfl, hq⟩
    · exact .inl h
    · exact .inr ⟨List.mem_singleton.mp hq, hd⟩

theorem mem_requeue_of_mem (h : e ∈ B.queues q) : e ∈ (B.requeue t).queues q := by
  rcases B.requeue_cases t with heq | ⟨e', -, -, heq⟩
  · rwa [heq]
  · rw [heq]
    exact mem_accept_of_mem h

@[simp] theorem delivered_requeue : (B.requeue t).delivered = B.delivered := by
  rcases B.requeue_cases t with heq | ⟨e', -, -, heq⟩
  · rw [heq]
  · rw [heq]
    rfl

theorem unacked_requeue (ht : t' ≠ t) : (B.requeue t).unacked t' = B.unacked t' := by
  rcases B.requeue_cases t with heq | ⟨e', -, -, heq⟩
  · rw [heq]
  · rw [heq]
    exact Function.update_of_ne ht _ _

theorem unacked_of_requeue (h : (B.requeue t).unacked t' = true) : B.unacked t' = true := by
  rcases B.requeue_cases t with heq | ⟨e', -, hu, heq⟩
  · rwa [heq] at h
  · by_cases ht : t' = t
    · rwa [ht]
    · rwa [unacked_requeue ht] at h

/-- A delivery that is given back is settled. -/
theorem unacked_requeue_self (hd : B.delivered t = some e) : (B.requeue t).unacked t = false := by
  cases hu : B.unacked t with
  | false => exact Bool.eq_false_iff.mpr fun h => by simpa [hu] using unacked_of_requeue h
  | true => simp [requeue, hd, hu, settle]

/-- An unsettled delivery that is given back is ready. -/
theorem mem_requeue_self (hd : B.delivered t = some e) (hu : B.unacked t = true) :
    e ∈ (B.requeue t).queues paymentsNewQueueName := by
  have heq : B.requeue t = (B.accept [paymentsNewQueueName] e).settle t := by
    simp [requeue, hd, hu]
  rw [heq]
  exact mem_accept_self (List.mem_singleton_self _)

/-- An unsettled delivery remains one or is ready again, whatever is given back. -/
theorem held_requeue (hd : B.delivered t = some e) (hu : B.unacked t = true) (t' : ℕ) :
    (B.requeue t').unacked t = true ∨ e ∈ (B.requeue t').queues paymentsNewQueueName := by
  by_cases ht : t = t'
  · subst ht
    exact .inr (mem_requeue_self hd hu)
  · rw [unacked_requeue ht]
    exact .inl hu

theorem mem_deliver {rest : List Envelope} (h : e ∈ (B.deliver t e' rest).queues q) :
    (q ≠ paymentsNewQueueName ∧ e ∈ B.queues q) ∨ (q = paymentsNewQueueName ∧ e ∈ rest) := by
  by_cases hq : q = paymentsNewQueueName
  · subst hq
    exact .inr ⟨rfl, by simpa [deliver] using h⟩
  · exact .inl ⟨hq, by simpa [deliver, hq] using h⟩

theorem mem_move {name : String} {rest : List Envelope} {names : List String}
    (h : e ∈ (B.move name rest names e').queues q) :
    (q ≠ name ∧ e ∈ B.queues q) ∨ (q = name ∧ e ∈ rest) ∨ (e = e' ∧ q ∈ names) := by
  rcases mem_accept h with h | h
  · by_cases hq : q = name
    · subst hq
      exact .inr (.inl ⟨rfl, by simpa using h⟩)
    · exact .inl ⟨hq, by simpa [hq] using h⟩
  · exact .inr (.inr h)

end Broker

/-! ## What a step does to the broker -/

section Effect

variable {w w' : World} {t : ℕ} {o : Op} {r : Res o}

theorem Exec.broker_cases (h : Exec cfg t o r w w') :
    w'.broker = w.broker ∨ (∃ p, o = .publish p ∧ w'.broker = (w.accept t cfg p).broker) ∨
      (o = .ack ∧ w'.broker = w.broker.settle t) ∨ (o = .nack ∧ w'.broker = w.broker.requeue t) := by
  cases h with
  | confirmed => exact .inr (.inl ⟨_, rfl, rfl⟩)
  | confirmationLost => exact .inr (.inl ⟨_, rfl, rfl⟩)
  | acked => exact .inr (.inr (.inl ⟨rfl, rfl⟩))
  | ackLost => exact .inr (.inr (.inl ⟨rfl, rfl⟩))
  | nacked => exact .inr (.inr (.inr ⟨rfl, rfl⟩))
  | nackLost => exact .inr (.inr (.inr ⟨rfl, rfl⟩))
  | _ => exact .inl rfl

theorem Exec.delivered (h : Exec cfg t o r w w') : w'.broker.delivered = w.broker.delivered := by
  rcases h.broker_cases with heq | ⟨p, -, heq⟩ | ⟨-, heq⟩ | ⟨-, heq⟩ <;> rw [heq]
  · rfl
  · rfl
  · exact Broker.delivered_requeue

/-- An operation settles a delivery of its own thread only. -/
theorem Exec.unacked {t' : ℕ} (h : Exec cfg t o r w w') (ht : t' ≠ t) :
    w'.broker.unacked t' = w.broker.unacked t' := by
  rcases h.broker_cases with heq | ⟨p, -, heq⟩ | ⟨-, heq⟩ | ⟨-, heq⟩ <;> rw [heq]
  · rfl
  · exact Function.update_of_ne ht _ _
  · exact Broker.unacked_requeue ht

/-- An operation delivers nothing. -/
theorem Exec.unacked_of {t' : ℕ} (h : Exec cfg t o r w w') (hu : w'.broker.unacked t' = true) :
    w.broker.unacked t' = true := by
  rcases h.broker_cases with heq | ⟨p, -, heq⟩ | ⟨-, heq⟩ | ⟨-, heq⟩ <;> rw [heq] at hu
  · exact hu
  · exact hu
  · by_cases ht : t' = t
    · subst ht
      simp [Broker.settle] at hu
    · exact (Function.update_of_ne ht ..).symm.trans hu
  · exact Broker.unacked_of_requeue hu

theorem Environment.unacked_of {t : ℕ} (h : Environment cfg w w')
    (hu : w'.broker.unacked t = true) : w.broker.unacked t = true := by
  cases h with
  | tick h => exact hu
  | expired h =>
    cases h
    exact hu
  | foreign => exact hu
  | channelLost => exact Broker.unacked_of_requeue hu

theorem Environment.delivered (h : Environment cfg w w') :
    w'.broker.delivered = w.broker.delivered := by
  cases h with
  | tick h => rfl
  | expired h =>
    cases h
    rfl
  | foreign => rfl
  | channelLost => exact Broker.delivered_requeue

end Effect

/-- **A delivery that is not settled** has a message, and its thread was not killed. -/
theorem running_of_unacked {s : (service R cfg).State} (h : (service R cfg).Reachable s) {t : ℕ}
    (hu : s.world.broker.unacked t = true) :
    (∃ e, s.world.broker.delivered t = some e) ∧ ∃ k p, s.threads t = .running k p := by
  refine h.induction (I := fun s : (service R cfg).State => ∀ t,
    s.world.broker.unacked t = true → (∃ e, s.world.broker.delivered t = some e) ∧ ∃ k p, s.threads t = .running k p) ?_ ?_ t hu
  · rintro s ⟨⟨clock, hw⟩, -, -⟩ t hu
    rw [hw] at hu
    cases hu
  · intro s s' _ ih hs t hu
    cases hs with
    | @start k w hstart =>
      by_cases ht : t = s.born
      · subst ht
        refine ⟨?_, _, _, Function.update_self ..⟩
        cases hstart with
        | create => exact (ih _ hu).1
        | relay => exact (ih _ hu).1
        | deliver => exact ⟨_, Function.update_self ..⟩
      · have hkept : Function.update s.threads s.born (.running k (code R cfg k)) t = s.threads t :=
          Function.update_of_ne ht ..
        dsimp only
        rw [hkept]
        cases hstart with
        | create => exact ih t hu
        | relay => exact ih t hu
        | deliver =>
          obtain ⟨⟨e, he⟩, hrun⟩ := ih t ((Function.update_of_ne ht ..).symm.trans hu)
          exact ⟨⟨e, (Function.update_of_ne ht ..).trans he⟩, hrun⟩
    | @exec t' k o c r w ht' hx =>
      obtain ⟨⟨e, he⟩, hrun⟩ := ih t (hx.unacked_of hu)
      refine ⟨⟨e, (congrFun hx.delivered t).trans he⟩, ?_⟩
      by_cases ht : t = t'
      · subst ht
        exact ⟨_, _, Function.update_self ..⟩
      · obtain ⟨k, p, hrun⟩ := hrun
        exact ⟨k, p, (Function.update_of_ne ht ..).trans hrun⟩
    | @crash t' k p w ht' hw =>
      obtain rfl : w = s.world.crash t' := hw
      have hu : (s.world.broker.requeue t').unacked t = true := hu
      obtain ⟨⟨e, he⟩, k', p', hrun⟩ := ih t (Broker.unacked_of_requeue hu)
      have ht : t ≠ t' := by
        rintro rfl
        rw [Broker.unacked_requeue_self he] at hu
        cases hu
      exact ⟨⟨e, (congrFun Broker.delivered_requeue t).trans he⟩, k', p',
        (Function.update_of_ne ht ..).trans hrun⟩
    | env he =>
      obtain ⟨⟨e, hd⟩, hrun⟩ := ih t (he.unacked_of hu)
      exact ⟨⟨e, (congrFun he.delivered t).trans hd⟩, hrun⟩

/-- A delivery handles the message that the broker delivered, and no other thread has one. -/
def Delivering (w : World) (t : ℕ) : Status R cfg → Prop
  | .active (.consumer m _) => ∃ e, w.broker.delivered t = some e ∧ e.message = m
  | .crashed => True
  | _ => w.broker.delivered t = none

theorem Delivering.congr {w w' : World} {t : ℕ} {y : Status R cfg} (h : Delivering w t y)
    (hd : w'.broker.delivered t = w.broker.delivered t) : Delivering w' t y := by
  cases y with
  | crashed => trivial
  | unborn => exact hd.trans h
  | active φ =>
    cases φ with
    | consumer m φ =>
      obtain ⟨e, he, hm⟩ := h
      exact ⟨e, hd.trans he, hm⟩
    | _ => exact hd.trans h

/-- **What the broker has delivered to whom.** -/
theorem delivering (h : (serviceSpec R cfg).Reachable v) (t : ℕ) :
    Delivering v.world t (v.status t) := by
  refine h.threadwise (P := Delivering) ?_ ?_ ?_ ?_ t
  · rintro w t ⟨clock, rfl⟩
    rfl
  · intro v t w y hv ih ha
    cases ha with
    | start hs hb =>
      have hnone := ih v.born
      rw [hb] at hnone
      cases hs with
      | create => exact hnone
      | relay => exact hnone
      | deliver h => exact ⟨_, Function.update_self .., rfl⟩
    | exec ht hm hx =>
      have hd := ih t
      rw [ht] at hd
      have hsame := congrFun (Exec.delivered hx) t
      cases hm with
      | api hm => exact hsame.trans hd
      | relay hm => exact hsame.trans hd
      | consumer hm =>
        obtain ⟨e, he, hm⟩ := hd
        exact ⟨e, hsame.trans he, hm⟩
    | crash ht hw => trivial
  · intro v t t' w y hv ih ha htt
    refine (ih t').congr ?_
    cases ha with
    | start hs hb =>
      cases hs with
      | create => rfl
      | relay => rfl
      | deliver h => exact Function.update_of_ne htt _ _
    | exec ht hm hx => rw [Exec.delivered hx]
    | crash ht hw =>
      obtain rfl : w = World.crash v.world t := hw
      exact congrFun Broker.delivered_requeue t'
  · intro w w' t y hd he
    exact hd.congr (by rw [Environment.delivered he])

/-- The message a delivery handles. -/
theorem delivered_of_consumer (h : (serviceSpec R cfg).Reachable v) {t : ℕ} {m : Message}
    {φ : ConsumerPhase} (ht : v.status t = .active (.consumer m φ)) :
    ∃ e, v.world.broker.delivered t = some e ∧ e.message = m := by
  have hd := delivering h t
  rwa [ht] at hd

/-- The thread that has a message is a delivery of it. -/
theorem consumer_of_delivered (h : (serviceSpec R cfg).Reachable v) {t : ℕ} {φ : Phase} {e : Envelope}
    (ht : v.status t = .active φ) (hd : v.world.broker.delivered t = some e) :
    ∃ ψ, φ = .consumer e.message ψ := by
  have hdel := delivering h t
  rw [ht] at hdel
  cases φ with
  | consumer m ψ =>
    obtain ⟨e', hd', rfl⟩ := hdel
    obtain rfl : e = e' := by simpa [hd] using hd'
    exact ⟨ψ, rfl⟩
  | api c ψ => exact absurd (hd.symm.trans hdel) (by simp)
  | relay ψ => exact absurd (hd.symm.trans hdel) (by simp)

theorem delivered_of_relay (h : (serviceSpec R cfg).Reachable v) {t : ℕ} {φ : RelayPhase}
    (ht : v.status t = .active (.relay φ)) : v.world.broker.delivered t = none := by
  have hd := delivering h t
  rwa [ht] at hd

/-! ## What is published -/

variable (R cfg) in
/-- The copies of a failed message that the service publishes. -/
inductive Routed (m : Message) : Publication → Prop
  | dlq {attempt : ℕ} {error : Exn} (ha : currentAttempt m.headers = .ok attempt)
      (h : error.isPermanent ∨ (∃ text, error = .validation text) ∨ cfg.maxRetries ≤ attempt) :
      Routed m (dlqPublication R m attempt error)
  | retry {attempt : ℕ} {error : Exn} (ha : currentAttempt m.headers = .ok attempt)
      (h : attempt + 1 ≤ cfg.maxRetries) : Routed m (retryPublication R m (attempt + 1) error)

theorem routed_failurePublication {m : Message} {attempt : ℕ}
    (ha : currentAttempt m.headers = .ok attempt) (error : Exn) :
    Routed R cfg m (failurePublication R cfg m attempt error) := by
  unfold failurePublication
  split
  · exact .dlq ha (.inl ‹_›)
  · split
    · exact .dlq ha (.inr (.inr (by omega)))
    · exact .retry ha (by omega)

/-- **Who publishes what.** -/
theorem Move.publish_cases {w : World} {t : ℕ} {φ φ' : Phase} {p : Publication}
    {r : Res (.publish p)} (hm : Move R cfg φ (.publish p) r φ') (hk : Knows R w t φ) :
    (∃ ψ row, φ = .relay ψ ∧ w.outbox.Holds t row ∧ p = outboxPublication R row) ∨
      ∃ m ψ, φ = .consumer m ψ ∧ Routed R cfg m p := by
  cases hm with
  | api hm => cases hm
  | relay hm =>
    cases hm with
    | confirmed =>
      exact .inl ⟨_, _, rfl, RelayPhase.Knows.held hk _ (by simp [RelayPhase.held]), rfl⟩
    | postponed =>
      exact .inl ⟨_, _, rfl, RelayPhase.Knows.held hk _ (by simp [RelayPhase.held]), rfl⟩
  | consumer hm =>
    cases hm with
    | @malformed text _ _ ha => exact .inr ⟨_, _, rfl, .dlq ha (.inr (.inl ⟨text, rfl⟩))⟩
    | @malformedFailed text _ _ ha => exact .inr ⟨_, _, rfl, .dlq ha (.inr (.inl ⟨text, rfl⟩))⟩
    | routed ha => exact .inr ⟨_, _, rfl, routed_failurePublication ha _⟩
    | notRouted ha => exact .inr ⟨_, _, rfl, routed_failurePublication ha _⟩

/-! ## What is inside the broker -/

/-- `m` is a copy of `m₀`. -/
structure Descends (m₀ m : Message) : Prop where
  body : m.body = m₀.body
  messageId : m.messageId = m₀.messageId
  eventType : m.headers eventTypeHeader = m₀.headers eventTypeHeader

variable (cfg) in
/-- The retry counter of a message agrees with the queue it is in. -/
structure Placed (q : String) (e : Envelope) : Prop where
  main : q = paymentsNewQueueName →
    ∃ attempt, attempt ≤ cfg.maxRetries ∧ currentAttempt e.message.headers = .ok attempt
  retry : ∀ n, q = retryQueueName n →
    1 ≤ n ∧ n ≤ cfg.maxRetries ∧ e.message.headers retryCountHeader = some (.int n)
  dlq : q = dlqName →
    (∃ error, e.cause = some error ∧ (error.isPermanent ∨ ∃ text, error = .validation text)) ∨
      e.message.headers retryCountHeader = some (.int cfg.maxRetries)

variable (R cfg) in
/-- A message of the relay that is in the queue `q`. -/
structure Sound (U : OutboxTable) (q : String) (e : Envelope) (m₀ : Message) : Prop where
  row : ∃ id row, U.rows id = some row ∧ m₀ = (outboxPublication R row).message
  descends : Descends m₀ e.message
  placed : Placed cfg q e

variable (R cfg) in
/-- Every message inside the broker that comes from the relay is sound. -/
structure SoundBroker (U : OutboxTable) (B : Broker) : Prop where
  ready : ∀ q e m₀, e ∈ B.queues q → e.origin = some m₀ → Sound R cfg U q e m₀
  delivered : ∀ t e m₀, B.delivered t = some e → e.origin = some m₀ →
    Sound R cfg U paymentsNewQueueName e m₀

variable {U U' : OutboxTable} {B : Broker} {q : String} {e : Envelope} {m₀ : Message}

theorem Descends.refl (m : Message) : Descends m m := ⟨rfl, rfl, rfl⟩

/-- A routed copy is a copy. -/
theorem Routed.descends {m : Message} {p : Publication} (h : Routed R cfg m p) :
    Descends m p.message := by
  cases h with
  | @dlq attempt error => exact ⟨rfl, rfl, routedHeaders_eventType R m.headers attempt error⟩
  | @retry attempt error =>
    exact ⟨rfl, rfl, routedHeaders_eventType R m.headers (attempt + 1) error⟩

theorem Descends.trans {m m' : Message} (h : Descends m₀ m) (h' : Descends m m') :
    Descends m₀ m' :=
  ⟨h'.body.trans h.body, h'.messageId.trans h.messageId, h'.eventType.trans h.eventType⟩

theorem paymentsNewQueueName_ne_dlqName : paymentsNewQueueName ≠ dlqName := by decide

theorem placed_main {attempt : ℕ} (ha : attempt ≤ cfg.maxRetries)
    (h : currentAttempt e.message.headers = .ok attempt) : Placed cfg paymentsNewQueueName e where
  main _ := ⟨attempt, ha, h⟩
  retry n hn := absurd hn.symm (retryQueueName_ne n).1
  dlq h := absurd h paymentsNewQueueName_ne_dlqName

theorem placed_retry {n : ℕ} (h1 : 1 ≤ n) (hn : n ≤ cfg.maxRetries)
    (h : e.message.headers retryCountHeader = some (.int n)) : Placed cfg (retryQueueName n) e where
  main h := absurd h (retryQueueName_ne n).1
  retry n' hn' := by
    obtain rfl := retryQueueName_injective hn'
    exact ⟨h1, hn, h⟩
  dlq h := absurd h (retryQueueName_ne n).2

theorem placed_dlq (h : (∃ error, e.cause = some error ∧
      (error.isPermanent ∨ ∃ text, error = .validation text)) ∨
    e.message.headers retryCountHeader = some (.int cfg.maxRetries)) : Placed cfg dlqName e where
  main h := absurd h.symm paymentsNewQueueName_ne_dlqName
  retry n hn := absurd hn.symm (retryQueueName_ne n).2
  dlq _ := h

/-- **A routed copy is put where its counter says.** -/
theorem Routed.placed {m : Message} {p : Publication} {origin : Option Message}
    (h : Routed R cfg m p)
    (hm : ∃ attempt, attempt ≤ cfg.maxRetries ∧ currentAttempt m.headers = .ok attempt)
    (hq : q ∈ (route cfg p.exchange p.routingKey).map RabbitQueue.name) :
    Placed cfg q ⟨p.message, origin, p.cause⟩ := by
  obtain ⟨n, hn, ha'⟩ := hm
  cases h with
  | @dlq attempt error ha hcause =>
    obtain rfl : n = attempt := Except.ok.inj (ha'.symm.trans ha)
    obtain rfl : q = dlqName := by simpa [dlqPublication, route_dlx, dlqQueue] using hq
    refine placed_dlq ?_
    rcases hcause with h | h | hmax
    · exact .inl ⟨error, rfl, .inl h⟩
    · exact .inl ⟨error, rfl, .inr h⟩
    · obtain rfl : n = cfg.maxRetries := le_antisymm hn hmax
      exact .inr (routedHeaders_retryCount R m.headers _ error)
  | @retry attempt error ha hmax =>
    obtain rfl : q = retryQueueName (attempt + 1) := by
      simpa [retryPublication, route_retry cfg (Nat.le_add_left 1 attempt) hmax, retryQueue,
        buildRetryQueue] using hq
    exact placed_retry (Nat.le_add_left 1 attempt) hmax (routedHeaders_retryCount R m.headers _ error)

/-- What a message was published for remains in the outbox. -/
theorem Sound.evolves (h : Sound R cfg U q e m₀)
    (hU : ∀ id row, U.rows id = some row → ∃ row', U'.rows id = some row' ∧ row.LifeCycle row') :
    Sound R cfg U' q e m₀ := by
  obtain ⟨id, row, hrow, hm⟩ := h.row
  obtain ⟨row', hrow', hl⟩ := hU id row hrow
  exact ⟨⟨id, row', hrow', by rw [hm, hl.outboxPublication]⟩, h.descends, h.placed⟩

/-- A message that has waited is as sound as before: the headers of the broker do not matter. -/
theorem Sound.expired {headers : Headers} (h : Sound R cfg U q e m₀)
    (hh : ∀ key, key ∉ brokerOwnedHeaders → headers key = e.message.headers key) {n : ℕ}
    (hn : q = retryQueueName n) : Sound R cfg U paymentsNewQueueName
      { e with message := { e.message with headers := headers } } m₀ := by
  obtain ⟨-, hmax, hcount⟩ := h.placed.retry n hn
  refine ⟨h.row, h.descends.trans ⟨rfl, rfl, hh _ (by decide)⟩, placed_main hmax ?_⟩
  exact currentAttempt_of_int ((hh _ (by decide)).trans hcount)

namespace SoundBroker

theorem sound (h : SoundBroker R cfg U B)
    (he : (∃ q, e ∈ B.queues q) ∨ ∃ t, B.delivered t = some e) (ho : e.origin = some m₀) :
    ∃ q, Sound R cfg U q e m₀ := by
  rcases he with ⟨q, he⟩ | ⟨t, hd⟩
  · exact ⟨q, h.ready q e m₀ he ho⟩
  · exact ⟨_, h.delivered t e m₀ hd ho⟩

theorem evolves (h : SoundBroker R cfg U B)
    (hU : ∀ id row, U.rows id = some row → ∃ row', U'.rows id = some row' ∧ row.LifeCycle row') :
    SoundBroker R cfg U' B :=
  ⟨fun q e m₀ he ho => (h.ready q e m₀ he ho).evolves hU,
    fun t e m₀ he ho => (h.delivered t e m₀ he ho).evolves hU⟩

theorem accept {names : List String} (h : SoundBroker R cfg U B)
    (he : ∀ q ∈ names, ∀ m₀, e.origin = some m₀ → Sound R cfg U q e m₀) :
    SoundBroker R cfg U (B.accept names e) := by
  refine ⟨fun q e' m₀ hmem ho => ?_, h.delivered⟩
  rcases Broker.mem_accept hmem with hmem | ⟨rfl, hq⟩
  · exact h.ready q e' m₀ hmem ho
  · exact he q hq m₀ ho

theorem settle (h : SoundBroker R cfg U B) (t : ℕ) : SoundBroker R cfg U (B.settle t) :=
  ⟨h.ready, h.delivered⟩

theorem requeue (h : SoundBroker R cfg U B) (t : ℕ) : SoundBroker R cfg U (B.requeue t) := by
  refine ⟨fun q e m₀ hmem ho => ?_, fun t' e m₀ hd ho => ?_⟩
  · rcases Broker.mem_requeue hmem with hmem | ⟨rfl, hd⟩
    · exact h.ready q e m₀ hmem ho
    · exact h.delivered t e m₀ hd ho
  · rw [Broker.delivered_requeue] at hd
    exact h.delivered t' e m₀ hd ho

theorem deliver (h : SoundBroker R cfg U B) (t : ℕ) {before after : List Envelope}
    (hq : B.queues paymentsNewQueueName = before ++ e :: after) :
    SoundBroker R cfg U (B.deliver t e (before ++ after)) := by
  refine ⟨fun q e' m₀ hmem ho => ?_, fun t' e' m₀ hd ho => ?_⟩
  · rcases Broker.mem_deliver hmem with ⟨-, hmem⟩ | ⟨rfl, hmem⟩
    · exact h.ready q e' m₀ hmem ho
    · refine h.ready _ e' m₀ ?_ ho
      rw [hq]
      exact List.perm_middle.mem_iff.mpr (List.mem_cons_of_mem e hmem)
  · by_cases ht : t' = t
    · subst ht
      obtain rfl : e = e' := by simpa [Broker.deliver] using hd
      exact h.ready _ e m₀ (by rw [hq]; simp) ho
    · exact h.delivered t' e' m₀ (by simpa [Broker.deliver, ht] using hd) ho

theorem move (h : SoundBroker R cfg U B) {name : String} {names : List String}
    {before after : List Envelope} {e' : Envelope} (hq : B.queues name = before ++ e :: after)
    (he : ∀ q ∈ names, ∀ m₀, e'.origin = some m₀ → Sound R cfg U q e' m₀) :
    SoundBroker R cfg U (B.move name (before ++ after) names e') := by
  refine ⟨fun q e₁ m₀ hmem ho => ?_, h.delivered⟩
  rcases Broker.mem_move hmem with ⟨-, hold⟩ | ⟨rfl, hrest⟩ | ⟨rfl, hq'⟩
  · exact h.ready q e₁ m₀ hold ho
  · refine h.ready q e₁ m₀ ?_ ho
    rw [hq]
    exact List.perm_middle.mem_iff.mpr (List.mem_cons_of_mem e hrest)
  · exact he q hq' m₀ ho

end SoundBroker

/-- A publication leaves the broker sound. -/
theorem SoundBroker.publish (h : (serviceSpec R cfg).Reachable v)
    (hs : SoundBroker R cfg v.world.outbox v.world.broker) {t : ℕ} {φ φ' : Phase} {p : Publication}
    {r : Res (.publish p)} (ht : v.status t = .active φ) (hm : Move R cfg φ (.publish p) r φ') :
    SoundBroker R cfg v.world.outbox (v.world.accept t cfg p).broker := by
  refine hs.accept fun q hq m₀ ho => ?_
  rcases hm.publish_cases (knows h ht) with ⟨ψ, row, rfl, hheld, rfl⟩ | ⟨m, ψ, rfl, hr⟩
  · have hd := delivered_of_relay h ht
    obtain rfl : (outboxPublication R row).message = m₀ := by simpa [hd] using ho
    obtain ⟨-, -, -, hkey⟩ := (paired h).payment row.id row hheld.row
    obtain rfl : q = paymentsNewQueueName := by
      simpa [outboxPublication, hkey, route_payments, paymentsNewQueue] using hq
    exact ⟨⟨row.id, row, hheld.row, rfl⟩, .refl _,
      placed_main (Nat.zero_le _) (currentAttempt_of_none rfl)⟩
  · obtain ⟨e, hd, rfl⟩ := delivered_of_consumer h ht
    have ho' : e.origin = some m₀ := by simpa [hd] using ho
    have hsound := hs.delivered t e m₀ hd ho'
    exact ⟨hsound.row, hsound.descends.trans hr.descends, hr.placed (hsound.placed.main rfl) hq⟩

/-- **Every message that comes from the relay is sound.** -/
theorem copies_sound (h : (serviceSpec R cfg).Reachable v) :
    SoundBroker R cfg v.world.outbox v.world.broker := by
  refine h.invariant (I := fun v : View R cfg => SoundBroker R cfg v.world.outbox v.world.broker)
    ?_ ?_
  · rintro v ⟨⟨clock, hw⟩, -, -⟩
    rw [hw]
    exact ⟨by simp [World.initial], by simp [World.initial]⟩
  · intro v v' hv ih hs
    have hU := fun id row => @step_outbox R cfg _ _ hv hs id row
    refine SoundBroker.evolves (U := v.world.outbox) ?_ hU
    cases hs with
    | start hst =>
      cases hst with
      | create => exact ih
      | relay => exact ih
      | deliver hq => exact ih.deliver _ hq
    | @exec t φ φ' o r w ht hm hx =>
      change SoundBroker R cfg v.world.outbox w.broker
      rcases Exec.broker_cases hx with heq | ⟨p, rfl, heq⟩ | ⟨-, heq⟩ | ⟨-, heq⟩ <;> rw [heq]
      · exact ih
      · exact ih.publish hv ht hm
      · exact ih.settle t
      · exact ih.requeue t
    | @crash t φ w ht hw =>
      obtain rfl : w = World.crash v.world t := hw
      exact ih.requeue t
    | env he =>
      cases he with
      | tick => exact ih
      | expired he =>
        obtain ⟨n, before, after, e, headers, hqueue, hh, rfl⟩ := he.retry
        refine ih.move hqueue fun q hq m₀ ho => ?_
        obtain rfl := List.mem_singleton.mp hq
        exact (ih.ready _ e m₀ (by rw [hqueue]; simp) ho).expired hh rfl
      | foreign m => exact ih.accept fun q _ m₀ ho => by simp at ho
      | channelLost t => exact ih.requeue t

/-- What the relay publishes for a row is about the payment of its event. -/
theorem eventPayment_outboxPublication (row : OutboxMessage) :
    eventPayment R (outboxPublication R row).message = some row.payload.paymentId := by
  simp [eventPayment, outboxPublication, R.validateEvent_encodeEvent]

end Payments
