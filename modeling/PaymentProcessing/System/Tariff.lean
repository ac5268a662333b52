import Mathlib.Algebra.Group.Action.Defs
import PaymentProcessing.Foundations.Effects.Tally
import PaymentProcessing.System.Copies

/-!
# Tariffs

What the service does about a payment is paid for by the messages about it. A tariff (`Tariff`) says
what a message is worth in each queue, what a delivery has left to spend in each phase, and what a
notification costs, so that no step spends more than it has. Money comes in when the relay publishes
the event, and when a message gets into `payments.new` that neither the service published nor a
retry queue gave back (`Readmitted`); `Tariff.step` balances the account.
-/

namespace Payments

open Effects Python Store Finset

variable (R : Runtime) (cfg : Settings) (id : UUID)

/-- The relay's publication of the payment's event was accepted by the broker. -/
def Event.enqueues : Event → Bool
  | .published _ .refused => false
  | .published p _ => p.exchange = paymentsExchange ∧ eventPayment R p.message = some id
  | _ => false

/-- A message about the payment got into `payments.new`, and nobody published it for the service and
it did not come out of a retry queue: a delivery was not settled, or it is from elsewhere. -/
structure Readmitted (w w' : World) : Prop where
  log : w'.journal.log = w.journal.log
  retry : ∀ n, w'.broker.queues (retryQueueName n) = w.broker.queues (retryQueueName n)
  main : ∃ e, eventPayment R e.message = some id ∧
    w'.broker.queues paymentsNewQueueName = w.broker.queues paymentsNewQueueName ++ [e]

/-- The names of the declared queues. -/
def queueNames : Finset String := ((queues cfg).map RabbitQueue.name).toFinset

/-- What an operation spends, if a message in a queue is worth `copy` and a notification `post`. -/
def Op.spends (copy : String → Message → ℕ) (post : ℕ) : Op → ℕ
  | .publish p => ((route cfg p.exchange p.routingKey).map fun q => copy q.name p.message).sum
  | .httpPost q => if q.payload.paymentId = id then post else 0
  | _ => 0

/-- **A tariff**: no delivery spends more than its message is worth. -/
structure Tariff where
  /-- What a message in this queue is worth. -/
  copy : String → Message → ℕ
  /-- What a notification costs. -/
  post : ℕ
  /-- What a delivery of the message has left. -/
  delivery : Message → ConsumerPhase → ℕ
  /-- What a message can be worth in `payments.new`. -/
  price : ℕ
  other : ∀ {q m}, eventPayment R m ≠ some id → copy q m = 0
  copy_le : ∀ m, copy paymentsNewQueueName m ≤ price
  expired : ∀ {n} {m m' : Message}, m'.body = m.body →
    (∀ key, key ∉ brokerOwnedHeaders → m'.headers key = m.headers key) →
    copy paymentsNewQueueName m' ≤ copy (retryQueueName n) m
  fresh : ∀ m, delivery m .fresh ≤ copy paymentsNewQueueName m
  move : ∀ {m φ o r φ'}, ConsumerMove R cfg m φ o r φ' →
    (∀ p ∈ φ.held, eventPayment R m = some p.id) →
    o.spends cfg id copy post + delivery m φ' ≤ delivery m φ

namespace Tariff

variable {R cfg id} (T : Tariff R cfg id)

/-! ## What is inside the broker -/

/-- What the messages in a queue are worth. -/
def queue (B : Broker) (q : String) : ℕ := ((B.queues q).map fun e => T.copy q e.message).sum

/-- What all messages in queues are worth. -/
def worth (B : Broker) : ℕ := ∑ q ∈ queueNames cfg, T.queue B q

variable {B B' : Broker} {e e' : Envelope} {q : String} {before after : List Envelope}

theorem worth_congr (h : B'.queues = B.queues) : T.worth B' = T.worth B := by
  simp only [worth, queue, h]

theorem worth_accept (names : List String) :
    T.worth (B.accept names e) ≤ T.worth B + (names.map fun q => T.copy q e.message).sum := by
  have hqueue : ∀ q, T.queue (B.accept names e) q =
      T.queue B q + names.count q * T.copy q e.message := fun q => by
    simp only [queue, Broker.accept, List.map_append, List.sum_append, List.map_replicate,
      List.sum_replicate, smul_eq_mul]
  have hsub : ∑ q ∈ queueNames cfg, names.count q * T.copy q e.message ≤
      ∑ q ∈ names.toFinset, names.count q * T.copy q e.message :=
    sum_le_sum_of_ne_zero fun q _ hne => List.mem_toFinset.mpr
      (List.count_pos_iff.mp (Nat.pos_of_ne_zero (left_ne_zero_of_mul hne)))
  rw [worth, sum_congr rfl fun q _ => hqueue q, sum_add_distrib, sum_list_map_count]
  exact Nat.add_le_add_left hsub _

/-- A message leaves a queue. -/
theorem worth_take (hq : q ∈ queueNames cfg) (h : B.queues q = before ++ e :: after)
    (hB : B'.queues = Function.update B.queues q (before ++ after)) :
    T.worth B' + T.copy q e.message = T.worth B := by
  have hsum := sum_add_of_eq_off (f := T.queue B') (g := T.queue B) hq fun q' hne => by
    simp only [queue, hB, Function.update_of_ne hne]
  have hbefore : T.queue B q = T.queue B' q + T.copy q e.message := by
    simp only [queue, h, hB, Function.update_self, List.map_append, List.map_cons, List.sum_append,
      List.sum_cons]
    omega
  simp only [worth]
  omega

theorem mem_queueNames {q : RabbitQueue} (h : q ∈ queues cfg) : q.name ∈ queueNames cfg :=
  List.mem_toFinset.mpr (List.mem_map_of_mem h)

theorem main_mem_queueNames : paymentsNewQueueName ∈ queueNames cfg := by
  have h : paymentsNewQueue ∈ queues cfg := by
    rw [queues, declareTopology_eq]
    exact List.mem_cons_self
  exact mem_queueNames h

/-! ## The account -/

/-- What was spent on notifications, and what the messages in queues are worth. -/
def outlay (w : World) : ℕ :=
  T.post * w.journal.log.countP (Event.posts id) + T.worth w.broker

/-- What the publications of the relay brought in. -/
def income (w : World) : ℕ := T.price * w.journal.log.countP (Event.enqueues R id)

/-- What a thread has left. -/
def phase : Phase → ℕ
  | .consumer m φ => T.delivery m φ
  | _ => 0

/-- **The account balances** while a thread that had `x` left comes to have `y` left. -/
def Pays (w w' : World) (x y : ℕ) : Prop :=
  T.outlay w' + y + T.income w ≤ T.outlay w + x + T.income w' ∨
    (Readmitted R id w w' ∧
      T.outlay w' + y + T.income w ≤ T.outlay w + x + T.income w' + T.price)

variable {T} {w w' : World} {x y t : ℕ} {o : Op} {r : Res o}

/-- Nothing is recorded, and the messages are not worth more than before. -/
theorem Pays.of_worth (hlog : w'.journal.log = w.journal.log)
    (h : T.worth w'.broker + y ≤ T.worth w.broker + x) : T.Pays w w' x y := by
  refine .inl ?_
  simp only [outlay, income, hlog]
  omega

/-- A message is put into `payments.new`. -/
theorem Pays.readmitted (hlog : w'.journal.log = w.journal.log)
    (hq : w'.broker.queues = (w.broker.accept [paymentsNewQueueName] e).queues) (h : y ≤ x) :
    T.Pays w w' x y := by
  have hworth : T.worth w'.broker ≤ T.worth w.broker + T.copy paymentsNewQueueName e.message := by
    rw [T.worth_congr hq]
    simpa using T.worth_accept (B := w.broker) (e := e) [paymentsNewQueueName]
  by_cases hid : eventPayment R e.message = some id
  · refine .inr ⟨⟨hlog, fun n => ?_, e, hid, ?_⟩, ?_⟩
    · have hne : [paymentsNewQueueName].count (retryQueueName n) = 0 :=
        List.count_eq_zero_of_not_mem (by simpa using (retryQueueName_ne n).1)
      simp [hq, Broker.accept, hne]
    · rw [hq]
      simp [Broker.accept]
    · have hprice := T.copy_le e.message
      simp only [outlay, income, hlog]
      omega
  · rw [T.other hid] at hworth
    exact .of_worth hlog (by omega)

theorem Pays.requeue (hlog : w'.journal.log = w.journal.log)
    (hB : w'.broker = w.broker.requeue t) (h : y ≤ x) : T.Pays w w' x y := by
  rcases w.broker.requeue_cases t with heq | ⟨e, -, -, heq⟩
  · refine .of_worth hlog ?_
    rw [hB, heq]
    omega
  · exact .readmitted hlog (by rw [hB, heq]; rfl) h

/-- A message comes out of a retry queue. -/
theorem Pays.expired (h : Expired cfg w w') : T.Pays w w' 0 0 := by
  cases h with
  | @intro q hq exchange routingKey hx hk before after e h headers hh =>
    obtain ⟨⟨n, -, -, hname⟩, rfl, hkey⟩ := deadLetter_of_mem_queues cfg hq hx
    obtain rfl : routingKey = paymentsNewRoutingKey := by simpa [hk] using hkey
    let m : Message := { e.message with headers := headers }
    let B : Broker :=
      { w.broker with queues := Function.update w.broker.queues q.name (before ++ after) }
    have htake : T.worth B + T.copy q.name e.message = T.worth w.broker :=
      T.worth_take (mem_queueNames hq) h rfl
    have hput := T.worth_accept (B := B) (e := { e with message := m }) [paymentsNewQueueName]
    have hexpired : T.copy paymentsNewQueueName m ≤ T.copy q.name e.message :=
      hname ▸ T.expired rfl hh
    refine .of_worth rfl ?_
    rw [route_payments]
    simp only [List.map_cons, List.map_nil, List.sum_cons, List.sum_nil] at hput
    change T.worth (B.accept [paymentsNewQueueName] { e with message := m }) + 0 ≤ _
    omega

/-! ## Operations -/

/-- A thread spends what it has; only the relay publishes more than it has. -/
theorem phase_move {φ φ' : Phase} (hm : Move R cfg φ o r φ') (hk : Knows R w t φ) :
    o.spends cfg id T.copy T.post + T.phase φ' ≤ T.phase φ ∨
      ∃ row, o = .publish (outboxPublication R row) ∧ w.outbox.Holds t row ∧ T.phase φ' = 0 := by
  cases hm with
  | api hm => cases hm <;> exact .inl le_rfl
  | relay hm =>
    cases hm with
    | confirmed =>
      exact .inr ⟨_, rfl, RelayPhase.Knows.held hk _ (by simp [RelayPhase.held]), rfl⟩
    | postponed =>
      exact .inr ⟨_, rfl, RelayPhase.Knows.held hk _ (by simp [RelayPhase.held]), rfl⟩
    | _ => exact .inl le_rfl
  | consumer hm => exact .inl (T.move hm (ConsumerPhase.Knows.event hk))

/-- What is recorded about an operation. -/
theorem log_le (hx : Exec cfg t o r w w') :
    T.post * w'.journal.log.countP (Event.posts id) ≤
        T.post * w.journal.log.countP (Event.posts id) + o.spends cfg id T.copy T.post ∧
      T.income w ≤ T.income w' := by
  rcases Exec.log_cases hx with heq | ⟨e, he, heq⟩
  · simp only [income, heq]
    omega
  · refine ⟨?_, ?_⟩
    · rw [heq, List.countP_cons, Nat.mul_add]
      refine Nat.add_le_add_left ?_ _
      cases he with
      | posted q =>
        by_cases hq : q.payload.paymentId = id <;> simp [Event.posts, Op.spends, hq]
      | _ => simp [Event.posts]
    · rw [income, income, heq, List.countP_cons]
      exact Nat.mul_le_mul_left _ (Nat.le_add_right _ _)

/-- The broker accepts a publication: the service had it to spend, or it is the relay's. -/
theorem Pays.accepted {p : Publication} {outcome : PublishOutcome} (ho : outcome ≠ .refused)
    (hlog : w'.journal.log = .published p outcome :: w.journal.log)
    (hq : w'.broker.queues = (w.accept t cfg p).broker.queues) (h : y ≤ x)
    (hp : (Op.publish p).spends cfg id T.copy T.post + y ≤ x ∨
      (p.exchange = paymentsExchange ∧ p.routingKey = paymentsNewRoutingKey)) :
    T.Pays w w' x y := by
  have hworth : T.worth w'.broker ≤
      T.worth w.broker + (Op.publish p).spends cfg id T.copy T.post := by
    have hle := T.worth_accept (B := w.broker)
      (e := ⟨p.message, (w.broker.delivered t).elim (some p.message) Envelope.origin, p.cause⟩)
      ((route cfg p.exchange p.routingKey).map RabbitQueue.name)
    rw [List.map_map] at hle
    rw [T.worth_congr hq]
    exact hle
  have hposts : w'.journal.log.countP (Event.posts id) = w.journal.log.countP (Event.posts id) := by
    rw [hlog]
    exact List.countP_cons_of_neg (by simp [Event.posts])
  have hincome : T.income w' =
      T.income w + T.price * if Event.enqueues R id (.published p outcome) then 1 else 0 := by
    rw [income, hlog, List.countP_cons, Nat.mul_add]
    rfl
  refine .inl ?_
  rw [outlay, outlay, hposts, hincome]
  rcases hp with hle | ⟨hexchange, hkey⟩
  · omega
  · have hspends : (Op.publish p).spends cfg id T.copy T.post =
        T.copy paymentsNewQueueName p.message := by
      simp [Op.spends, hexchange, hkey, route_payments, paymentsNewQueue]
    by_cases hid : eventPayment R p.message = some id
    · have hprice := T.copy_le p.message
      have hin : Event.enqueues R id (.published p outcome) = true := by
        cases outcome with
        | refused => exact absurd rfl ho
        | _ => exact decide_eq_true ⟨hexchange, hid⟩
      rw [hin, if_pos rfl]
      omega
    · rw [T.other hid] at hspends
      omega

/-- **A thread that executes an operation balances the account.** -/
theorem Pays.exec {v : View R cfg} (hv : (serviceSpec R cfg).Reachable v) {φ φ' : Phase}
    (ht : v.status t = .active φ) (hm : Move R cfg φ o r φ') (hx : Exec cfg t o r v.world w) :
    T.Pays v.world w (T.phase φ) (T.phase φ') := by
  have hk := knows hv ht
  have hmove := phase_move (T := T) hm hk
  by_cases hpub : ∃ p, o = .publish p
  · obtain ⟨p, rfl⟩ := hpub
    have hle : T.phase φ' ≤ T.phase φ := by
      rcases hmove with hle | ⟨row, -, -, hzero⟩
      · omega
      · omega
    have hp : (Op.publish p).spends cfg id T.copy T.post + T.phase φ' ≤ T.phase φ ∨
        (p.exchange = paymentsExchange ∧ p.routingKey = paymentsNewRoutingKey) := by
      refine hmove.imp_right ?_
      rintro ⟨row, hrow, hheld, -⟩
      obtain rfl : p = outboxPublication R row := by simpa using hrow
      exact ⟨rfl, ((paired hv).payment _ _ hheld.row).2.2.2⟩
    cases hx with
    | confirmed => exact .accepted (by decide) rfl rfl hle hp
    | confirmationLost => exact .accepted (by decide) rfl rfl hle hp
    | refused =>
      refine .inl ?_
      simp only [outlay, income, World.journal_record, World.broker_record, Journal.record]
      simp only [List.countP_cons, Event.posts, Event.enqueues, Bool.false_eq_true, if_false,
        Nat.add_zero]
      omega
  · have hle : o.spends cfg id T.copy T.post + T.phase φ' ≤ T.phase φ := by
      refine hmove.resolve_right ?_
      rintro ⟨row, hrow, -⟩
      exact hpub ⟨_, hrow⟩
    obtain ⟨hposts, hincome⟩ := log_le (T := T) hx
    have hsame : w.broker.queues = v.world.broker.queues →
        T.Pays v.world w (T.phase φ) (T.phase φ') := fun hq => by
      refine .inl ?_
      rw [outlay, outlay, T.worth_congr hq]
      omega
    rcases hx.broker_cases with heq | ⟨p, hp, -⟩ | ⟨-, heq⟩ | ⟨rfl, heq⟩
    · exact hsame (by rw [heq])
    · exact absurd ⟨p, hp⟩ hpub
    · exact hsame (by rw [heq]; rfl)
    · exact .requeue (by cases hx <;> rfl) heq (by omega)

/-! ## Steps -/

variable (T)

/-- What a thread has left, if it is one that goes on. -/
def status : Status R cfg → ℕ
  | .active φ => T.phase φ
  | _ => 0

/-- What is spent and what is left. -/
def account (v : View R cfg) : ℕ := T.outlay v.world + ∑ t ∈ range v.born, T.status (v.status t)

variable {T} {v v' : View R cfg}

theorem sum_update {z : Status R cfg} (ht : t < v.born) :
    ∑ t' ∈ range v.born, T.status (Function.update v.status t z t') + T.status (v.status t) =
      ∑ t' ∈ range v.born, T.status (v.status t') + T.status z := by
  have hsum := sum_add_of_eq_off (f := fun t' => T.status (Function.update v.status t z t'))
    (g := fun t' => T.status (v.status t')) (mem_range.mpr ht) fun t' hne => by
      simp only [Function.update_of_ne hne]
  simpa using hsum

/-- What a thread that was started has left is counted. -/
theorem sum_start (φ : Phase) :
    ∑ t ∈ range (v.born + 1), T.status (Function.update v.status v.born (.active φ) t) =
      ∑ t ∈ range v.born, T.status (v.status t) + T.phase φ := by
  rw [sum_range_succ, Function.update_self]
  refine congrArg (· + T.phase φ) (sum_congr rfl fun t ht => ?_)
  rw [Function.update_of_ne (mem_range.mp ht).ne]

/-- **No step spends more than comes in**, but for the price of a message that is readmitted. -/
theorem step (hv : (serviceSpec R cfg).Reachable v) (hs : (serviceSpec R cfg).Step v v') :
    T.account v' + T.income v.world ≤ T.account v + T.income v'.world ∨
      (Readmitted R id v.world v'.world ∧
        T.account v' + T.income v.world ≤ T.account v + T.income v'.world + T.price) := by
  have hpays : ∀ {x y : ℕ}, T.Pays v.world v'.world x y →
      ∑ t ∈ range v'.born, T.status (v'.status t) + x =
        ∑ t ∈ range v.born, T.status (v.status t) + y →
      T.account v' + T.income v.world ≤ T.account v + T.income v'.world ∨
        (Readmitted R id v.world v'.world ∧
          T.account v' + T.income v.world ≤ T.account v + T.income v'.world + T.price) := by
    intro x y hp hsum
    unfold account
    refine hp.imp (fun hle => ?_) fun ⟨hre, hle⟩ => ⟨hre, ?_⟩
    · omega
    · omega
  cases hs with
  | @start k w hst =>
    have hsum := sum_start (T := T) (v := v) (firstPhase k)
    cases hst with
    | create c => exact hpays (x := 0) (y := 0) (.of_worth rfl le_rfl) hsum
    | relay => exact hpays (x := 0) (y := 0) (.of_worth rfl le_rfl) hsum
    | @deliver _ e before after h =>
      have htake : T.worth (v.world.broker.deliver v.born e (before ++ after)) +
          T.copy paymentsNewQueueName e.message = T.worth v.world.broker :=
        T.worth_take main_mem_queueNames h rfl
      refine hpays (x := 0) (.of_worth rfl ?_) hsum
      exact htake ▸ Nat.add_le_add_left (T.fresh e.message) _
  | @exec t φ φ' o r w ht hm hx =>
    have hsum := sum_update (T := T) (z := .active φ') (active_lt hv ht)
    rw [ht] at hsum
    exact hpays (.exec hv ht hm hx) hsum
  | @crash t φ w ht hw =>
    obtain rfl : w = World.crash v.world t := hw
    have hsum := sum_update (T := T) (z := .crashed) (active_lt hv ht)
    rw [ht] at hsum
    exact hpays (y := 0) (.requeue rfl rfl (Nat.zero_le _)) hsum
  | @env w he =>
    refine hpays (x := 0) (y := 0) ?_ rfl
    cases he with
    | tick h => exact .of_worth rfl le_rfl
    | expired h => exact .expired h
    | foreign m => exact .readmitted rfl rfl le_rfl
    | channelLost t => exact .requeue rfl rfl le_rfl

/-- **The books of a run**: what was spent and is left was paid for by the publications of the relay
and the messages that were readmitted. -/
theorem bounded {v₀ : View R cfg} (h₀ : (serviceSpec R cfg).Initial v₀) {n : ℕ}
    (h : Tally (serviceSpec R cfg).Step (fun v v' => Readmitted R id v.world v'.world) v₀ n v) :
    T.account v ≤ T.income v.world + T.price * n := by
  obtain ⟨-, hle⟩ := h.bounded (serviceSpec R cfg).Reachable T.account (fun v => T.income v.world)
    T.price (fun hv hs => hv.step hs) (fun hv hs => step hv hs) ⟨v₀, h₀, .refl⟩
  obtain ⟨⟨clock, hw⟩, -, hb⟩ := h₀
  have hzero : T.account v₀ = 0 := by
    simp [account, outlay, worth, queue, hw, hb, World.initial, Journal.empty]
  omega

end Tariff

end Payments
