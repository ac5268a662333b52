import PaymentProcessing.Foundations.Effects.Execution
import PaymentProcessing.System.Calm
import PaymentProcessing.System.Copies

/-!
# Times to live

The service over a broker that keeps a message in a retry queue until its time to live is over. A
message carries a stamp, which nobody reads: when the first message it is a copy of came into the
broker, and when it came into its queue itself. The times to live are a parameter `ttl`, in whole
milliseconds for each retry queue, so that nothing depends on the rounding with which they are
computed.

Every step is one of `service`, and the steps of `service` are these, but for messages that come
back too early (`Timed.exists_step`).
-/

namespace Payments

open Effects Relation

/-! ## The broker with stamps -/

/-- The history of a message inside the broker. -/
structure Stamp where
  /-- When the first message it is a copy of came into the broker. -/
  origin : Time
  /-- When it came into its queue. -/
  since : Time

/-- A message and its stamp. -/
abbrev Stamped : Type := Envelope × Stamp

/-- The broker with the stamps of its messages. -/
structure StampedBroker where
  queues : String → List Stamped
  delivered : ℕ → Option Stamped
  unacked : ℕ → Bool

namespace StampedBroker

variable (B : StampedBroker)

/-- The broker without the stamps. -/
def erase : Broker where
  queues q := (B.queues q).map Prod.fst
  delivered t := (B.delivered t).map Prod.fst
  unacked := B.unacked

/-- Put a message into queues. -/
def accept (names : List String) (x : Stamped) : StampedBroker :=
  { B with queues := fun q => B.queues q ++ List.replicate (names.count q) x }

/-- A message given to thread `t` leaves its queue. -/
def deliver (t : ℕ) (x : Stamped) (rest : List Stamped) : StampedBroker where
  queues := Function.update B.queues paymentsNewQueueName rest
  delivered := Function.update B.delivered t (some x)
  unacked := Function.update B.unacked t true

/-- The delivery of `t` is settled. -/
def settle (t : ℕ) : StampedBroker := { B with unacked := Function.update B.unacked t false }

/-- The message of an unsettled delivery is ready again. -/
def requeue (now : Time) (t : ℕ) : StampedBroker :=
  match B.delivered t with
  | some (e, τ) =>
    if B.unacked t then (B.accept [paymentsNewQueueName] (e, ⟨τ.origin, now⟩)).settle t else B
  | none => B

/-- A message changes queues. -/
def move (name : String) (rest : List Stamped) (names : List String) (x : Stamped) :
    StampedBroker :=
  { B with queues := Function.update B.queues name rest }.accept names x

/-- What thread `t` publishes is a copy of what it was delivered, or it is new. -/
def publish (cfg : Settings) (now : Time) (t : ℕ) (p : Publication) : StampedBroker :=
  let origin := (B.delivered t).elim (some p.message) fun x => x.1.origin
  let start := (B.delivered t).elim now fun x => x.2.origin
  B.accept ((route cfg p.exchange p.routingKey).map RabbitQueue.name)
    (⟨p.message, origin, p.cause⟩, ⟨start, now⟩)

section Erase

variable {B}

theorem erase_accept (names : List String) (x : Stamped) :
    (B.accept names x).erase = B.erase.accept names x.1 := by
  simp [erase, accept, Broker.accept]

theorem erase_deliver (t : ℕ) (x : Stamped) (rest : List Stamped) :
    (B.deliver t x rest).erase = B.erase.deliver t x.1 (rest.map Prod.fst) := by
  unfold erase deliver Broker.deliver
  congr 1
  · funext q
    by_cases hq : q = paymentsNewQueueName
    · subst hq
      simp
    · simp [hq]
  · funext t'
    by_cases ht : t' = t
    · subst ht
      simp
    · simp [ht]

theorem erase_settle (t : ℕ) : (B.settle t).erase = B.erase.settle t := rfl

theorem erase_requeue (now : Time) (t : ℕ) : (B.requeue now t).erase = B.erase.requeue t := by
  unfold requeue Broker.requeue
  cases hd : B.delivered t with
  | none => simp [erase, hd]
  | some x =>
    cases hu : B.unacked t with
    | false => simp [erase, hd, hu]
    | true => simp [erase, hd, hu, settle, Broker.settle, accept, Broker.accept]

theorem erase_move (name : String) (rest : List Stamped) (names : List String) (x : Stamped) :
    (B.move name rest names x).erase = B.erase.move name (rest.map Prod.fst) names x.1 := by
  unfold move Broker.move
  rw [erase_accept]
  congr 1
  unfold erase
  congr 1
  funext q
  by_cases hq : q = name
  · subst hq
    simp
  · simp [hq]

theorem erase_publish (cfg : Settings) (now : Time) (t : ℕ) (p : Publication) {w : World}
    (h : B.erase = w.broker) : (B.publish cfg now t p).erase = (w.accept t cfg p).broker := by
  unfold publish World.accept
  rw [erase_accept, ← h]
  unfold erase
  dsimp only
  cases B.delivered t <;> rfl

end Erase

end StampedBroker

/-! ## The service with stamps -/

variable (R : Runtime) (cfg : Settings)

/-- What an operation of thread `t` does to the stamps, when it leaves the broker as `B'`. -/
inductive Passes (now : Time) (t : ℕ) (B : StampedBroker) : Op → Broker → StampedBroker → Prop
  | same (o : Op) : Passes now t B o B.erase B
  | published (p : Publication) :
      Passes now t B (.publish p) (B.publish cfg now t p).erase (B.publish cfg now t p)
  | settled : Passes now t B .ack (B.settle t).erase (B.settle t)
  | requeued : Passes now t B .nack (B.requeue now t).erase (B.requeue now t)

variable {cfg} in
theorem Passes.erase {now : Time} {t : ℕ} {B B'' : StampedBroker} {o : Op} {B' : Broker}
    (h : Passes cfg now t B o B' B'') : B''.erase = B' := by
  cases h <;> rfl

/-- The service with a broker that has stamps. -/
structure Timed where
  base : (service R cfg).State
  broker : StampedBroker

namespace Timed

variable {R cfg}

/-- The time. -/
abbrev clock (s : Timed R cfg) : Time := s.base.world.clock

variable (ttl : ℕ → ℕ)

/-- **One step**; a message leaves a retry queue when its time to live is over. -/
inductive Step : Timed R cfg → Timed R cfg → Prop
  | create {s : Timed R cfg} (command : CreatePaymentCommand) :
      Step s ⟨⟨s.base.world, Function.update s.base.threads s.base.born
        (.running (.create command) (code R cfg (.create command))), s.base.born + 1⟩, s.broker⟩
  | relay {s : Timed R cfg} :
      Step s ⟨⟨s.base.world, Function.update s.base.threads s.base.born
        (.running .relay (code R cfg .relay)), s.base.born + 1⟩, s.broker⟩
  | deliver {s : Timed R cfg} {x : Stamped} {before after : List Stamped}
      (h : s.broker.queues paymentsNewQueueName = before ++ x :: after) :
      Step s ⟨⟨{ s.base.world with broker := (s.broker.deliver s.base.born x (before ++ after)).erase },
        Function.update s.base.threads s.base.born
          (.running (.deliver x.1) (code R cfg (.deliver x.1))), s.base.born + 1⟩,
        s.broker.deliver s.base.born x (before ++ after)⟩
  | exec {s : Timed R cfg} {t : ℕ} {k : Kind} {o : Op} {c : Res o → Prog Op Res (Out k)}
      {r : Res o} {w : World} {B : StampedBroker} (ht : s.base.threads t = .running k (.op o c))
      (h : Exec cfg t o r s.base.world w) (hB : Passes cfg s.clock t s.broker o w.broker B) :
      Step s ⟨⟨w, Function.update s.base.threads t (.running k (c r)), s.base.born⟩, B⟩
  | crash {s : Timed R cfg} {t : ℕ} {k : Kind} {p : Prog Op Res (Out k)}
      (ht : s.base.threads t = .running k p) :
      Step s ⟨⟨s.base.world.crash t, Function.update s.base.threads t (.crashed k), s.base.born⟩,
        s.broker.requeue s.clock t⟩
  | tick {s : Timed R cfg} {clock : Time} (h : s.clock ≤ clock) :
      Step s ⟨⟨{ s.base.world with clock := clock }, s.base.threads, s.base.born⟩, s.broker⟩
  | expired {s : Timed R cfg} {n : ℕ} (h1 : 1 ≤ n) (hn : n ≤ cfg.maxRetries)
      {before after : List Stamped} {x : Stamped}
      (h : s.broker.queues (retryQueueName n) = before ++ x :: after)
      (hold : x.2.since + 1000 * ttl n ≤ s.clock) {headers : Headers}
      (hh : ∀ key, key ∉ brokerOwnedHeaders → headers key = x.1.message.headers key)
      {B : StampedBroker} (hB : B = s.broker.move (retryQueueName n) (before ++ after)
        [paymentsNewQueueName]
        ({ x.1 with message := { x.1.message with headers := headers } }, ⟨x.2.origin, s.clock⟩)) :
      Step s ⟨⟨{ s.base.world with broker := B.erase }, s.base.threads, s.base.born⟩, B⟩
  | foreign {s : Timed R cfg} (m : Message) {B : StampedBroker}
      (hB : B = s.broker.accept [paymentsNewQueueName] (⟨m, none, none⟩, ⟨s.clock, s.clock⟩)) :
      Step s ⟨⟨{ s.base.world with broker := B.erase }, s.base.threads, s.base.born⟩, B⟩
  | channelLost {s : Timed R cfg} (t : ℕ) :
      Step s ⟨⟨{ s.base.world with broker := (s.broker.requeue s.clock t).erase }, s.base.threads,
        s.base.born⟩, s.broker.requeue s.clock t⟩

/-- Any number of steps. -/
def Run : Timed R cfg → Timed R cfg → Prop := ReflTransGen (Step ttl)

/-- Nothing has happened. -/
def Initial (s : Timed R cfg) : Prop :=
  (service R cfg).Initial s.base ∧ s.broker = ⟨fun _ => [], fun _ => none, fun _ => false⟩

/-- The states of all runs from an initial state. -/
def Reachable (s : Timed R cfg) : Prop := ∃ s₀, Initial s₀ ∧ Run ttl s₀ s

variable {ttl}

theorem Reachable.run {s s' : Timed R cfg} (h : Reachable ttl s) (hr : Run ttl s s') :
    Reachable ttl s' := by
  obtain ⟨s₀, h₀, h⟩ := h
  exact ⟨s₀, h₀, h.trans hr⟩

theorem Reachable.step {s s' : Timed R cfg} (h : Reachable ttl s) (hs : Step ttl s s') :
    Reachable ttl s' :=
  h.run (.single hs)

/-- **The invariant rule.** -/
theorem Reachable.invariant {I : Timed R cfg → Prop} (hinit : ∀ s, Initial s → I s)
    (hstep : ∀ s s', Reachable ttl s → I s → Step ttl s s' → I s') {s : Timed R cfg}
    (h : Reachable ttl s) : I s := by
  obtain ⟨s₀, h₀, hr⟩ := h
  induction hr with
  | refl => exact hinit _ h₀
  | tail hr hs ih => exact hstep _ _ ⟨s₀, h₀, hr⟩ ih hs

/-! ## The service without stamps -/

variable {s s' : Timed R cfg}

/-- The stamped broker remains the broker. -/
theorem Step.agrees (hs : Step ttl s s') (h : s.broker.erase = s.base.world.broker) :
    s'.broker.erase = s'.base.world.broker := by
  cases hs with
  | create _ => exact h
  | relay => exact h
  | deliver _ => rfl
  | exec _ _ hB => exact hB.erase
  | crash _ =>
    rw [StampedBroker.erase_requeue, h]
    rfl
  | tick _ => exact h
  | expired => rfl
  | foreign => rfl
  | channelLost _ => rfl

/-- **The stamped broker is the broker.** -/
theorem agrees (h : Reachable ttl s) : s.broker.erase = s.base.world.broker := by
  refine h.invariant (fun s hs => ?_) fun s s' _ ih hs => hs.agrees ih
  obtain ⟨⟨⟨clock, hw⟩, -, -⟩, hB⟩ := hs
  rw [hw, hB]
  rfl

theorem queues_eq (h : Reachable ttl s) (q : String) :
    s.base.world.broker.queues q = (s.broker.queues q).map Prod.fst := by
  rw [← agrees h]
  rfl

/-- **A step is one of the service.** -/
theorem Step.of_service (hs : Step ttl s s') (h : Reachable ttl s) : (service R cfg).Step s.base s'.base := by
  have hB := Timed.agrees h
  cases hs with
  | create command => exact .start (.create command _)
  | relay => exact .start (.relay _)
  | @deliver x before after hq =>
    have hq' : s.base.world.broker.queues paymentsNewQueueName =
        before.map Prod.fst ++ x.1 :: after.map Prod.fst := by
      rw [queues_eq h, hq]
      simp
    rw [StampedBroker.erase_deliver, hB, List.map_append]
    exact .start (.deliver hq')
  | exec ht hx _ => exact .exec ht hx
  | crash ht => exact .crash ht rfl
  | tick hc => exact .env (.tick hc)
  | @expired n h1 hn before after x hq hold headers hh B hB' =>
    have hq' : s.base.world.broker.queues (retryQueueName n) =
        before.map Prod.fst ++ x.1 :: after.map Prod.fst := by
      rw [queues_eq h, hq]
      simp
    have hmem : retryQueue cfg n ∈ queues cfg :=
      mem_queues_of_mem_route cfg (by rw [route_retry cfg h1 hn]; exact List.mem_singleton_self _)
    have hexpired : Expired cfg s.base.world _ := .intro hmem rfl rfl hq' hh
    rw [route_payments] at hexpired
    rw [hB', StampedBroker.erase_move, hB, List.map_append]
    exact .env (.expired hexpired)
  | foreign m hB' =>
    rw [hB', StampedBroker.erase_accept, hB]
    exact .env (.foreign _ m)
  | channelLost t =>
    rw [StampedBroker.erase_requeue, hB]
    exact .env (.channelLost _ t)

theorem reachable_base (h : Reachable ttl s) : (service R cfg).Reachable s.base := by
  refine h.invariant (I := fun s => (service R cfg).Reachable s.base) (fun s hs => ?_)
    fun s s' h ih hs => ih.step (hs.of_service h)
  exact ⟨_, hs.1, .refl⟩

/-! ## How long messages have been in their queues -/

/-- No message came into its queue after `now`. -/
def Recent (now : Time) (B : StampedBroker) : Prop := ∀ q x, x ∈ B.queues q → x.2.since ≤ now

namespace Recent

variable {now now' : Time} {B : StampedBroker}

theorem later (h : Recent now B) (hle : now ≤ now') : Recent now' B :=
  fun q x hx => (h q x hx).trans hle

theorem accept (h : Recent now B) (names : List String) {x : Stamped} (hx : x.2.since ≤ now) :
    Recent now (B.accept names x) := by
  intro q y hy
  rcases List.mem_append.mp hy with hy | hy
  · exact h q y hy
  · rwa [List.eq_of_mem_replicate hy]

theorem requeue (h : Recent now B) (t : ℕ) : Recent now (B.requeue now t) := by
  unfold StampedBroker.requeue
  cases B.delivered t with
  | none => exact h
  | some x =>
    dsimp only
    split
    · exact h.accept _ le_rfl
    · exact h

/-- A message that leaves its queue is gone. -/
theorem remove (h : Recent now B) {name : String} {before after : List Stamped} {x : Stamped}
    (hq : B.queues name = before ++ x :: after) {q : String} {y : Stamped}
    (hy : y ∈ Function.update B.queues name (before ++ after) q) : y.2.since ≤ now := by
  by_cases hqn : q = name
  · subst hqn
    rw [Function.update_self] at hy
    refine h q y ?_
    rw [hq]
    exact List.perm_middle.mem_iff.mpr (List.mem_cons_of_mem x hy)
  · rw [Function.update_of_ne hqn] at hy
    exact h q y hy

end Recent

/-- **No message is in its queue from a later time on.** -/
theorem recent (h : Reachable ttl s) : Recent s.clock s.broker := by
  refine h.invariant (I := fun s => Recent s.clock s.broker) (fun s hs => ?_) fun s s' _ ih hs => ?_
  · rw [hs.2]
    intro q x hx
    cases hx
  · cases hs with
    | create _ => exact ih
    | relay => exact ih
    | deliver hq => exact fun q y hy => ih.remove hq hy
    | @exec t k o c r w B ht hx hB =>
      refine Recent.later ?_ (le_of_eq hx.clock.symm)
      generalize w.broker = B' at hB
      cases hB with
      | same => exact ih
      | published p => exact ih.accept _ le_rfl
      | settled => exact ih
      | requeued => exact ih.requeue t
    | @crash t _ _ _ => exact ih.requeue t
    | tick hc => exact ih.later hc
    | expired h1 hn hq hold hh hB =>
      subst hB
      refine Recent.accept (fun q y hy => ih.remove hq hy) _ le_rfl
    | foreign m hB =>
      subst hB
      exact ih.accept _ le_rfl
    | channelLost t => exact ih.requeue t

/-! ## The service and its delays -/

/-- An operation has some effect on the stamps. -/
theorem exists_passes {w w' : World} {t : ℕ} {o : Op} {r : Res o} (h : Exec cfg t o r w w')
    {B : StampedBroker} (hB : B.erase = w.broker) (now : Time) :
    ∃ B', Passes cfg now t B o w'.broker B' := by
  rcases h.broker_cases with heq | ⟨p, rfl, heq⟩ | ⟨rfl, heq⟩ | ⟨rfl, heq⟩ <;> rw [heq]
  · rw [← hB]
    exact ⟨_, .same o⟩
  · rw [← StampedBroker.erase_publish cfg now t p hB]
    exact ⟨_, .published p⟩
  · rw [← hB, ← StampedBroker.erase_settle]
    exact ⟨_, .settled⟩
  · rw [← hB, ← StampedBroker.erase_requeue now]
    exact ⟨_, .requeued⟩

/-- What the service does when a message comes back, it can do later, but no later than after the
time to live. -/
theorem exists_expired (h : Reachable ttl s) {w : World} (he : Expired cfg s.base.world w) :
    ∃ n clock s', 1 ≤ n ∧ n ≤ cfg.maxRetries ∧ clock ≤ s.clock + 1000 * ttl n ∧ Run ttl s s' ∧
      s'.base = ⟨{ w with clock := clock }, s.base.threads, s.base.born⟩ := by
  cases he with
  | @intro q hmem exchange routingKey hx hk before after e hq headers hh =>
    obtain ⟨⟨n, h1, hn, hname⟩, rfl, hkey⟩ := deadLetter_of_mem_queues cfg hmem hx
    obtain rfl : routingKey = paymentsNewRoutingKey := Option.some.inj (hk.symm.trans hkey)
    rw [hname, queues_eq h, List.map_eq_append_iff] at hq
    obtain ⟨before, rest, hq, rfl, hrest⟩ := hq
    obtain ⟨x, after, rfl, rfl, rfl⟩ := List.map_eq_cons_iff.mp hrest
    let clock := max s.clock (x.2.since + 1000 * ttl n)
    let s₁ : Timed R cfg :=
      ⟨⟨{ s.base.world with clock := clock }, s.base.threads, s.base.born⟩, s.broker⟩
    have htick : Step ttl s s₁ := .tick (le_max_left _ _)
    have hsince : x.2.since ≤ s.clock := recent h (retryQueueName n) x (by rw [hq]; simp)
    refine ⟨n, clock, _, h1, hn, max_le (Nat.le_add_right _ _) (Nat.add_le_add_right hsince _),
      (ReflTransGen.single htick).tail (.expired (s := s₁) h1 hn hq (le_max_right _ _) hh rfl), ?_⟩
    rw [StampedBroker.erase_move, agrees h, List.map_append, route_payments, hname]
    rfl

/-- **Only times to live hold the service up.** A step of the service is a step here, but for
messages that come back from a retry queue, and these come back within their time to live. -/
theorem exists_step (h : Reachable ttl s) {b : (service R cfg).State}
    (hs : (service R cfg).Step s.base b) :
    (∃ s', Step ttl s s' ∧ s'.base = b) ∨ Expired cfg s.base.world b.world ∧
      ∃ n clock s', 1 ≤ n ∧ n ≤ cfg.maxRetries ∧ clock ≤ s.clock + 1000 * ttl n ∧ Run ttl s s' ∧
        s'.base = ⟨{ b.world with clock := clock }, b.threads, b.born⟩ := by
  have hB := agrees h
  cases hs with
  | @start k w hstart =>
    cases hstart with
    | create command => exact .inl ⟨_, .create command, rfl⟩
    | relay => exact .inl ⟨_, .relay, rfl⟩
    | @deliver _ e before after hq =>
      rw [queues_eq h, List.map_eq_append_iff] at hq
      obtain ⟨before, rest, hq, rfl, hrest⟩ := hq
      obtain ⟨x, after, rfl, rfl, rfl⟩ := List.map_eq_cons_iff.mp hrest
      refine .inl ⟨_, .deliver hq, ?_⟩
      rw [StampedBroker.erase_deliver, hB, List.map_append]
  | exec ht hx =>
    obtain ⟨B, hpass⟩ := exists_passes hx hB s.clock
    exact .inl ⟨_, .exec ht hx hpass, rfl⟩
  | crash ht hw =>
    obtain rfl := hw
    exact .inl ⟨_, .crash ht, rfl⟩
  | env he =>
    cases he with
    | tick hc => exact .inl ⟨_, .tick hc, rfl⟩
    | expired he => exact .inr ⟨he, exists_expired h he⟩
    | foreign m =>
      refine .inl ⟨_, .foreign m rfl, ?_⟩
      rw [StampedBroker.erase_accept, hB]
    | channelLost t =>
      refine .inl ⟨_, .channelLost t, ?_⟩
      rw [StampedBroker.erase_requeue, hB]

/-- What a thread can execute in the service while time passes, it can execute here. -/
theorem exists_run_of_executes {X : Type} (world : X → World) {t : ℕ}
    {exec : (o : Op) → Res o → X → X → Prop}
    (hexec : ∀ {o r x x'}, exec o r x x' → ∃ clock, (world x).clock ≤ clock ∧
      Exec cfg t o r { world x with clock := clock } (world x'))
    (h : Reachable ttl s) {k : Kind} {p : Prog Op Res (Out k)}
    (ht : s.base.threads t = .running k p) {out : Out k} {x x' : X} (hx : p.Executes exec x out x')
    (hw : s.base.world = world x) :
    ∃ s', Run ttl s s' ∧
      s'.base = ⟨world x', Function.update s.base.threads t (.running k (.ret out)), s.base.born⟩ := by
  induction hx generalizing s with
  | ret a =>
    refine ⟨s, .refl, ?_⟩
    rw [← hw, ← ht, Function.update_eq_self]
  | op hop _ ih =>
    obtain ⟨clock, hle, hx⟩ := hexec hop
    rw [← hw] at hle hx
    have htick : Step ttl s
      ⟨⟨{ s.base.world with clock := clock }, s.base.threads, s.base.born⟩, s.broker⟩ := .tick hle
    obtain ⟨B, hpass⟩ := exists_passes hx (agrees h) clock
    have hstep := (h.step htick).step (.exec ht hx hpass)
    obtain ⟨s', hr, hbase⟩ := ih hstep (Function.update_self ..) rfl
    refine ⟨s', .head htick (.head (.exec ht hx hpass) hr), ?_⟩
    rw [hbase, Function.update_idem]

/-- What is possible in the service is possible here, and takes no time. -/
theorem exists_returned (h : Reachable ttl s) {t : ℕ} {k : Kind} {p : Prog Op Res (Out k)}
    (ht : s.base.threads t = .running k p) {post : Out k → World → Prop}
    (hp : p.wp (.possible (Exec cfg t)) post s.base.world) :
    ∃ (s' : Timed R cfg) (out : Out k), Reachable ttl s' ∧ post out s'.base.world := by
  obtain ⟨out, w', hx, hpost⟩ := Prog.exists_executes_of_possible hp
  have hnow : ∀ {o : Op} {r : Res o} {w w' : World}, Exec cfg t o r w w' →
      ∃ clock, w.clock ≤ clock ∧ Exec cfg t o r { w with clock := clock } w' :=
    fun {_ _ w _} hx => ⟨w.clock, le_rfl, hx⟩
  obtain ⟨s', hr, hbase⟩ := exists_run_of_executes id hnow h ht hx rfl
  refine ⟨s', out, h.run hr, ?_⟩
  rw [hbase]
  exact hpost

end Timed

end Payments
