import PaymentProcessing.Domain.Basic
import PaymentProcessing.Foundations.Effects.Declaring
import PaymentProcessing.Properties.Schedule

/-!
# Declaring the topology

`declare_topology` as it talks to the broker: exchanges and queues are declared and bound one after
the other. The broker refuses a name that is declared with other arguments, a time to live it cannot
keep, and a binding between things that do not exist; whatever it has accepted stays, also when the
process that asked for it is gone.

Every relay and every consumer runs it when it starts (`setup`), each with its own settings.
-/

namespace Payments

open Effects

namespace Setup

/-- The types of exchanges. -/
inductive ExchangeType
  | direct
  | fanout
  | topic
  | headers
  deriving DecidableEq

/-- An exchange. -/
structure RabbitExchange where
  name : String
  type : ExchangeType
  durable : Bool
  deriving DecidableEq

/-- `payments_exchange`. -/
def paymentsExchange : RabbitExchange := ⟨Payments.paymentsExchange, .direct, true⟩

/-- `retry_exchange`. -/
def retryExchange : RabbitExchange := ⟨Payments.retryExchange, .direct, true⟩

/-- `dlx_exchange`. -/
def dlxExchange : RabbitExchange := ⟨Payments.dlxExchange, .direct, true⟩

/-- What the broker compares when a queue is declared again. -/
structure QueueArguments where
  messageTtl : Option ℤ
  deadLetterExchange : Option String
  deadLetterRoutingKey : Option String
  deriving DecidableEq

end Setup

/-- The `x-` arguments of a queue. -/
def RabbitQueue.arguments (q : RabbitQueue) : Setup.QueueArguments :=
  ⟨q.messageTtl, q.deadLetterExchange, q.deadLetterRoutingKey⟩

namespace Setup

/-! ## The broker -/

/-- What is declared in the broker. -/
structure Declared where
  exchanges : String → Option RabbitExchange
  queues : String → Option QueueArguments
  /-- The queues that are bound to an exchange with a key. -/
  bindings : String → String → List String

/-- What a process can declare. -/
inductive SetupOp
  | declareExchange (exchange : RabbitExchange)
  | declareQueue (queue : RabbitQueue)
  | bind (queue exchange routingKey : String)

/-- Nothing is declared. -/
def Declared.empty : Declared := ⟨fun _ => none, fun _ => none, fun _ _ => []⟩

/-- The broker does not refuse it. -/
def accepts (D : Declared) : SetupOp → Prop
  | .declareExchange e => ∀ e' ∈ D.exchanges e.name, e' = e
  | .declareQueue q => (∀ args ∈ D.queues q.name, args = q.arguments) ∧
      ∀ ttl ∈ q.messageTtl, 0 ≤ ttl ∧ ttl ≤ maxMessageTtl
  | .bind queue exchange _ => (D.queues queue).isSome ∧ (D.exchanges exchange).isSome

/-- What becomes of the broker when it accepts. -/
def declare (D : Declared) : SetupOp → Declared
  | .declareExchange e => { D with exchanges := Function.update D.exchanges e.name (some e) }
  | .declareQueue q => { D with queues := Function.update D.queues q.name (some q.arguments) }
  | .bind queue exchange routingKey =>
    { D with
      bindings := fun x k =>
        if x = exchange ∧ k = routingKey ∧ queue ∉ D.bindings x k then D.bindings x k ++ [queue]
        else D.bindings x k }

/-- It has been declared. -/
def declared (D : Declared) : SetupOp → Prop
  | .declareExchange e => D.exchanges e.name = some e
  | .declareQueue q => D.queues q.name = some q.arguments ∧
      ∀ ttl ∈ q.messageTtl, 0 ≤ ttl ∧ ttl ≤ maxMessageTtl
  | .bind queue exchange routingKey => (D.queues queue).isSome ∧ (D.exchanges exchange).isSome ∧
      queue ∈ D.bindings exchange routingKey

section Laws

variable {D : Declared} {o o' : SetupOp}

theorem mem_bindings_declare {queue exchange routingKey q x k : String} :
    q ∈ (declare D (.bind queue exchange routingKey)).bindings x k ↔
      q ∈ D.bindings x k ∨ (q = queue ∧ x = exchange ∧ k = routingKey) := by
  unfold declare
  dsimp only
  split
  · simp_all
  · constructor
    · exact .inl
    · rintro (h | ⟨rfl, rfl, rfl⟩)
      · exact h
      · simp_all

theorem declared_declare (h : accepts D o) : declared (declare D o) o := by
  cases o with
  | declareExchange e => simp [declared, declare]
  | declareQueue q => exact ⟨by simp [declare], h.2⟩
  | bind queue exchange routingKey =>
    exact ⟨h.1, h.2, mem_bindings_declare.mpr (.inr ⟨rfl, rfl, rfl⟩)⟩

theorem declared_mono (ha : accepts D o') (h : declared D o) : declared (declare D o') o := by
  cases o' with
  | declareExchange e' =>
    cases o with
    | declareExchange e =>
      by_cases hname : e.name = e'.name
      · obtain rfl : e = e' := ha e (by rw [← hname]; exact h)
        simp [declared, declare]
      · simpa [declared, declare, hname] using h
    | declareQueue q => exact h
    | bind queue exchange routingKey =>
      refine ⟨h.1, ?_, h.2.2⟩
      by_cases hname : exchange = e'.name
      · simp [declare, hname]
      · simpa [declare, hname] using h.2.1
  | declareQueue q' =>
    cases o with
    | declareExchange e => exact h
    | declareQueue q =>
      refine ⟨?_, h.2⟩
      by_cases hname : q.name = q'.name
      · have heq : q.arguments = q'.arguments := ha.1 _ (by rw [← hname]; exact h.1)
        simp [declare, hname, heq]
      · simpa [declare, hname] using h.1
    | bind queue exchange routingKey =>
      refine ⟨?_, h.2⟩
      by_cases hname : queue = q'.name
      · simp [declare, hname]
      · simpa [declare, hname] using h.1
  | bind queue' exchange' routingKey' =>
    cases o with
    | declareExchange e => exact h
    | declareQueue q => exact h
    | bind queue exchange routingKey =>
      exact ⟨h.1, h.2.1, mem_bindings_declare.mpr (.inl h.2.2)⟩

theorem declare_again (h : declared D o) : accepts D o ∧ declare D o = D := by
  cases o with
  | declareExchange e =>
    have he : D.exchanges e.name = some e := h
    exact ⟨by simp [accepts, he], by simp [declare, ← he]⟩
  | declareQueue q =>
    have hq : D.queues q.name = some q.arguments := h.1
    exact ⟨⟨by simp [hq], h.2⟩, by simp [declare, ← hq]⟩
  | bind queue exchange routingKey =>
    refine ⟨⟨h.1, h.2.1⟩, ?_⟩
    have hbindings : (declare D (.bind queue exchange routingKey)).bindings = D.bindings := by
      funext x k
      refine if_neg ?_
      rintro ⟨rfl, rfl, hno⟩
      exact hno h.2.2
    calc declare D (.bind queue exchange routingKey)
        = { D with bindings := (declare D (.bind queue exchange routingKey)).bindings } := rfl
      _ = D := by rw [hbindings]

end Laws

/-- **The broker as a registry.** -/
abbrev registry : Registry where
  Op := SetupOp
  World := Declared
  Error := ForeignError
  accepts := accepts
  declare := declare
  declared := declared
  declared_declare := declared_declare
  declared_mono := declared_mono
  declare_again := declare_again

/-! ## The code -/

/-- The code that talks to the broker. -/
abbrev SetupAct (α : Type) : Type :=
  Action SetupOp (Faulty SetupOp ForeignError) (Fault ForeignError) α

/-- `broker.declare_exchange`. -/
def declareExchange (exchange : RabbitExchange) : SetupAct Unit :=
  Action.perform (.declareExchange exchange)

/-- `broker.declare_queue`. -/
def declareQueue (queue : RabbitQueue) : SetupAct Unit := Action.perform (.declareQueue queue)

/-- `queue.bind`. -/
def bind (queue : RabbitQueue) (exchange : RabbitExchange) (routingKey : String) : SetupAct Unit :=
  Action.perform (.bind queue.name exchange.name routingKey)

/-- The loop over the retry queues. -/
def declareRetryQueues : List (RabbitQueue × ℕ) → SetupAct Unit
  | [] => pure ()
  | (queue, attempt) :: queues => do
    declareQueue queue
    bind queue retryExchange (retryRoutingKey attempt)
    declareRetryQueues queues

/-- `declare_topology`. -/
def declareTopology (cfg : Settings) : SetupAct Unit := do
  declareExchange paymentsExchange
  declareExchange retryExchange
  declareExchange dlxExchange
  declareQueue paymentsNewQueue
  bind paymentsNewQueue paymentsExchange paymentsNewRoutingKey
  let retryQueues := buildRetryQueues cfg.maxRetries cfg.retryBaseDelaySeconds cfg.retryMultiplier
  declareRetryQueues (retryQueues.zipIdx 1)
  declareQueue dlqQueue
  bind dlqQueue dlxExchange dlqRoutingKey

/-- **Processes that start**: any number of them, with settings that are in use. -/
abbrev setup (InUse : Settings → Prop) : Machine :=
  registry.machine declareTopology InUse (· = Declared.empty)

end Setup

end Payments
