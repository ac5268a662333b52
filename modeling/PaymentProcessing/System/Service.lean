import PaymentProcessing.Foundations.Effects.Machine
import PaymentProcessing.System.ApiProtocol
import PaymentProcessing.System.ConsumerProtocol
import PaymentProcessing.System.RelayProtocol
import PaymentProcessing.System.World

/-!
# The service

All processes of the service as one machine: any number of requests, of calls of the relay and of
deliveries run at the same time, and any of them may be killed between two operations. From outside
come the clock, the expiry of messages in the retry queues, lost channels, and messages of others.

The view of the machine (`serviceSpec`) keeps of a thread where it stands in its protocol.
-/

namespace Payments

open Effects Python Store

variable (R : Runtime) (cfg : Settings)

/-- What a thread is started for. -/
inductive Kind
  /-- A request to create a payment. -/
  | create (command : CreatePaymentCommand)
  /-- One call of `publish_pending_batch`. -/
  | relay
  /-- One call of `handle_delivery`. -/
  | deliver (e : Envelope)

/-- What it ends with. -/
def Out : Kind → Type
  | .create _ => Except Exn CreatePaymentResult
  | .relay => Except Exn ℕ
  | .deliver _ => Except Exn Unit

/-- The code it runs. -/
def code : (k : Kind) → Prog Op Res (Out k)
  | .create command => (createPayment R command).run
  | .relay => (publishPendingBatch R cfg).run
  | .deliver e => (handleDelivery R cfg e.message).run

namespace World

/-- Nothing has happened by the time `clock`. -/
def initial (clock : Time) : World where
  clock := clock
  payments := Table.empty
  outbox := Table.empty
  broker := ⟨fun _ => [], fun _ => none, fun _ => false⟩
  journal := Journal.empty

/-- Thread `t` is killed: the database undoes its transaction, and the broker takes its message
back. -/
def crash (w : World) (t : ℕ) : World :=
  { w.rollback t with broker := w.broker.requeue t }

end World

/-- How a thread begins. -/
inductive Start (t : ℕ) : Kind → World → World → Prop
  | create (command : CreatePaymentCommand) (w : World) : Start t (.create command) w w
  | relay (w : World) : Start t .relay w w
  | deliver {w : World} {e : Envelope} {before after : List Envelope}
      (h : w.broker.queues paymentsNewQueueName = before ++ e :: after) :
      Start t (.deliver e) w { w with broker := w.broker.deliver t e (before ++ after) }

theorem Start.head {t : ℕ} {w : World} {e : Envelope} {after : List Envelope}
    (h : w.broker.queues paymentsNewQueueName = e :: after) :
    Start t (.deliver e) w { w with broker := w.broker.deliver t e after } :=
  have h' : w.broker.queues paymentsNewQueueName = [] ++ e :: after := h
  .deliver h'

/-- A message has waited long enough; the broker adds headers of its own. -/
inductive Expired : World → World → Prop
  | intro {w : World} {q : RabbitQueue} (hq : q ∈ queues cfg) {exchange routingKey : String}
      (hx : q.deadLetterExchange = some exchange) (hk : q.deadLetterRoutingKey = some routingKey)
      {before after : List Envelope} {e : Envelope}
      (h : w.broker.queues q.name = before ++ e :: after) {headers : Headers}
      (hh : ∀ key, key ∉ brokerOwnedHeaders → headers key = e.message.headers key) :
      Expired w
        { w with
          broker := w.broker.move q.name (before ++ after)
            ((route cfg exchange routingKey).map RabbitQueue.name)
            { e with message := { e.message with headers := headers } } }

variable {cfg} in
/-- **Only the retry queues let messages expire**, and they go to `payments.new`. -/
theorem Expired.retry {w w' : World} (h : Expired cfg w w') :
    ∃ (n : ℕ) (before after : List Envelope) (e : Envelope) (headers : Headers),
      w.broker.queues (retryQueueName n) = before ++ e :: after ∧
      (∀ key, key ∉ brokerOwnedHeaders → headers key = e.message.headers key) ∧
      w' = { w with
        broker := w.broker.move (retryQueueName n) (before ++ after) [paymentsNewQueueName]
          { e with message := { e.message with headers := headers } } } := by
  cases h with
  | @intro q hq exchange routingKey hx hk before after e h headers hh =>
    obtain ⟨⟨n, -, -, hname⟩, rfl, hkey⟩ := deadLetter_of_mem_queues cfg hq hx
    obtain rfl : routingKey = paymentsNewRoutingKey := by simpa [hk] using hkey
    refine ⟨n, before, after, e, headers, hname ▸ h, hh, ?_⟩
    rw [hname, route_payments]
    rfl

/-- What happens of itself. -/
inductive Environment : World → World → Prop
  | tick {w : World} {clock : Time} (h : w.clock ≤ clock) : Environment w { w with clock := clock }
  | expired {w w' : World} (h : Expired cfg w w') : Environment w w'
  /-- Somebody else publishes to `payments.new`. -/
  | foreign (w : World) (m : Message) :
      Environment w { w with broker := w.broker.accept [paymentsNewQueueName] ⟨m, none, none⟩ }
  /-- The channel of a delivery is lost; its handler goes on. -/
  | channelLost (w : World) (t : ℕ) : Environment w { w with broker := w.broker.requeue t }

/-- **The service.** -/
abbrev service : Machine where
  Op := Op
  Res := Res
  World := World
  Kind := Kind
  Out := Out
  code := code R cfg
  init w := ∃ clock, w = World.initial clock
  start := Start
  exec := Exec cfg
  crash t w w' := w' = w.crash t
  env := Environment cfg

/-- Where a thread stands. -/
inductive Phase
  | api (command : CreatePaymentCommand) (φ : ApiPhase)
  | relay (φ : RelayPhase)
  | consumer (m : Message) (φ : ConsumerPhase)

/-- The moves of a thread. -/
inductive Move : Phase → (o : Op) → Res o → Phase → Prop
  | api {c : CreatePaymentCommand} {φ φ' : ApiPhase} {o : Op} {r : Res o}
      (h : ApiMove R c φ o r φ') : Move (.api c φ) o r (.api c φ')
  | relay {φ φ' : RelayPhase} {o : Op} {r : Res o}
      (h : RelayMove R cfg.outboxBatchSize φ o r φ') : Move (.relay φ) o r (.relay φ')
  | consumer {m : Message} {φ φ' : ConsumerPhase} {o : Op} {r : Res o}
      (h : ConsumerMove R cfg m φ o r φ') : Move (.consumer m φ) o r (.consumer m φ')

/-- The protocol of the service. -/
abbrev serviceProtocol : Protocol Op Res := ⟨Phase, Move R cfg⟩

/-- Where a thread begins. -/
def firstPhase : Kind → Phase
  | .create command => .api command .idle
  | .relay => .relay .fresh
  | .deliver e => .consumer e.message .fresh

/-- What holds when a thread returns. -/
def Ended : (k : Kind) → Out k → Phase → Prop
  | .create command, out, φ => ∃ ψ, φ = .api command ψ ∧ ApiPost R command out ψ
  | .relay, _, φ => φ = .relay .closing
  | .deliver e, _, φ => φ = .consumer e.message .fresh ∨ φ = .consumer e.message .done

/-- **The code of the service keeps to the protocols.** -/
abbrev serviceSpec : (service R cfg).Spec where
  protocol := serviceProtocol R cfg
  first := firstPhase
  post := Ended R
  follows k := by
    cases k with
    | create command =>
      refine Prog.wp_map (P := apiProtocol R command) (Q := serviceProtocol R cfg)
        (f := Phase.api command) (fun _ _ _ _ h => .api h) createPayment_follows ?_
      exact fun out ψ h => ⟨ψ, rfl, h⟩
    | relay =>
      refine Prog.wp_map (P := relayProtocol R cfg.outboxBatchSize) (Q := serviceProtocol R cfg)
        (f := Phase.relay) (fun _ _ _ _ h => .relay h) (publishPendingBatch_follows cfg) ?_
      rintro _ _ rfl
      rfl
    | deliver e =>
      refine Prog.wp_map (P := consumerProtocol R cfg e.message) (Q := serviceProtocol R cfg)
        (f := Phase.consumer e.message) (fun _ _ _ _ h => .consumer h) handleDelivery_follows ?_
      exact fun _ _ h => h.imp (congrArg _) (congrArg _)

end Payments
