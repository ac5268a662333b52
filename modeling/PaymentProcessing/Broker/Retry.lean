import PaymentProcessing.Broker.Topology
import PaymentProcessing.System.Operations

/-!
# Routing failed messages

`RetryRouter` publishes a copy of a failed message, to the retry queue of its next attempt or to the
dead-letter queue.
-/

namespace Payments

variable (R : Runtime)

/-- The copy of `message` that is routed for an exception. -/
def routedMessage (message : Message) (attempt : ℕ) (error : Exn) : Message where
  body := message.body
  headers := routedHeaders R message.headers attempt error
  messageId := message.messageId
  correlationId := none

/-- What `RetryRouter.send_to_retry` publishes. -/
def retryPublication (message : Message) (attempt : ℕ) (error : Exn) : Publication where
  exchange := retryExchange
  routingKey := retryRoutingKey attempt
  message := routedMessage R message attempt error
  cause := some error

/-- What `RetryRouter.send_to_dlq` publishes. -/
def dlqPublication (message : Message) (attempt : ℕ) (error : Exn) : Publication where
  exchange := dlxExchange
  routingKey := dlqRoutingKey
  message := routedMessage R message attempt error
  cause := some error

/-- `RetryRouter.send_to_retry`. -/
def sendToRetry (message : Message) (attempt : ℕ) (error : Exn) : Act Unit :=
  publish (retryPublication R message attempt error)

/-- `RetryRouter.send_to_dlq`. -/
def sendToDlq (message : Message) (attempt : ℕ) (error : Exn) : Act Unit :=
  publish (dlqPublication R message attempt error)

end Payments
