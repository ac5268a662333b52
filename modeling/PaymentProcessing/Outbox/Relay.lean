import PaymentProcessing.Broker.Topology
import PaymentProcessing.System.Operations

/-!
# The outbox relay

`OutboxRelay.publish_pending_batch`: events are published first and marked as published after, in
one transaction for the whole batch.
-/

namespace Payments

open Effects Python

variable (R : Runtime) (cfg : Settings)

/-- `_looks_like_broker_down`. -/
def looksLikeBrokerDown : Exn → Bool
  | .foreign error => error.connectionLike
  | _ => false

/-- One second. -/
def second : Time := 1000000

/-- `2.0 ** attempts` exceeds the largest double from here on. -/
def maxPowerOfTwo : ℕ := 1024

/-- The delay of `OutboxRelay._next_retry_at`. -/
def backoff (attempts : ℕ) : Time := min (2 ^ attempts) 60 * second

/-- `OutboxRelay._next_retry_at`. -/
def nextRetryAt (attempts : ℕ) : Act Time := do
  if maxPowerOfTwo ≤ attempts then
    throw (.overflow (Str.ofString "(34, 'Numerical result out of range')"))
  else
    let now ← now
    return now + backoff attempts

/-- What the relay publishes for an outbox row. -/
def outboxPublication (row : OutboxMessage) : Publication where
  exchange := paymentsExchange
  routingKey := row.routingKey
  message :=
    { body := R.encodeEvent row.payload
      headers := fun key => if key = eventTypeHeader then some (.str row.eventType) else none
      messageId := some row.id.str
      correlationId := some row.aggregateId.str }
  cause := none

/-- The row after a publication that was confirmed. -/
def OutboxMessage.published (row : OutboxMessage) (publishedAt : Time) : OutboxMessage :=
  { row with
    publishedAt := some publishedAt
    lastError := none }

/-- The row after a publication that failed. -/
def OutboxMessage.postponed (row : OutboxMessage) (error : Str) (nextRetryAt : Time) :
    OutboxMessage :=
  { row with
    attempts := row.attempts + 1
    lastError := some error
    nextRetryAt := nextRetryAt }

/-- `OutboxRelay._publish_one`; it returns the changed row and whether the broker seems alive. -/
def publishOne (row : OutboxMessage) : Act (OutboxMessage × Bool) := do
  match ← Action.attempt (publish (outboxPublication R row)) with
  | .ok () =>
    let publishedAt ← now
    return (row.published publishedAt, true)
  | .error error =>
    let retryAt ← nextRetryAt (row.attempts + 1)
    return (row.postponed (errorText R error) retryAt, !looksLikeBrokerDown error)

/-- The loop over the batch; it returns the rows that were changed and the number published. -/
def publishRows : List OutboxMessage → Act (List OutboxMessage × ℕ)
  | [] => return ([], 0)
  | row :: rows => do
    let (row, brokerAlive) ← publishOne R row
    let published := if row.publishedAt.isSome then 1 else 0
    if brokerAlive then
      let (rows, count) ← publishRows rows
      return (row :: rows, published + count)
    else return ([row], published)

/-- `OutboxRelay.publish_pending_batch`. -/
def publishPendingBatch : Act ℕ := do
  let now ← now
  Action.within (do
    match ← selectBatchForUpdate cfg.outboxBatchSize now with
    | [] => return 0
    | row :: rows =>
      let (changed, published) ← publishRows R (row :: rows)
      updateOutbox changed
      commit
      return published) close

end Payments
