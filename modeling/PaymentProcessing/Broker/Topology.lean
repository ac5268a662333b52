import Mathlib.Data.Rat.Floor
import Mathlib.Data.List.Nodup
import PaymentProcessing.Broker.Message
import PaymentProcessing.Config

/-!
# The topology of the broker

Exchanges, queues and bindings as `declare_topology` declares them. A message that failed for the
`n`-th time waits in the queue `payments.new.retry.n` until its time to live is over, and goes back
to `payments.new`; the dead-letter queue takes what is given up.

`route` is the direct exchange: the queues bound to an exchange with a key. Names are built from
numbers in three places, and `route_retry` is where they have to agree.
-/

namespace Payments

/-- `PAYMENTS_EXCHANGE_NAME`. -/
def paymentsExchange : String := "payments"

/-- `RETRY_EXCHANGE_NAME`. -/
def retryExchange : String := "payments.retry"

/-- `DLX_EXCHANGE_NAME`. -/
def dlxExchange : String := "payments.dlx"

/-- `PAYMENTS_NEW_QUEUE_NAME`. -/
def paymentsNewQueueName : String := "payments.new"

/-- `DLQ_NAME`. -/
def dlqName : String := "payments.new.dlq"

/-- `DLQ_ROUTING_KEY`. -/
def dlqRoutingKey : String := paymentsNewRoutingKey

/-- A declared queue; the options are its `x-` arguments. -/
structure RabbitQueue where
  name : String
  routingKey : String
  messageTtl : Option ℤ
  deadLetterExchange : Option String
  deadLetterRoutingKey : Option String

/-- `payments_new_queue`. -/
def paymentsNewQueue : RabbitQueue := ⟨paymentsNewQueueName, paymentsNewRoutingKey, none, none, none⟩

/-- `dlq_queue`. -/
def dlqQueue : RabbitQueue := ⟨dlqName, dlqRoutingKey, none, none, none⟩

/-- `retry_routing_key`. -/
def retryRoutingKey (attempt : ℕ) : String := "retry." ++ toString attempt

/-- `retry_queue_name`. -/
def retryQueueName (attempt : ℕ) : String := paymentsNewQueueName ++ ".retry." ++ toString attempt

/-- `build_retry_queue`. The delay is an exact number here and a float in the source, whose rounding
can change the time to live: a delay of `1.001` seconds gives 1001 milliseconds here and 1000 there. -/
def buildRetryQueue (attempt : ℕ) (delaySeconds : ℚ) : RabbitQueue where
  name := retryQueueName attempt
  routingKey := retryRoutingKey attempt
  messageTtl := some ⌊delaySeconds * 1000⌋
  deadLetterExchange := some paymentsExchange
  deadLetterRoutingKey := some paymentsNewRoutingKey

/-- `build_retry_queues`. -/
def buildRetryQueues (maxRetries : ℕ) (baseDelay multiplier : ℚ) : List RabbitQueue :=
  (List.range' 1 maxRetries).map fun attempt =>
    buildRetryQueue attempt (baseDelay * multiplier ^ (attempt - 1))

/-- `Settings.retry_delay_seconds`. -/
def Settings.retryDelaySeconds (cfg : Settings) (attempt : ℕ) : Except Exn ℚ :=
  if attempt < 1 then .error (.value (Python.Str.ofString "Номер попытки начинается с 1"))
  else .ok (cfg.retryBaseDelaySeconds * cfg.retryMultiplier ^ (attempt - 1))

/-- The queue `queue` gets what is published to `exchange` with the key `routingKey`. -/
structure Binding where
  exchange : String
  routingKey : String
  queue : RabbitQueue

variable (cfg : Settings)

/-- The bindings `declare_topology` declares. -/
def declareTopology : List Binding :=
  let retryQueues := buildRetryQueues cfg.maxRetries cfg.retryBaseDelaySeconds cfg.retryMultiplier
  ⟨paymentsExchange, paymentsNewRoutingKey, paymentsNewQueue⟩ ::
    ((retryQueues.zipIdx 1).map fun (queue, attempt) =>
      ⟨retryExchange, retryRoutingKey attempt, queue⟩) ++
    [⟨dlxExchange, dlqRoutingKey, dlqQueue⟩]

/-- The queues a direct exchange puts a message into. -/
def route (exchange routingKey : String) : List RabbitQueue :=
  ((declareTopology cfg).filter fun b => b.exchange = exchange ∧ b.routingKey = routingKey).map
    Binding.queue

/-- The declared queues. -/
def queues : List RabbitQueue := (declareTopology cfg).map Binding.queue

/-! ## Names -/

theorem toString_injective : Function.Injective (toString : ℕ → String) := fun m n h => by
  have h' : String.ofList (Nat.toDigits 10 m) = String.ofList (Nat.toDigits 10 n) := by
    rw [← Nat.repr_eq_ofList_toDigits, ← Nat.repr_eq_ofList_toDigits]
    exact h
  rw [String.ofList_inj] at h'
  rw [← Nat.ofDigitChars_ten_toDigits (n := m), h', Nat.ofDigitChars_ten_toDigits]

theorem retryRoutingKey_injective : Function.Injective retryRoutingKey := fun _ _ h =>
  toString_injective ((String.append_right_inj _).mp h)

theorem retryQueueName_injective : Function.Injective retryQueueName := fun _ _ h =>
  toString_injective ((String.append_right_inj _).mp h)

/-- No retry queue is the main queue or the dead-letter queue. -/
theorem retryQueueName_ne (n : ℕ) :
    retryQueueName n ≠ paymentsNewQueueName ∧ retryQueueName n ≠ dlqName := by
  constructor
  · intro h
    have := congrArg (fun s : String => s.toList[12]?) h
    simp [retryQueueName, paymentsNewQueueName] at this
  · intro h
    have := congrArg (fun s : String => s.toList[13]?) h
    simp [retryQueueName, paymentsNewQueueName, dlqName] at this

/-! ## Routes -/

/-- The retry queue of the `n`-th attempt. -/
def retryQueue (n : ℕ) : RabbitQueue :=
  buildRetryQueue n (cfg.retryBaseDelaySeconds * cfg.retryMultiplier ^ (n - 1))

/-- The retry queues with their numbers. -/
theorem zipIdx_buildRetryQueues :
    (buildRetryQueues cfg.maxRetries cfg.retryBaseDelaySeconds cfg.retryMultiplier).zipIdx 1 =
      (List.range' 1 cfg.maxRetries).map fun n => (retryQueue cfg n, n) := by
  rw [List.zipIdx_eq_zip_range', buildRetryQueues, List.length_map, List.length_range']
  have h := List.zip_map' (f := retryQueue cfg) (g := id) (l := List.range' 1 cfg.maxRetries)
  rwa [List.map_id] at h

theorem declareTopology_eq : declareTopology cfg =
    ⟨paymentsExchange, paymentsNewRoutingKey, paymentsNewQueue⟩ ::
      ((List.range' 1 cfg.maxRetries).map fun n =>
        ⟨retryExchange, retryRoutingKey n, retryQueue cfg n⟩) ++
      [⟨dlxExchange, dlqRoutingKey, dlqQueue⟩] := by
  simp only [declareTopology, zipIdx_buildRetryQueues, List.map_map]
  rfl

/-- What the relay publishes goes to `payments.new`. -/
theorem route_payments : route cfg paymentsExchange paymentsNewRoutingKey = [paymentsNewQueue] := by
  have hr : retryExchange ≠ paymentsExchange := by decide
  have hd : dlxExchange ≠ paymentsExchange := by decide
  simp [route, declareTopology_eq, List.filter_append, List.filter_map, Function.comp_def, hr, hd]

/-- What the service gives up goes to the dead-letter queue. -/
theorem route_dlx : route cfg dlxExchange dlqRoutingKey = [dlqQueue] := by
  have hr : retryExchange ≠ dlxExchange := by decide
  have hp : paymentsExchange ≠ dlxExchange := by decide
  simp [route, declareTopology_eq, List.filter_append, List.filter_map, Function.comp_def, hr, hp]

/-- **Every attempt has its retry queue.** -/
theorem route_retry {n : ℕ} (h1 : 1 ≤ n) (hn : n ≤ cfg.maxRetries) :
    route cfg retryExchange (retryRoutingKey n) = [retryQueue cfg n] := by
  have hp : paymentsExchange ≠ retryExchange := by decide
  have hd : dlxExchange ≠ retryExchange := by decide
  have hf : ((List.range' 1 cfg.maxRetries).filter fun m => decide (m = n)) = [n] := by
    have hmem : n ∈ List.range' 1 cfg.maxRetries := by
      rw [List.mem_range'_1]
      omega
    rw [List.filter_eq, List.count_eq_one_of_mem List.nodup_range' hmem]
    rfl
  simp [route, declareTopology_eq, List.filter_append, List.filter_map, Function.comp_def, hp, hd,
    retryRoutingKey_injective.eq_iff, hf]

/-- Only retry queues give messages back, and they give them back to `payments.new`. -/
theorem deadLetter_of_mem_queues {q : RabbitQueue} (h : q ∈ queues cfg) {exchange : String}
    (he : q.deadLetterExchange = some exchange) :
    (∃ n, 1 ≤ n ∧ n ≤ cfg.maxRetries ∧ q.name = retryQueueName n) ∧
      exchange = paymentsExchange ∧ q.deadLetterRoutingKey = some paymentsNewRoutingKey := by
  rw [queues, declareTopology_eq] at h
  simp only [List.map_append, List.map_cons, List.map_map, List.map_nil, List.mem_append,
    List.mem_cons, List.mem_map, List.not_mem_nil, or_false, List.mem_range'_1] at h
  rcases h with (rfl | ⟨n, hn, rfl⟩) | rfl
  · simp [paymentsNewQueue] at he
  · simp only [Function.comp_apply, retryQueue, buildRetryQueue, Option.some.injEq] at he ⊢
    exact ⟨⟨n, by omega, by omega, rfl⟩, he.symm, trivial⟩
  · simp [dlqQueue] at he

/-- The names of the declared queues. -/
theorem name_of_mem_queues {q : RabbitQueue} (h : q ∈ queues cfg) :
    q.name = paymentsNewQueueName ∨ q.name = dlqName ∨
      ∃ n, 1 ≤ n ∧ n ≤ cfg.maxRetries ∧ q.name = retryQueueName n := by
  rw [queues, declareTopology_eq] at h
  simp only [List.map_append, List.map_cons, List.map_map, List.map_nil, List.mem_append,
    List.mem_cons, List.mem_map, List.not_mem_nil, or_false, List.mem_range'_1] at h
  rcases h with (rfl | ⟨n, hn, rfl⟩) | rfl
  · exact .inl rfl
  · exact .inr (.inr ⟨n, by omega, by omega, rfl⟩)
  · exact .inr (.inl rfl)

/-- A message is put into declared queues. -/
theorem mem_queues_of_mem_route {exchange routingKey : String} {q : RabbitQueue}
    (h : q ∈ route cfg exchange routingKey) : q ∈ queues cfg := by
  obtain ⟨b, hb, rfl⟩ := List.mem_map.mp h
  exact List.mem_map_of_mem (List.mem_filter.mp hb).1

end Payments
