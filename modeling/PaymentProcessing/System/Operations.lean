import PaymentProcessing.Broker.Message
import PaymentProcessing.Foundations.Effects.Prog

/-!
# Operations

What a process of the service can ask of the database, the broker, the gateway and the webhooks of
the clients, and what it gets. The exceptions of other packages are told apart from the exceptions
the service raises itself.
-/

namespace Payments

open Effects Python

/-! ## Data of the operations -/

/-- An exception of the database driver. -/
inductive DbError
  | integrity (error : IntegrityError)
  | foreign (error : ForeignError)

/-- A database exception as the service catches it. -/
def DbError.toExn : DbError → Exn
  | .integrity error => .integrity error
  | .foreign error => .foreign error

/-- How a request fails: a `TimeoutException`, a `TransportError`, or something else. -/
inductive HttpError
  | timeout (text : Str)
  | transport (text : Str)
  | other (error : ForeignError)

/-- The columns of `payments` that `PaymentService.create` sets. -/
structure NewPayment where
  id : UUID
  idempotencyKey : Str
  requestFingerprint : Str
  amount : Decimal
  currency : Currency
  description : Str
  paymentMetadata : Json Json.FloatToken
  status : PaymentStatus
  webhookUrl : Option Str

/-- The inserted row, with the server defaults of the other columns. -/
def NewPayment.row (p : NewPayment) (now : Time) : Payment where
  id := p.id
  idempotencyKey := p.idempotencyKey
  requestFingerprint := p.requestFingerprint
  amount := p.amount
  currency := p.currency
  description := p.description
  paymentMetadata := p.paymentMetadata
  status := p.status
  failureReason := none
  webhookUrl := p.webhookUrl
  webhookAttempts := 0
  webhookDeliveredAt := none
  webhookLastError := none
  createdAt := now
  processedAt := none

/-- The columns of `outbox_messages` that `PaymentService.create` sets. -/
structure NewOutboxMessage where
  id : UUID
  aggregateType : Str
  aggregateId : UUID
  eventType : Str
  routingKey : String
  payload : PaymentCreatedEvent

/-- The inserted row, with the server defaults of the other columns. -/
def NewOutboxMessage.row (m : NewOutboxMessage) (now : Time) : OutboxMessage where
  id := m.id
  aggregateType := m.aggregateType
  aggregateId := m.aggregateId
  eventType := m.eventType
  routingKey := m.routingKey
  payload := m.payload
  createdAt := now
  publishedAt := none
  attempts := 0
  nextRetryAt := now
  lastError := none

/-- A message handed to the broker. -/
structure Publication where
  exchange : String
  routingKey : String
  message : Message
  /-- The exception the message is routed for; it is not part of what is sent. -/
  cause : Option Exn

/-- A webhook request. -/
structure WebhookRequest where
  url : Str
  /-- What `body` is the text of. -/
  payload : WebhookPayload
  body : Bytes
  headers : List (String × Str)

/-! ## Signature -/

/-- What a process can ask for. -/
inductive Op
  | now
  | uuid4
  | selectByIdempotencyKey (key : Str)
  | insert (payment : NewPayment) (message : NewOutboxMessage)
  | selectForUpdate (id : UUID)
  | selectBatchForUpdate (limit : ℕ) (now : Time)
  | updatePayment (payment : Payment)
  | updateOutbox (messages : List OutboxMessage)
  | commit
  | rollback
  | close
  | gatewayCall (charge : Charge)
  | gatewayReturn (charge : Charge)
  | httpPost (request : WebhookRequest)
  | httpResponse (request : WebhookRequest)
  | publish (publication : Publication)
  | ack
  | nack

/-- What it gets. -/
def Res : Op → Type
  | .now => Time
  | .uuid4 => UUID
  | .selectByIdempotencyKey _ => Except DbError (Option Payment)
  | .insert _ _ => Except DbError Time
  | .selectForUpdate _ => Except DbError (Option Payment)
  | .selectBatchForUpdate _ _ => Except DbError (List OutboxMessage)
  | .updatePayment _ => Except DbError Unit
  | .updateOutbox _ => Except DbError Unit
  | .commit => Except DbError Unit
  | .rollback => Except DbError Unit
  | .close => Unit
  | .gatewayCall _ => Unit
  | .gatewayReturn _ => Except ForeignError GatewayResult
  | .httpPost _ => Unit
  | .httpResponse _ => Except HttpError ℕ
  | .publish _ => Except ForeignError Unit
  | .ack => Except ForeignError Unit
  | .nack => Except ForeignError Unit

/-- The code of the service. -/
abbrev Act (α : Type) : Type := Action Op Res Exn α

/-- Ask for something that may fail, and raise the exception it fails with. -/
def ask {ε α : Type} (toExn : ε → Exn) (x : Prog Op Res (Except ε α)) : Act α :=
  ExceptT.mk (x.bind fun r => .ret (r.mapError toExn))

/-- `datetime.now(UTC)`. -/
def now : Act Time := Action.lift Op.now

/-- `uuid.uuid4()`. -/
def uuid4 : Act UUID := Action.lift Op.uuid4

/-- `session.execute` of the query by key. -/
def selectByIdempotencyKey (key : Str) : Act (Option Payment) :=
  ask DbError.toExn (Prog.perform (Op.selectByIdempotencyKey key))

/-- The flush that inserts a payment and its event; it returns the server's `now()`. -/
def insert (p : NewPayment) (m : NewOutboxMessage) : Act Time :=
  ask DbError.toExn (Prog.perform (Op.insert p m))

/-- `session.execute` of the query `with_for_update()`. -/
def selectForUpdate (id : UUID) : Act (Option Payment) :=
  ask DbError.toExn (Prog.perform (Op.selectForUpdate id))

/-- `session.execute` of the query `with_for_update(skip_locked=True)`. -/
def selectBatchForUpdate (limit : ℕ) (now : Time) : Act (List OutboxMessage) :=
  ask DbError.toExn (Prog.perform (Op.selectBatchForUpdate limit now))

/-- The flush that updates a payment. -/
def updatePayment (p : Payment) : Act Unit := ask DbError.toExn (Prog.perform (Op.updatePayment p))

/-- The flush that updates outbox messages. -/
def updateOutbox (rows : List OutboxMessage) : Act Unit :=
  ask DbError.toExn (Prog.perform (Op.updateOutbox rows))

/-- The `COMMIT` of `session.commit()`. -/
def commit : Act Unit := ask DbError.toExn (Prog.perform Op.commit)

/-- `session.rollback()`. -/
def rollback : Act Unit := ask DbError.toExn (Prog.perform Op.rollback)

/-- The end of `async with session`. -/
def close : Act Unit := Action.lift Op.close

/-- `broker.publish(…)`. -/
def publish (p : Publication) : Act Unit := ask Exn.foreign (Prog.perform (Op.publish p))

/-- `message.ack()`. -/
def ack : Act Unit := ask Exn.foreign (Prog.perform Op.ack)

/-- `message.nack(requeue=True)`. -/
def nack : Act Unit := ask Exn.foreign (Prog.perform Op.nack)

/-! ## Weakest preconditions -/

theorem forall_except {ε α : Type} {p : Except ε α → Prop} :
    (∀ r, p r) ↔ (∀ a, p (.ok a)) ∧ ∀ e, p (.error e) :=
  ⟨fun h => ⟨fun a => h (.ok a), fun e => h (.error e)⟩, fun h r => by
    cases r with
    | ok a => exact h.1 a
    | error e => exact h.2 e⟩

section Ask

variable {I : Interface Op Res} {err : Exn → I.Phase → Prop} {φ : I.Phase}

/-- What an operation that may fail needs: it is asked for, and its exceptions are raised. -/
theorem wp_ask {ε α : Type} {toExn : ε → Exn} {x : Prog Op Res (Except ε α)}
    {ok : α → I.Phase → Prop} :
    (ask toExn x).wp I ok err φ ↔ x.wp I (fun r ψ => match r with
      | .ok a => ok a ψ
      | .error e => err (toExn e) ψ) φ := by
  unfold Action.wp ask
  change (Prog.bind x _).wp I _ φ ↔ _
  rw [Prog.wp_bind]
  constructor <;> refine fun h => Prog.wp_mono I h ?_ <;> rintro (e | a) ψ hψ <;> exact hψ

/-- An operation that succeeds. -/
theorem wp_ask_ok {ε α : Type} {toExn : ε → Exn} {x : Prog Op Res (Except ε α)}
    {ok : α → I.Phase → Prop} (h : x.wp I (fun r ψ => ∃ a, r = .ok a ∧ ok a ψ) φ) :
    (ask toExn x).wp I ok err φ := by
  refine wp_ask.mpr (Prog.wp_mono I h ?_)
  rintro _ ψ ⟨a, rfl, h⟩
  exact h

/-- An operation that fails. -/
theorem wp_ask_error {ε α : Type} {toExn : ε → Exn} {x : Prog Op Res (Except ε α)}
    {ok : α → I.Phase → Prop} (h : x.wp I (fun r ψ => ∃ e, r = .error e ∧ err (toExn e) ψ) φ) :
    (ask toExn x).wp I ok err φ := by
  refine wp_ask.mpr (Prog.wp_mono I h ?_)
  rintro _ ψ ⟨e, rfl, h⟩
  exact h

end Ask

/-! Under a protocol an operation needs a move for every value, and one for every exception. -/

section Wp

variable {P : Protocol Op Res} {err : Exn → P.Phase → Prop} {φ : P.Phase}

theorem wp_now {ok : Time → P.Phase → Prop} : now.wp P ok err φ ↔
    ∀ τ : Time, ∃ φ', P.move φ .now τ φ' ∧ ok τ φ' := Iff.rfl

theorem wp_uuid4 {ok : UUID → P.Phase → Prop} : uuid4.wp P ok err φ ↔
    ∀ id : UUID, ∃ φ', P.move φ .uuid4 id φ' ∧ ok id φ' := Iff.rfl

theorem wp_close {ok : Unit → P.Phase → Prop} : close.wp P ok err φ ↔
    ∀ u : Unit, ∃ φ', P.move φ .close u φ' ∧ ok () φ' := Iff.rfl

theorem wp_selectByIdempotencyKey {key : Str} {ok : Option Payment → P.Phase → Prop} :
    (selectByIdempotencyKey key).wp P ok err φ ↔
      (∀ p, ∃ φ', P.move φ (.selectByIdempotencyKey key) (.ok p) φ' ∧ ok p φ') ∧
      ∀ e, ∃ φ', P.move φ (.selectByIdempotencyKey key) (.error e) φ' ∧ err e.toExn φ' :=
  wp_ask.trans forall_except

theorem wp_insert {p : NewPayment} {m : NewOutboxMessage} {ok : Time → P.Phase → Prop} :
    (insert p m).wp P ok err φ ↔
      (∀ τ, ∃ φ', P.move φ (.insert p m) (.ok τ) φ' ∧ ok τ φ') ∧
      ∀ e, ∃ φ', P.move φ (.insert p m) (.error e) φ' ∧ err e.toExn φ' :=
  wp_ask.trans forall_except

theorem wp_selectForUpdate {id : UUID} {ok : Option Payment → P.Phase → Prop} :
    (selectForUpdate id).wp P ok err φ ↔
      (∀ p, ∃ φ', P.move φ (.selectForUpdate id) (.ok p) φ' ∧ ok p φ') ∧
      ∀ e, ∃ φ', P.move φ (.selectForUpdate id) (.error e) φ' ∧ err e.toExn φ' :=
  wp_ask.trans forall_except

theorem wp_selectBatchForUpdate {limit : ℕ} {τ : Time} {ok : List OutboxMessage → P.Phase → Prop} :
    (selectBatchForUpdate limit τ).wp P ok err φ ↔
      (∀ rows, ∃ φ', P.move φ (.selectBatchForUpdate limit τ) (.ok rows) φ' ∧ ok rows φ') ∧
      ∀ e, ∃ φ', P.move φ (.selectBatchForUpdate limit τ) (.error e) φ' ∧ err e.toExn φ' :=
  wp_ask.trans forall_except

theorem wp_updatePayment {p : Payment} {ok : Unit → P.Phase → Prop} :
    (updatePayment p).wp P ok err φ ↔
      (∀ u, ∃ φ', P.move φ (.updatePayment p) (.ok u) φ' ∧ ok u φ') ∧
      ∀ e, ∃ φ', P.move φ (.updatePayment p) (.error e) φ' ∧ err e.toExn φ' :=
  wp_ask.trans forall_except

theorem wp_updateOutbox {rows : List OutboxMessage} {ok : Unit → P.Phase → Prop} :
    (updateOutbox rows).wp P ok err φ ↔
      (∀ u, ∃ φ', P.move φ (.updateOutbox rows) (.ok u) φ' ∧ ok u φ') ∧
      ∀ e, ∃ φ', P.move φ (.updateOutbox rows) (.error e) φ' ∧ err e.toExn φ' :=
  wp_ask.trans forall_except

theorem wp_commit {ok : Unit → P.Phase → Prop} : commit.wp P ok err φ ↔
    (∀ u, ∃ φ', P.move φ .commit (.ok u) φ' ∧ ok u φ') ∧
    ∀ e, ∃ φ', P.move φ .commit (.error e) φ' ∧ err e.toExn φ' :=
  wp_ask.trans forall_except

theorem wp_rollback {ok : Unit → P.Phase → Prop} : rollback.wp P ok err φ ↔
    (∀ u, ∃ φ', P.move φ .rollback (.ok u) φ' ∧ ok u φ') ∧
    ∀ e, ∃ φ', P.move φ .rollback (.error e) φ' ∧ err e.toExn φ' :=
  wp_ask.trans forall_except

theorem wp_publish {p : Publication} {ok : Unit → P.Phase → Prop} : (publish p).wp P ok err φ ↔
    (∀ u, ∃ φ', P.move φ (.publish p) (.ok u) φ' ∧ ok u φ') ∧
    ∀ e, ∃ φ', P.move φ (.publish p) (.error e) φ' ∧ err (.foreign e) φ' :=
  wp_ask.trans forall_except

theorem wp_ack {ok : Unit → P.Phase → Prop} : ack.wp P ok err φ ↔
    (∀ u, ∃ φ', P.move φ .ack (.ok u) φ' ∧ ok u φ') ∧
    ∀ e, ∃ φ', P.move φ .ack (.error e) φ' ∧ err (.foreign e) φ' :=
  wp_ask.trans forall_except

theorem wp_nack {ok : Unit → P.Phase → Prop} : nack.wp P ok err φ ↔
    (∀ u, ∃ φ', P.move φ .nack (.ok u) φ' ∧ ok u φ') ∧
    ∀ e, ∃ φ', P.move φ .nack (.error e) φ' ∧ err (.foreign e) φ' :=
  wp_ask.trans forall_except

end Wp

end Payments
