import PaymentProcessing.Foundations.Effects.Execution
import PaymentProcessing.Foundations.Store.Column
import PaymentProcessing.Services.PaymentService
import PaymentProcessing.System.World

/-!
# A live database

What a database does that nothing is wrong with: it takes the rows whose values fit their columns
and refuses the others, it keeps the idempotency keys unique, and it answers every query. `Amid`
restricts the outcomes of `Exec` to such answers, and lets something happen before each operation.
-/

namespace Payments

open Effects Python Store

/-! ## The columns -/

/-- A finite number; `json.dumps` writes the others as words. -/
def FiniteToken (x : Json.FloatToken) : Prop :=
  x.text ∉ [Str.ofString "NaN", Str.ofString "Infinity", Str.ofString "-Infinity"]

/-- The values of a new payment fit the columns of `payments`. -/
structure NewPayment.Fits (p : NewPayment) : Prop where
  idempotencyKey : Varchar 255 p.idempotencyKey
  requestFingerprint : Varchar 64 p.requestFingerprint
  amount : ∃ x, numeric 18 2 p.amount.value = some x ∧ 0 < x
  description : Varchar 1024 p.description
  paymentMetadata : Jsonb FiniteToken p.paymentMetadata
  webhookUrl : ∀ url ∈ p.webhookUrl, Text url

/-- The values of a new event fit the columns of `outbox_messages`. -/
structure NewOutboxMessage.Fits (m : NewOutboxMessage) : Prop where
  aggregateType : Varchar 64 m.aggregateType
  eventType : Varchar 64 m.eventType
  routingKey : Varchar 255 (Str.ofString m.routingKey)
  payload : Text m.payload.eventType

/-- The largest `integer`. -/
def maxInteger : ℕ := 2147483647

/-- The values that updates set fit the columns of `payments`. -/
structure Payment.Fits (p : Payment) : Prop where
  failureReason : ∀ reason ∈ p.failureReason, Varchar 255 reason
  webhookAttempts : p.webhookAttempts ≤ maxInteger
  webhookLastError : ∀ error ∈ p.webhookLastError, Text error

/-- The values that updates set fit the columns of `outbox_messages`. -/
structure OutboxMessage.Fits (m : OutboxMessage) : Prop where
  attempts : m.attempts ≤ maxInteger
  lastError : ∀ error ∈ m.lastError, Text error

/-! ## Answers -/

/-- The operations of the database. -/
def Op.isDatabase : Op → Bool
  | .selectByIdempotencyKey _ | .insert _ _ | .selectForUpdate _ | .selectBatchForUpdate _ _
  | .updatePayment _ | .updateOutbox _ | .commit | .rollback => true
  | _ => false

/-- There is a payment with the key. -/
def World.HasKey (w : World) (key : Str) : Prop :=
  ∃ id p, w.payments.rows id = some p ∧ p.idempotencyKey = key

/-- **The answers of a live database.** -/
inductive Live (w : World) : (o : Op) → Res o → Prop
  | selected {key : Str} (h : Text key) (p : Option Payment) :
      Live w (.selectByIdempotencyKey key) (.ok p)
  | selectRefused {key : Str} (h : ¬Text key) (e : ForeignError) :
      Live w (.selectByIdempotencyKey key) (.error (.foreign e))
  | inserted {p : NewPayment} {m : NewOutboxMessage} (h : p.Fits ∧ m.Fits) (now : Time) :
      Live w (.insert p m) (.ok now)
  | duplicate {p : NewPayment} {m : NewOutboxMessage} (h : p.Fits ∧ m.Fits)
      (hkey : w.HasKey p.idempotencyKey) {e : IntegrityError} (he : isIdempotencyKeyViolation e) :
      Live w (.insert p m) (.error (.integrity e))
  | insertRefused {p : NewPayment} {m : NewOutboxMessage} (h : ¬(p.Fits ∧ m.Fits))
      (e : ForeignError) : Live w (.insert p m) (.error (.foreign e))
  | locked (id : UUID) (p : Option Payment) : Live w (.selectForUpdate id) (.ok p)
  | batch (limit : ℕ) (now : Time) (rows : List OutboxMessage) :
      Live w (.selectBatchForUpdate limit now) (.ok rows)
  | updatedPayment {p : Payment} (h : p.Fits) : Live w (.updatePayment p) (.ok ())
  | updatePaymentRefused {p : Payment} (h : ¬p.Fits) (e : ForeignError) :
      Live w (.updatePayment p) (.error (.foreign e))
  | updatedOutbox {rows : List OutboxMessage} (h : ∀ r ∈ rows, r.Fits) :
      Live w (.updateOutbox rows) (.ok ())
  | updateOutboxRefused {rows : List OutboxMessage} (h : ¬∀ r ∈ rows, r.Fits) (e : ForeignError) :
      Live w (.updateOutbox rows) (.error (.foreign e))
  | committed : Live w .commit (.ok ())
  | rolledBack : Live w .rollback (.ok ())
  | other {o : Op} (h : o.isDatabase = false) (r : Res o) : Live w o r

section Step

variable {cfg : Settings} {t : ℕ} {w w' : World}

/-- A commit takes effect. -/
theorem Live.of_commit {r : Except DbError Unit} (hlive : Live w .commit r)
    (hx : Exec cfg t .commit r w w') : r = .ok () ∧ w' = w.commit t := by
  cases hlive with
  | committed =>
    cases hx
    exact ⟨rfl, rfl⟩
  | other h => cases h

/-- A rollback takes effect. -/
theorem Live.of_rollback {r : Except DbError Unit} (hlive : Live w .rollback r)
    (hx : Exec cfg t .rollback r w w') : r = .ok () ∧ w' = w.rollback t := by
  cases hlive with
  | rolledBack =>
    cases hx
    exact ⟨rfl, rfl⟩
  | other h => cases h

/-- A payment with the key is found, if there is one. -/
theorem Live.of_select {key : Str} (htext : Text key) {r : Except DbError (Option Payment)}
    (hlive : Live w (.selectByIdempotencyKey key) r)
    (hx : Exec cfg t (.selectByIdempotencyKey key) r w w') : w' = w ∧
      ((∃ p, r = .ok (some p) ∧ w.payments.rows p.id = some p ∧ p.idempotencyKey = key) ∨
        r = .ok none ∧ ¬w.HasKey key) := by
  cases hlive with
  | selected =>
    cases hx with
    | found hrow hkey => exact ⟨rfl, .inl ⟨_, rfl, hrow, hkey⟩⟩
    | notFound hnone =>
      refine ⟨rfl, .inr ⟨rfl, ?_⟩⟩
      rintro ⟨id, p, hrow, hkey⟩
      exact hnone id p hrow hkey
  | selectRefused hno => exact absurd htext hno
  | other h => cases h

/-- The query for a key has an answer. -/
theorem exists_select {key : Str} (htext : Text key) (w : World) :
    ∃ r, Live w (.selectByIdempotencyKey key) r ∧ Exec cfg t (.selectByIdempotencyKey key) r w w := by
  by_cases h : w.HasKey key
  · obtain ⟨id, p, hrow, hkey⟩ := h
    have hid := w.payments.key_rows hrow
    exact ⟨_, .selected htext _, .found (hid ▸ hrow) hkey⟩
  · exact ⟨_, .selected htext _, .notFound fun id p hrow hkey => h ⟨id, p, hrow, hkey⟩⟩

end Step

/-! ## Surroundings -/

/-- What `Exec` allows of an operation, if `before` happens before it and its result is in `result`.
-/
def Amid (before : World → World → Prop) (result : World → (o : Op) → Res o → Prop)
    (cfg : Settings) (t : ℕ) (o : Op) (r : Res o) (w w' : World) : Prop :=
  ∃ w₁, before w w₁ ∧ result w₁ o r ∧ Exec cfg t o r w₁ w'

/-- A world, and what happened on the way to it. -/
abbrev Logged : Type := World × History Op Res World

/-- The clock changes, as `Clock` allows. -/
def Ticks (Clock : Time → Time → Prop) (w w' : World) : Prop :=
  ∃ τ, Clock w.clock τ ∧ w' = { w with clock := τ }

end Payments
