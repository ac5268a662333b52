import PaymentProcessing.System.Live

/-!
# The schema of the database

The tables as `db/models.py` declares them, with the names that `NAMING_CONVENTION` gives to their
constraints, and which values a table takes when a row is inserted (`TableSchema.Inserts`) or
changed (`TableSchema.Updates`). That no two rows have the same key is left to the store.

The conditions under which the store takes a row (`NewPayment.Fits` and the others) are those of the
columns and checks declared here (`NewPayment.fits_iff`).
-/

namespace Payments

namespace Db

open Python Store

/-! ## Tables -/

/-- The type of a column. -/
inductive ColumnType
  | uuid
  | string (length : ℕ)
  | text
  | integer
  | numeric (precision scale : ℕ)
  /-- A native enumeration. -/
  | enum (name : String) (labels : List Str)
  | jsonb
  /-- With a time zone. -/
  | dateTime
  deriving DecidableEq

/-- The default of a column: a constant, or an expression. -/
inductive ServerDefault
  | literal (value : String)
  | sql (expression : String)
  deriving DecidableEq

/-- A column. -/
structure Column where
  name : String
  type : ColumnType
  nullable : Bool
  serverDefault : Option ServerDefault
  deriving DecidableEq

/-- The condition of a check. -/
inductive Condition
  /-- `column > 0`. -/
  | positive (column : String)
  deriving DecidableEq

/-- A constraint of a table. -/
inductive Constraint
  | check (name : String) (condition : Condition)
  | primaryKey (name : String) (columns : List String)
  | unique (name : String) (columns : List String)
  deriving DecidableEq

/-- A table. -/
structure TableSchema where
  name : String
  columns : List Column
  constraints : List Constraint
  deriving DecidableEq

/-- An index. -/
structure IndexSchema where
  name : String
  table : String
  columns : List String
  unique : Bool
  condition : Option String
  deriving DecidableEq

/-! ## Models -/

/-- A `mapped_column`. -/
structure MappedColumn where
  name : String
  type : ColumnType
  nullable : Bool := false
  primaryKey : Bool := false
  unique : Bool := false
  serverDefault : Option ServerDefault := none

/-- A model: its columns, and what is in `__table_args__`. -/
structure Model where
  tablename : String
  columns : List MappedColumn
  checks : List (String × Condition)
  indexes : List IndexSchema

/-- `NAMING_CONVENTION["pk"]`. -/
def primaryKeyName (table : String) : String := "pk_" ++ table

/-- `NAMING_CONVENTION["uq"]`. -/
def uniqueName (table column : String) : String := "uq_" ++ table ++ "_" ++ column

/-- `NAMING_CONVENTION["ck"]`. -/
def checkName (table name : String) : String := "ck_" ++ table ++ "_" ++ name

/-- The table of a model. -/
def Model.table (m : Model) : TableSchema where
  name := m.tablename
  columns := m.columns.map fun c => ⟨c.name, c.type, c.nullable, c.serverDefault⟩
  constraints :=
    m.checks.map (fun c => .check (checkName m.tablename c.1) c.2) ++
      .primaryKey (primaryKeyName m.tablename)
          ((m.columns.filter MappedColumn.primaryKey).map MappedColumn.name) ::
        (m.columns.filter MappedColumn.unique).map fun c =>
          .unique (uniqueName m.tablename c.name) [c.name]

/-- `_enum(Currency, "currency")`. -/
def currencyEnum : ColumnType := .enum "currency" ([.rub, .usd, .eur].map Currency.value)

/-- `_enum(PaymentStatus, "payment_status")`. -/
def paymentStatusEnum : ColumnType :=
  .enum "payment_status" ([.pending, .succeeded, .failed].map PaymentStatus.value)

/-- `func.now()`. -/
def now : ServerDefault := .sql "now()"

/-- `Payment`. -/
def paymentModel : Model where
  tablename := "payments"
  columns :=
    [{ name := "id", type := .uuid, primaryKey := true },
      { name := "idempotency_key", type := .string 255, unique := true },
      { name := "request_fingerprint", type := .string 64 },
      { name := "amount", type := .numeric 18 2 },
      { name := "currency", type := currencyEnum },
      { name := "description", type := .string 1024 },
      { name := "metadata", type := .jsonb, serverDefault := some (.sql "'\x7b\x7d'::jsonb") },
      { name := "status", type := paymentStatusEnum, serverDefault := some (.literal "pending") },
      { name := "failure_reason", type := .string 255, nullable := true },
      { name := "webhook_url", type := .text, nullable := true },
      { name := "webhook_attempts", type := .integer, serverDefault := some (.sql "0") },
      { name := "webhook_delivered_at", type := .dateTime, nullable := true },
      { name := "webhook_last_error", type := .text, nullable := true },
      { name := "created_at", type := .dateTime, serverDefault := some now },
      { name := "updated_at", type := .dateTime, serverDefault := some now },
      { name := "processed_at", type := .dateTime, nullable := true }]
  checks := [("amount_positive", .positive "amount")]
  indexes := [⟨"ix_payments_status_created_at", "payments", ["status", "created_at"], false, none⟩]

/-- `OutboxMessage`. -/
def outboxMessageModel : Model where
  tablename := "outbox_messages"
  columns :=
    [{ name := "id", type := .uuid, primaryKey := true },
      { name := "aggregate_type", type := .string 64 },
      { name := "aggregate_id", type := .uuid },
      { name := "event_type", type := .string 64 },
      { name := "routing_key", type := .string 255 },
      { name := "payload", type := .jsonb },
      { name := "created_at", type := .dateTime, serverDefault := some now },
      { name := "published_at", type := .dateTime, nullable := true },
      { name := "attempts", type := .integer, serverDefault := some (.sql "0") },
      { name := "next_retry_at", type := .dateTime, serverDefault := some now },
      { name := "last_error", type := .text, nullable := true }]
  checks := []
  indexes := [⟨"ix_outbox_unpublished", "outbox_messages", ["next_retry_at", "created_at"], false,
    some "published_at IS NULL"⟩]

/-- `Base.metadata`, sorted by the names of the tables. -/
def metadata : List Model := [outboxMessageModel, paymentModel]

/-! ## Values -/

/-- A value for a column. -/
inductive Value
  | uuid (id : UUID)
  | string (s : Str)
  | integer (n : ℕ)
  | decimal (d : Decimal)
  | json (x : Json Json.FloatToken)
  /-- The dump of an event, whose other members are ASCII. -/
  | event (e : PaymentCreatedEvent)
  | dateTime (t : Time)

/-- A column of the type takes the value. -/
def ColumnType.Takes : ColumnType → Value → Prop
  | .uuid, .uuid _ => True
  | .string n, .string s => Varchar n s
  | .text, .string s => Text s
  | .integer, .integer n => n ≤ maxInteger
  | .numeric precision scale, .decimal d => (Store.numeric precision scale d.value).isSome
  | .enum _ labels, .string s => s ∈ labels
  | .jsonb, .json x => Jsonb FiniteToken x
  | .jsonb, .event e => Text e.eventType
  | .dateTime, .dateTime _ => True
  | _, _ => False

namespace ColumnType

@[simp] theorem takes_uuid {id : UUID} : uuid.Takes (.uuid id) := trivial

@[simp] theorem takes_string {n : ℕ} {s : Str} : (string n).Takes (.string s) ↔ Varchar n s :=
  Iff.rfl

@[simp] theorem takes_text {s : Str} : text.Takes (.string s) ↔ Text s := Iff.rfl

@[simp] theorem takes_integer {n : ℕ} : integer.Takes (.integer n) ↔ n ≤ maxInteger := Iff.rfl

@[simp] theorem takes_numeric {precision scale : ℕ} {d : Decimal} :
    (numeric precision scale).Takes (.decimal d) ↔ (Store.numeric precision scale d.value).isSome :=
  Iff.rfl

@[simp] theorem takes_enum {name : String} {labels : List Str} {s : Str} :
    (enum name labels).Takes (.string s) ↔ s ∈ labels := Iff.rfl

@[simp] theorem takes_json {x : Json Json.FloatToken} :
    jsonb.Takes (.json x) ↔ Jsonb FiniteToken x := Iff.rfl

@[simp] theorem takes_event {e : PaymentCreatedEvent} :
    jsonb.Takes (.event e) ↔ Text e.eventType := Iff.rfl

@[simp] theorem takes_dateTime {t : Time} : dateTime.Takes (.dateTime t) := trivial

end ColumnType

/-- A column takes the value, or no value. -/
def Column.Takes (column : Column) : Option Value → Prop
  | none => column.nullable
  | some value => column.type.Takes value

@[simp] theorem Column.takes_some {column : Column} {value : Value} :
    column.Takes (some value) ↔ column.type.Takes value := Iff.rfl

theorem Column.takes_map {column : Column} (hnull : column.nullable) {α : Type} {f : α → Value}
    {x : Option α} : column.Takes (x.map f) ↔ ∀ a ∈ x, column.type.Takes (f a) := by
  cases x <;> simp [Column.Takes, hnull]

/-- What is assigned to the columns of a row. -/
abbrev Assignments : Type := List (String × Option Value)

/-- The condition holds for what the column `column` stores of the value. -/
def Condition.Holds (column : Column) (value : Option Value) : Condition → Prop
  | .positive name => column.name = name →
    ∀ precision scale d, column.type = .numeric precision scale → value = some (.decimal d) →
      ∀ x ∈ Store.numeric precision scale d.value, 0 < x

namespace TableSchema

variable (table : TableSchema) (assigned : Assignments)

/-- A row of the table can be changed. -/
def Updates : Prop :=
  ∀ a ∈ assigned, ∃ column ∈ table.columns, column.name = a.1 ∧ column.Takes a.2 ∧
    ∀ name condition, .check name condition ∈ table.constraints → condition.Holds column a.2

/-- A row can be inserted; a column that is not assigned is null, or has its default. -/
def Inserts : Prop :=
  table.Updates assigned ∧ ∀ column ∈ table.columns,
    column.name ∈ assigned.map Prod.fst ∨ column.nullable ∨ column.serverDefault.isSome

end TableSchema

end Db

open Db Python

/-! ## Rows -/

/-- The columns that `PaymentService.create` sets of a payment. -/
def NewPayment.assignments (p : NewPayment) : Assignments :=
  [("id", some (.uuid p.id)),
    ("idempotency_key", some (.string p.idempotencyKey)),
    ("request_fingerprint", some (.string p.requestFingerprint)),
    ("amount", some (.decimal p.amount)),
    ("currency", some (.string p.currency.value)),
    ("description", some (.string p.description)),
    ("metadata", some (.json p.paymentMetadata)),
    ("status", some (.string p.status.value)),
    ("webhook_url", p.webhookUrl.map .string)]

/-- The columns that it sets of an event. -/
def NewOutboxMessage.assignments (m : NewOutboxMessage) : Assignments :=
  [("id", some (.uuid m.id)),
    ("aggregate_type", some (.string m.aggregateType)),
    ("aggregate_id", some (.uuid m.aggregateId)),
    ("event_type", some (.string m.eventType)),
    ("routing_key", some (.string (Str.ofString m.routingKey))),
    ("payload", some (.event m.payload))]

/-- The columns that `PaymentProcessor` sets of a payment. -/
def Payment.assignments (p : Payment) : Assignments :=
  [("status", some (.string p.status.value)),
    ("failure_reason", p.failureReason.map .string),
    ("webhook_attempts", some (.integer p.webhookAttempts)),
    ("webhook_delivered_at", p.webhookDeliveredAt.map .dateTime),
    ("webhook_last_error", p.webhookLastError.map .string),
    ("processed_at", p.processedAt.map .dateTime)]

/-- The columns that `OutboxRelay` sets of an event. -/
def OutboxMessage.assignments (m : OutboxMessage) : Assignments :=
  [("published_at", m.publishedAt.map .dateTime),
    ("attempts", some (.integer m.attempts)),
    ("next_retry_at", some (.dateTime m.nextRetryAt)),
    ("last_error", m.lastError.map .string)]

/-! ## What fits -/

section Fits

open Store

@[simp] theorem takes_status (status : PaymentStatus) :
    paymentStatusEnum.Takes (.string status.value) := by
  cases status <;> simp [paymentStatusEnum]

@[simp] theorem takes_currency (currency : Currency) :
    currencyEnum.Takes (.string currency.value) := by
  cases currency <;> simp [currencyEnum]

/-- **New payments fit** if the table `payments` takes them. -/
theorem NewPayment.fits_iff {p : NewPayment} :
    p.Fits ↔ paymentModel.table.Inserts p.assignments := by
  have hinserts : paymentModel.table.Inserts p.assignments ↔
      Varchar 255 p.idempotencyKey ∧ Varchar 64 p.requestFingerprint ∧
        ((numeric 18 2 p.amount.value).isSome ∧ ∀ x ∈ numeric 18 2 p.amount.value, 0 < x) ∧
        Varchar 1024 p.description ∧ Jsonb FiniteToken p.paymentMetadata ∧
        ∀ url ∈ p.webhookUrl, Text url := by
    simp [TableSchema.Inserts, TableSchema.Updates, NewPayment.assignments, Model.table,
      paymentModel, Column.takes_map, Condition.Holds]
  rw [hinserts]
  constructor
  · intro h
    obtain ⟨x, hx, hpos⟩ := h.amount
    refine ⟨h.idempotencyKey, h.requestFingerprint, ?_, h.description, h.paymentMetadata,
      h.webhookUrl⟩
    simp [hx, hpos]
  · rintro ⟨hkey, hfingerprint, ⟨hsome, hpos⟩, hdescription, hmetadata, hurl⟩
    obtain ⟨x, hx⟩ := Option.isSome_iff_exists.mp hsome
    exact ⟨hkey, hfingerprint, ⟨x, hx, hpos x hx⟩, hdescription, hmetadata, hurl⟩

/-- New events fit if the table `outbox_messages` takes them. -/
theorem NewOutboxMessage.fits_iff {m : NewOutboxMessage} :
    m.Fits ↔ outboxMessageModel.table.Inserts m.assignments := by
  have hinserts : outboxMessageModel.table.Inserts m.assignments ↔
      Varchar 64 m.aggregateType ∧ Varchar 64 m.eventType ∧
        Varchar 255 (Str.ofString m.routingKey) ∧ Text m.payload.eventType := by
    simp [TableSchema.Inserts, TableSchema.Updates, NewOutboxMessage.assignments, Model.table,
      outboxMessageModel]
  rw [hinserts]
  constructor
  · intro h
    exact ⟨h.aggregateType, h.eventType, h.routingKey, h.payload⟩
  · rintro ⟨haggregate, hevent, hrouting, hpayload⟩
    exact ⟨haggregate, hevent, hrouting, hpayload⟩

/-- So do changed payments, -/
theorem Payment.fits_iff {p : Payment} : p.Fits ↔ paymentModel.table.Updates p.assignments := by
  have hupdates : paymentModel.table.Updates p.assignments ↔
      (∀ reason ∈ p.failureReason, Varchar 255 reason) ∧ p.webhookAttempts ≤ maxInteger ∧
        ∀ error ∈ p.webhookLastError, Text error := by
    simp [TableSchema.Updates, Payment.assignments, Model.table, paymentModel, Column.takes_map,
      Condition.Holds]
  rw [hupdates]
  constructor
  · intro h
    exact ⟨h.failureReason, h.webhookAttempts, h.webhookLastError⟩
  · rintro ⟨hreason, hattempts, herror⟩
    exact ⟨hreason, hattempts, herror⟩

/-- and changed events. -/
theorem OutboxMessage.fits_iff {m : OutboxMessage} :
    m.Fits ↔ outboxMessageModel.table.Updates m.assignments := by
  have hupdates : outboxMessageModel.table.Updates m.assignments ↔
      m.attempts ≤ maxInteger ∧ ∀ error ∈ m.lastError, Text error := by
    simp [TableSchema.Updates, OutboxMessage.assignments, Model.table, outboxMessageModel,
      Column.takes_map]
  rw [hupdates]
  constructor
  · intro h
    exact ⟨h.attempts, h.lastError⟩
  · rintro ⟨hattempts, herror⟩
    exact ⟨hattempts, herror⟩

end Fits

end Payments
