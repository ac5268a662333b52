import PaymentProcessing.Db.Schema
import PaymentProcessing.Foundations.Effects.Exclusive

/-!
# Migrations

The revision that makes the tables, and drops them, and `do_run_migrations`, which runs it under the
advisory lock `MIGRATION_LOCK_ID`.

The database, the operations of Alembic and SQLAlchemy that the revision calls, and
`context.run_migrations` are not part of the repository. They are a parameter, an `Alembic`;
`Alembic.Documented` is what is relied on, in terms of what the database knows of tables
(`Catalogue`). The names of tables and of the indexes behind keys are of one kind, and a type cannot
be dropped while a column has it.
-/

namespace Payments

namespace Db

open Effects Python

/-! ## The catalogue of the database -/

/-- The index behind a key. -/
def Constraint.index : Constraint → Option String
  | .check _ _ => none
  | .primaryKey name _ => some name
  | .unique name _ => some name

/-- The enumeration of a column. -/
def Column.enum (column : Column) : Option (String × List Str) :=
  match column.type with
  | .enum name labels => some (name, labels)
  | _ => none

namespace TableSchema

variable (table : TableSchema)

/-- The indexes behind the keys. -/
def keys : List String := table.constraints.filterMap Constraint.index

/-- The enumerations of the columns. -/
def enums : List (String × List Str) := table.columns.filterMap Column.enum

end TableSchema

/-- What the database knows of tables; `versions` is the table `alembic_version`. -/
structure Catalogue where
  types : List (String × List Str)
  tables : List TableSchema
  indexes : List IndexSchema
  versions : Option (List String)
  deriving DecidableEq

namespace Catalogue

variable (c : Catalogue)

/-- The names of the tables. -/
def tableNames : List String :=
  c.tables.map TableSchema.name ++ (c.versions.map fun _ => "alembic_version").toList

/-- The names that a new table or index cannot have. -/
def relationNames : List String :=
  c.tableNames ++ c.indexes.map IndexSchema.name ++ c.tables.flatMap TableSchema.keys ++
    (c.versions.map fun _ => "alembic_version_pkc").toList

/-- The names that a new type cannot have; a table is a type too. -/
def typeNames : List String := c.types.map Prod.fst ++ c.tableNames

/-- A table can be made: its names and those of its enumerations are new. -/
structure TakesTable (table : TableSchema) : Prop where
  relations : ∀ name ∈ table.name :: table.keys, name ∉ c.relationNames
  types : ∀ name ∈ table.name :: table.enums.map Prod.fst, name ∉ c.typeNames
  nodup_relations : (table.name :: table.keys).Nodup
  nodup_types : (table.name :: table.enums.map Prod.fst).Nodup

/-- An index can be made. -/
structure TakesIndex (index : IndexSchema) : Prop where
  relation : index.name ∉ c.relationNames
  columns : ∃ table ∈ c.tables, table.name = index.table ∧
    ∀ column ∈ index.columns, column ∈ table.columns.map Column.name

/-- There is a table `alembic_version`, or it can be made. -/
def TakesVersions : Prop :=
  c.versions = none → "alembic_version" ∉ c.relationNames ∧
    "alembic_version_pkc" ∉ c.relationNames ∧ "alembic_version" ∉ c.typeNames

/-- There is another table, and its enumerations. -/
def addTable (table : TableSchema) : Catalogue :=
  { c with types := c.types ++ table.enums, tables := c.tables ++ [table] }

def addIndex (index : IndexSchema) : Catalogue := { c with indexes := c.indexes ++ [index] }

def dropIndex (name : String) : Catalogue :=
  { c with indexes := c.indexes.filter fun i => i.name ≠ name }

/-- A table is gone, and its indexes; its enumerations are not. -/
def dropTable (name : String) : Catalogue :=
  { c with
    tables := c.tables.filter fun t => t.name ≠ name
    indexes := c.indexes.filter fun i => i.table ≠ name }

def dropType (name : String) : Catalogue := { c with types := c.types.filter fun t => t.1 ≠ name }

end Catalogue

/-! ## What is not part of the repository -/

/-- What the process is asked to do. -/
inductive Command
  /-- `alembic upgrade head`. -/
  | upgrade
  /-- `alembic downgrade base`. -/
  | downgrade
  deriving DecidableEq

/-- A revision. -/
structure Revision (D : Database) where
  revision : String
  upgrade : D.Body Unit
  downgrade : D.Body Unit

/-- **A database, and Alembic and SQLAlchemy on it.** -/
structure Alembic where
  database : Database
  /-- What the database knows of tables. -/
  catalogue : database.State → Catalogue
  /-- `op.create_table`. -/
  createTable : TableSchema → database.Body Unit
  /-- `op.create_index`. -/
  createIndex : IndexSchema → database.Body Unit
  /-- `op.drop_index`. -/
  dropIndex : (name table : String) → (condition : Option String) → database.Body Unit
  /-- `op.drop_table`. -/
  dropTable : String → database.Body Unit
  /-- `sa.Enum(name=name).drop(op.get_bind(), checkfirst=True)`. -/
  dropEnum : String → database.Body Unit
  /-- `context.run_migrations`, when there is one revision. -/
  runMigrations : Revision database → Command → database.Body Unit

namespace Alembic

variable (A : Alembic)

/-- A program that has the database for itself succeeds, and the catalogue is `c` then. -/
def Does (x : A.database.Body Unit) (σ : A.database.State) (c : Catalogue) : Prop :=
  ∃ σ', A.database.run x.run σ = some (.ok (), σ') ∧ A.catalogue σ' = c

/-- **What is documented**, of a database in which only columns and indexes depend on tables and
types: a statement that fails is raised; what can be made or dropped is, and nothing else; and a
revision is applied or reverted if it is not yet, and that is recorded. -/
structure Documented : Prop where
  errors : Nonempty A.database.Error
  strict_createTable : ∀ table, Database.Strict (A.createTable table).run
  strict_createIndex : ∀ index, Database.Strict (A.createIndex index).run
  strict_dropIndex : ∀ name table condition, Database.Strict (A.dropIndex name table condition).run
  strict_dropTable : ∀ name, Database.Strict (A.dropTable name).run
  strict_dropEnum : ∀ name, Database.Strict (A.dropEnum name).run
  strict_runMigrations : ∀ (r : Revision A.database) (command : Command),
    Database.Strict r.upgrade.run → Database.Strict r.downgrade.run →
    Database.Strict (A.runMigrations r command).run
  createTable : ∀ {σ table}, (A.catalogue σ).TakesTable table →
    A.Does (A.createTable table) σ ((A.catalogue σ).addTable table)
  createIndex : ∀ {σ index}, (A.catalogue σ).TakesIndex index →
    A.Does (A.createIndex index) σ ((A.catalogue σ).addIndex index)
  dropIndex : ∀ {σ name table condition},
    (∃ index ∈ (A.catalogue σ).indexes, index.name = name ∧ index.table = table) →
    A.Does (A.dropIndex name table condition) σ ((A.catalogue σ).dropIndex name)
  dropTable : ∀ {σ name}, (∃ table ∈ (A.catalogue σ).tables, table.name = name) →
    A.Does (A.dropTable name) σ ((A.catalogue σ).dropTable name)
  /-- Whether there is such a type, or a table, is checked first. -/
  dropEnum : ∀ {σ name}, name ∉ (A.catalogue σ).tableNames →
    (∀ table ∈ (A.catalogue σ).tables, ∀ enum ∈ table.enums, enum.1 ≠ name) →
    A.Does (A.dropEnum name) σ ((A.catalogue σ).dropType name)
  /-- Where no revision is recorded, an upgrade runs the one there is, and records it. -/
  upgrade : ∀ {r : Revision A.database} {σ c}, (A.catalogue σ).versions.getD [] = [] →
    (A.catalogue σ).TakesVersions →
    (∀ σ', A.catalogue σ' = { A.catalogue σ with versions := some [] } → A.Does r.upgrade σ' c) →
    c.versions = some [] →
    A.Does (A.runMigrations r .upgrade) σ { c with versions := some [r.revision] }
  /-- Where it is recorded, an upgrade does nothing, -/
  upgraded : ∀ {r : Revision A.database} {σ}, (A.catalogue σ).versions = some [r.revision] →
    A.Does (A.runMigrations r .upgrade) σ (A.catalogue σ)
  /-- and a downgrade reverts it, and deletes the record. -/
  downgrade : ∀ {r : Revision A.database} {σ c}, (A.catalogue σ).versions = some [r.revision] →
    A.Does r.downgrade σ c → c.versions = some [r.revision] →
    A.Does (A.runMigrations r .downgrade) σ { c with versions := some [] }
  downgraded : ∀ {r : Revision A.database} {σ}, (A.catalogue σ).versions.getD [] = [] →
    (A.catalogue σ).TakesVersions →
    A.Does (A.runMigrations r .downgrade) σ { A.catalogue σ with versions := some [] }

end Alembic

/-! ## The revision -/

/-- `revision`. -/
def revision : String := "6077c87387ca"

/-- The table that `upgrade` makes for events. -/
def outboxMessages : TableSchema where
  name := "outbox_messages"
  columns :=
    [⟨"id", .uuid, false, none⟩,
      ⟨"aggregate_type", .string 64, false, none⟩,
      ⟨"aggregate_id", .uuid, false, none⟩,
      ⟨"event_type", .string 64, false, none⟩,
      ⟨"routing_key", .string 255, false, none⟩,
      ⟨"payload", .jsonb, false, none⟩,
      ⟨"created_at", .dateTime, false, some (.sql "now()")⟩,
      ⟨"published_at", .dateTime, true, none⟩,
      ⟨"attempts", .integer, false, some (.sql "0")⟩,
      ⟨"next_retry_at", .dateTime, false, some (.sql "now()")⟩,
      ⟨"last_error", .text, true, none⟩]
  constraints := [.primaryKey "pk_outbox_messages" ["id"]]

/-- Its index. -/
def outboxUnpublished : IndexSchema :=
  ⟨"ix_outbox_unpublished", "outbox_messages", ["next_retry_at", "created_at"], false,
    some "published_at IS NULL"⟩

/-- The table that `upgrade` makes for payments. -/
def payments : TableSchema where
  name := "payments"
  columns :=
    [⟨"id", .uuid, false, none⟩,
      ⟨"idempotency_key", .string 255, false, none⟩,
      ⟨"request_fingerprint", .string 64, false, none⟩,
      ⟨"amount", .numeric 18 2, false, none⟩,
      ⟨"currency", .enum "currency" (["RUB", "USD", "EUR"].map Str.ofString), false, none⟩,
      ⟨"description", .string 1024, false, none⟩,
      ⟨"metadata", .jsonb, false, some (.sql "'\x7b\x7d'::jsonb")⟩,
      ⟨"status", .enum "payment_status" (["pending", "succeeded", "failed"].map Str.ofString),
        false, some (.literal "pending")⟩,
      ⟨"failure_reason", .string 255, true, none⟩,
      ⟨"webhook_url", .text, true, none⟩,
      ⟨"webhook_attempts", .integer, false, some (.sql "0")⟩,
      ⟨"webhook_delivered_at", .dateTime, true, none⟩,
      ⟨"webhook_last_error", .text, true, none⟩,
      ⟨"created_at", .dateTime, false, some (.sql "now()")⟩,
      ⟨"updated_at", .dateTime, false, some (.sql "now()")⟩,
      ⟨"processed_at", .dateTime, true, none⟩]
  constraints :=
    [.check "ck_payments_amount_positive" (.positive "amount"),
      .primaryKey "pk_payments" ["id"],
      .unique "uq_payments_idempotency_key" ["idempotency_key"]]

/-- Its index. -/
def paymentsStatusCreatedAt : IndexSchema :=
  ⟨"ix_payments_status_created_at", "payments", ["status", "created_at"], false, none⟩

namespace Alembic

variable (A : Alembic)

/-- `upgrade`. -/
def upgrade : A.database.Body Unit := do
  A.createTable outboxMessages
  A.createIndex outboxUnpublished
  A.createTable payments
  A.createIndex paymentsStatusCreatedAt

/-- `downgrade`. -/
def downgrade : A.database.Body Unit := do
  A.dropIndex "ix_payments_status_created_at" "payments" none
  A.dropTable "payments"
  A.dropIndex "ix_outbox_unpublished" "outbox_messages" (some "published_at IS NULL")
  A.dropTable "outbox_messages"
  -- They outlive their tables, and the next upgrade would fail.
  A.dropEnum "payment_status"
  A.dropEnum "currency"

/-- The revision of the service. -/
def initial : Revision A.database := ⟨revision, A.upgrade, A.downgrade⟩

/-- `do_run_migrations`. -/
def doRunMigrations (command : Command) : A.database.Session Unit :=
  A.database.exclusively (A.runMigrations A.initial command)

end Alembic

end Db

end Payments
