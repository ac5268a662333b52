import PaymentProcessing.Db.Instance

/-!
# Migrations that run at the same time

Any number of processes may migrate one database, in which others have tables too; each takes the
lock first, and may fail, or be killed, at any statement. `Stage` is how far the database has come.

What is documented of an operation depends on the whole catalogue. The names of the service are its
own (`Catalogue.Vacant`), so an operation on the tables of the service does beside the tables of
others what it does without them (`leads_createTable` to `leads_dropEnum`). Hence the database is
always at one of the three stages, and no migration that has the lock is refused
(`migrations_serialized`).
-/

namespace Payments

namespace Db

open Effects Python

/-! ## The tables of others -/

/-- The names of the relations of the service. -/
def relations : List String :=
  ["alembic_version", "alembic_version_pkc", "outbox_messages", "pk_outbox_messages",
    "ix_outbox_unpublished", "payments", "pk_payments", "uq_payments_idempotency_key",
    "ix_payments_status_created_at"]

/-- The names of its types. -/
def types : List String :=
  ["alembic_version", "outbox_messages", "currency", "payment_status", "payments"]

/-- The catalogue of a database without a table of the service: nothing has one of its names; and
the types of columns and the tables of indexes are there. -/
structure Catalogue.Vacant (c : Catalogue) : Prop where
  versions : c.versions = none
  relations : ∀ name ∈ Db.relations, name ∉ c.relationNames
  types : ∀ name ∈ Db.types, name ∉ c.typeNames
  enums : ∀ table ∈ c.tables, ∀ enum ∈ table.enums, enum ∈ c.types
  indexed : ∀ index ∈ c.indexes, index.table ∈ c.tables.map TableSchema.name

/-- What the service has beside what others have. -/
def Catalogue.beside (others own : Catalogue) : Catalogue where
  types := others.types ++ own.types
  tables := others.tables ++ own.tables
  indexes := others.indexes ++ own.indexes
  versions := own.versions

section Frame

variable {others own own' : Catalogue}

theorem Catalogue.Vacant.mem_typeNames (h : others.Vacant) {name : String}
    (hname : name ∈ Db.types) :
    name ∈ (others.beside own).typeNames ↔ name ∈ own.typeNames := by
  have hnot := h.types name hname
  simp only [Catalogue.typeNames, Catalogue.beside, Catalogue.tableNames, List.map_append,
    List.mem_append, h.versions] at hnot ⊢
  tauto

theorem Catalogue.Vacant.mem_relationNames (h : others.Vacant) {name : String}
    (hname : name ∈ Db.relations) :
    name ∈ (others.beside own).relationNames ↔ name ∈ own.relationNames := by
  have hnot := h.relations name hname
  simp only [Catalogue.relationNames, Catalogue.beside, Catalogue.tableNames, List.map_append,
    List.flatMap_append, List.mem_append, h.versions] at hnot ⊢
  tauto

/-- A name of the service is no name of the tables of others. -/
theorem Catalogue.Vacant.table_ne (h : others.Vacant) {name : String}
    (hname : name ∈ Db.relations) :
    ∀ table ∈ others.tables, table.name ≠ name := by
  have hnot := h.relations name hname
  simp only [Catalogue.relationNames, Catalogue.tableNames, List.mem_append, not_or, List.mem_map,
    not_exists, not_and] at hnot
  exact hnot.1.1.1.1

theorem Catalogue.Vacant.index_ne (h : others.Vacant) {name : String}
    (hname : name ∈ Db.relations) :
    ∀ index ∈ others.indexes, index.name ≠ name := by
  have hnot := h.relations name hname
  simp only [Catalogue.relationNames, List.mem_append, not_or, List.mem_map, not_exists,
    not_and] at hnot
  exact hnot.1.1.2

theorem Catalogue.Vacant.type_ne (h : others.Vacant) {name : String} (hname : name ∈ Db.types) :
    ∀ type ∈ others.types, type.1 ≠ name := by
  have hnot := h.types name hname
  simp only [Catalogue.typeNames, List.mem_append, not_or, List.mem_map, not_exists,
    not_and] at hnot
  exact hnot.1

theorem Catalogue.Vacant.indexed_ne (h : others.Vacant) {name : String}
    (hname : name ∈ Db.relations) :
    ∀ index ∈ others.indexes, index.table ≠ name := by
  intro index hindex
  obtain ⟨table, htable, heq⟩ := List.mem_map.mp (h.indexed index hindex)
  rw [← heq]
  exact h.table_ne hname table htable

end Frame

/-! ## Operations beside the tables of others -/

/-- A program succeeds in every state with the catalogue `c`, and the catalogue is `c'` then. -/
def Alembic.Leads (A : Alembic) (x : A.database.Body Unit) (c c' : Catalogue) : Prop :=
  ∀ σ, A.catalogue σ = c → A.Does x σ c'

section Beside

variable {A : Alembic} {others own c c' c'' : Catalogue}

theorem Alembic.Leads.bind {x y : A.database.Body Unit} (hx : A.Leads x c c')
    (hy : A.Leads y c' c'') : A.Leads (x >>= fun _ => y) c c'' := by
  intro σ hσ
  obtain ⟨mid, hrun, hmid⟩ := hx σ hσ
  obtain ⟨σ', hrest, hσ'⟩ := hy mid hmid
  exact ⟨σ', (Database.run_bind hrun).trans hrest, hσ'⟩

theorem beside_addTable (table : TableSchema) :
    (others.beside own).addTable table = others.beside (own.addTable table) := by
  simp [Catalogue.addTable, Catalogue.beside]

theorem beside_addIndex (index : IndexSchema) :
    (others.beside own).addIndex index = others.beside (own.addIndex index) := by
  simp [Catalogue.addIndex, Catalogue.beside]

/-- What the service drops is its own. -/
theorem Catalogue.Vacant.dropIndex (h : others.Vacant) {name : String}
    (hname : name ∈ Db.relations) :
    (others.beside own).dropIndex name = others.beside (own.dropIndex name) := by
  simpa [Catalogue.dropIndex, Catalogue.beside, List.filter_eq_self] using h.index_ne hname

/-- The indexes of others are of tables of others, and stay. -/
theorem Catalogue.Vacant.dropTable (h : others.Vacant) {name : String}
    (hname : name ∈ Db.relations) :
    (others.beside own).dropTable name = others.beside (own.dropTable name) := by
  simpa [Catalogue.dropTable, Catalogue.beside, List.filter_eq_self] using
    ⟨h.table_ne hname, h.indexed_ne hname⟩

theorem Catalogue.Vacant.dropType (h : others.Vacant) {name : String} (hname : name ∈ Db.types) :
    (others.beside own).dropType name = others.beside (own.dropType name) := by
  simpa [Catalogue.dropType, Catalogue.beside, List.filter_eq_self] using h.type_ne hname

variable (hA : A.Documented) (h : others.Vacant)

include hA h

theorem leads_createTable {table : TableSchema}
    (hrelations : ∀ name ∈ table.name :: table.keys, name ∈ relations)
    (htypes : ∀ name ∈ table.name :: table.enums.map Prod.fst, name ∈ types)
    (hown : own.TakesTable table) :
    A.Leads (A.createTable table) (others.beside own) (others.beside (own.addTable table)) := by
  intro σ hσ
  have htakes : (others.beside own).TakesTable table :=
    ⟨fun name hname hused => hown.relations name hname
        ((h.mem_relationNames (hrelations name hname)).mp hused),
      fun name hname hused => hown.types name hname
        ((h.mem_typeNames (htypes name hname)).mp hused),
      hown.nodup_relations, hown.nodup_types⟩
  have hdoes := hA.createTable (hσ ▸ htakes)
  rwa [hσ, beside_addTable] at hdoes

theorem leads_createIndex {index : IndexSchema} (hname : index.name ∈ relations)
    (hown : own.TakesIndex index) :
    A.Leads (A.createIndex index) (others.beside own) (others.beside (own.addIndex index)) := by
  intro σ hσ
  obtain ⟨hnew, table, htable, hcolumns⟩ := hown
  have htakes : (others.beside own).TakesIndex index :=
    ⟨fun hused => hnew ((h.mem_relationNames hname).mp hused), table,
      List.mem_append_right _ htable, hcolumns⟩
  have hdoes := hA.createIndex (hσ ▸ htakes)
  rwa [hσ, beside_addIndex] at hdoes

theorem leads_dropIndex {name table : String} {condition : Option String}
    (hname : name ∈ relations)
    (hown : ∃ index ∈ own.indexes, index.name = name ∧ index.table = table) :
    A.Leads (A.dropIndex name table condition) (others.beside own)
      (others.beside (own.dropIndex name)) := by
  intro σ hσ
  obtain ⟨index, hindex, heq⟩ := hown
  have hthere : ∃ index ∈ (others.beside own).indexes, index.name = name ∧ index.table = table :=
    ⟨index, List.mem_append_right _ hindex, heq⟩
  have hdoes : A.Does (A.dropIndex name table condition) σ _ := hA.dropIndex (hσ ▸ hthere)
  rwa [hσ, h.dropIndex hname] at hdoes

theorem leads_dropTable {name : String} (hname : name ∈ relations)
    (hown : ∃ table ∈ own.tables, table.name = name) :
    A.Leads (A.dropTable name) (others.beside own) (others.beside (own.dropTable name)) := by
  intro σ hσ
  obtain ⟨table, htable, heq⟩ := hown
  have hthere : ∃ table ∈ (others.beside own).tables, table.name = name :=
    ⟨table, List.mem_append_right _ htable, heq⟩
  have hdoes := hA.dropTable (hσ ▸ hthere)
  rwa [hσ, h.dropTable hname] at hdoes

theorem leads_dropEnum {name : String} (hname : name ∈ types) (hnew : name ∉ own.tableNames)
    (hown : ∀ table ∈ own.tables, ∀ enum ∈ table.enums, enum.1 ≠ name) :
    A.Leads (A.dropEnum name) (others.beside own) (others.beside (own.dropType name)) := by
  intro σ hσ
  have hunused : ∀ table ∈ (others.beside own).tables, ∀ enum ∈ table.enums, enum.1 ≠ name := by
    intro table htable enum henum
    rcases List.mem_append.mp htable with hother | hmine
    · -- Columns of others have types of others.
      exact h.type_ne hname enum (h.enums table hother enum henum)
    · exact hown table hmine enum henum
  have hno : name ∉ (others.beside own).tableNames := by
    have hnot : name ∉ others.tableNames := fun hused =>
      h.types name hname (List.mem_append_right _ hused)
    simp only [Catalogue.tableNames, Catalogue.beside, List.map_append, List.mem_append,
      h.versions] at hnot hnew ⊢
    tauto
  have hdoes := hA.dropEnum (hσ ▸ hno) (hσ ▸ hunused)
  rwa [hσ, h.dropType hname] at hdoes

end Beside

/-! ## Stages -/

/-- How far a database has come. -/
inductive Stage
  /-- Nothing was ever migrated. -/
  | fresh
  /-- There is only the table `alembic_version`, without an entry. -/
  | base
  | head

/-- What there is of the service. -/
def Stage.catalogue : Stage → Catalogue
  | .fresh => ⟨[], [], [], none⟩
  | .base => ⟨[], [], [], some []⟩
  | .head =>
    { types := metadata.flatMap fun m => m.table.enums
      tables := metadata.map Model.table
      indexes := metadata.flatMap Model.indexes
      versions := some [revision] }

/-- Where a command leads. -/
def Command.goal : Command → Stage
  | .upgrade => .head
  | .downgrade => .base

theorem name_payments : payments.name = "payments" := rfl

theorem keys_payments : payments.keys = ["pk_payments", "uq_payments_idempotency_key"] := rfl

theorem enums_payments : payments.enums =
    [("currency", ["RUB", "USD", "EUR"].map Str.ofString),
      ("payment_status", ["pending", "succeeded", "failed"].map Str.ofString)] := rfl

theorem name_outboxMessages : outboxMessages.name = "outbox_messages" := rfl

theorem keys_outboxMessages : outboxMessages.keys = ["pk_outbox_messages"] := rfl

theorem enums_outboxMessages : outboxMessages.enums = [] := rfl

section Commands

variable {A : Alembic} {others : Catalogue} (hA : A.Documented) (h : others.Vacant)

include hA h

/-- `upgrade` makes what the models declare. -/
theorem leads_upgrade : A.Leads A.upgrade (others.beside Stage.base.catalogue)
    (others.beside { Stage.head.catalogue with versions := some [] }) := by
  let own₁ := Stage.base.catalogue.addTable outboxMessages
  let own₂ := own₁.addIndex outboxUnpublished
  let own₃ := own₂.addTable payments
  have hrelations₀ : Stage.base.catalogue.relationNames =
      ["alembic_version", "alembic_version_pkc"] := rfl
  have htypes₀ : Stage.base.catalogue.typeNames = ["alembic_version"] := rfl
  have hrelations₁ : own₁.relationNames = ["outbox_messages", "alembic_version",
      "pk_outbox_messages", "alembic_version_pkc"] := rfl
  have hrelations₂ : own₂.relationNames = ["outbox_messages", "alembic_version",
      "ix_outbox_unpublished", "pk_outbox_messages", "alembic_version_pkc"] := rfl
  have htypes₂ : own₂.typeNames = ["outbox_messages", "alembic_version"] := rfl
  have hrelations₃ : own₃.relationNames = ["outbox_messages", "payments", "alembic_version",
      "ix_outbox_unpublished", "pk_outbox_messages", "pk_payments", "uq_payments_idempotency_key",
      "alembic_version_pkc"] := rfl
  have hevents : A.Leads (A.createTable outboxMessages) (others.beside Stage.base.catalogue)
      (others.beside own₁) := by
    refine leads_createTable hA h ?_ ?_ ⟨?_, ?_, ?_, ?_⟩ <;>
      simp [name_outboxMessages, keys_outboxMessages, enums_outboxMessages, hrelations₀, htypes₀,
        relations, types]
  have hunpublished : A.Leads (A.createIndex outboxUnpublished) (others.beside own₁)
      (others.beside own₂) := by
    refine leads_createIndex hA h ?_ ⟨?_, outboxMessages, List.mem_singleton_self _, rfl, ?_⟩ <;>
      simp [hrelations₁, outboxUnpublished, outboxMessages, relations]
  have hpayments : A.Leads (A.createTable payments) (others.beside own₂) (others.beside own₃) := by
    refine leads_createTable hA h ?_ ?_ ⟨?_, ?_, ?_, ?_⟩ <;>
      simp [name_payments, keys_payments, enums_payments, hrelations₂, htypes₂, relations, types]
  have hstatus : A.Leads (A.createIndex paymentsStatusCreatedAt) (others.beside own₃)
      (others.beside (own₃.addIndex paymentsStatusCreatedAt)) := by
    refine leads_createIndex hA h ?_ ⟨?_, payments, ?_, rfl, ?_⟩
    · simp [paymentsStatusCreatedAt, relations]
    · simp [hrelations₃, paymentsStatusCreatedAt]
    · exact List.mem_append_right _ (List.mem_singleton_self _)
    · simp [paymentsStatusCreatedAt, payments]
  exact hevents.bind (hunpublished.bind (hpayments.bind hstatus))

/-- `downgrade` drops everything that the revision has made. -/
theorem leads_downgrade : A.Leads A.downgrade (others.beside Stage.head.catalogue)
    (others.beside { Stage.base.catalogue with versions := some [revision] }) := by
  let own₁ := Stage.head.catalogue.dropIndex "ix_payments_status_created_at"
  let own₂ := own₁.dropTable "payments"
  let own₃ := own₂.dropIndex "ix_outbox_unpublished"
  let own₄ := own₃.dropTable "outbox_messages"
  have hstatus : A.Leads (A.dropIndex "ix_payments_status_created_at" "payments" none)
      (others.beside Stage.head.catalogue) (others.beside own₁) :=
    leads_dropIndex hA h (by simp [relations])
      ⟨paymentsStatusCreatedAt, by decide, rfl, rfl⟩
  have hpayments : A.Leads (A.dropTable "payments") (others.beside own₁) (others.beside own₂) :=
    leads_dropTable hA h (by simp [relations]) ⟨payments, by decide, rfl⟩
  have hunpublished : A.Leads
      (A.dropIndex "ix_outbox_unpublished" "outbox_messages" (some "published_at IS NULL"))
      (others.beside own₂) (others.beside own₃) :=
    leads_dropIndex hA h (by simp [relations]) ⟨outboxUnpublished, by decide, rfl, rfl⟩
  have hevents : A.Leads (A.dropTable "outbox_messages") (others.beside own₃)
      (others.beside own₄) :=
    leads_dropTable hA h (by simp [relations]) ⟨outboxMessages, by decide, rfl⟩
  have hnone : own₄.tables = [] := rfl
  have hnames : own₄.tableNames = ["alembic_version"] := rfl
  have hnames' : (own₄.dropType "payment_status").tableNames = ["alembic_version"] := rfl
  have hstatuses : A.Leads (A.dropEnum "payment_status") (others.beside own₄)
      (others.beside (own₄.dropType "payment_status")) :=
    leads_dropEnum hA h (by simp [types]) (by simp [hnames]) (by simp [hnone])
  have hcurrencies : A.Leads (A.dropEnum "currency")
      (others.beside (own₄.dropType "payment_status"))
      (others.beside ((own₄.dropType "payment_status").dropType "currency")) :=
    leads_dropEnum hA h (by simp [types]) (by simp [hnames']) (by simp [Catalogue.dropType, hnone])
  exact hstatus.bind (hpayments.bind (hunpublished.bind (hevents.bind
    (hstatuses.bind hcurrencies))))

omit hA in
theorem takesVersions {stage : Stage} (hstage : stage ≠ .head) :
    (others.beside stage.catalogue).versions.getD [] = [] ∧
      (others.beside stage.catalogue).TakesVersions := by
  cases stage with
  | fresh =>
    have hversion : "alembic_version" ∈ relations := by simp [relations]
    have hkey : "alembic_version_pkc" ∈ relations := by simp [relations]
    have htype : "alembic_version" ∈ types := by simp [types]
    have hrelations : Stage.fresh.catalogue.relationNames = [] := rfl
    have htypes : Stage.fresh.catalogue.typeNames = [] := rfl
    refine ⟨rfl, fun _ => ?_⟩
    rw [h.mem_relationNames hversion, h.mem_relationNames hkey, h.mem_typeNames htype, hrelations,
      htypes]
    simp
  | base => exact ⟨rfl, fun hnone => by simp [Catalogue.beside, Stage.catalogue] at hnone⟩
  | head => exact absurd rfl hstage

/-- **A command leads to its stage from every stage.** -/
theorem leads_runMigrations (stage : Stage) (command : Command) :
    A.Leads (A.runMigrations A.initial command) (others.beside stage.catalogue)
      (others.beside command.goal.catalogue) := by
  intro σ hσ
  by_cases hstage : stage = .head
  · subst hstage
    have hversions : (A.catalogue σ).versions = some [revision] := by
      rw [hσ]
      rfl
    cases command with
    | upgrade =>
      have hdoes := hA.upgraded (r := A.initial) hversions
      rwa [hσ] at hdoes
    | downgrade => exact hA.downgrade (r := A.initial) hversions (leads_downgrade hA h σ hσ) rfl
  · obtain ⟨hnone, htakes⟩ := takesVersions h hstage
    rw [← hσ] at hnone htakes
    -- `alembic_version` is there when the revision is applied.
    have hbase : { A.catalogue σ with versions := some [] } =
        others.beside Stage.base.catalogue := by
      rw [hσ]
      cases stage with
      | fresh => rfl
      | base => rfl
      | head => exact absurd rfl hstage
    cases command with
    | upgrade =>
      exact hA.upgrade (r := A.initial) hnone htakes
        (fun σ' hσ' => leads_upgrade hA h σ' (hσ'.trans hbase)) rfl
    | downgrade =>
      have hdoes := hA.downgraded (r := A.initial) hnone htakes
      rwa [hbase] at hdoes

omit h in
theorem strict_upgrade : Database.Strict A.upgrade.run := by
  refine .bind (hA.strict_createTable _) fun _ => .bind (hA.strict_createIndex _) fun _ => ?_
  exact .bind (hA.strict_createTable _) fun _ => hA.strict_createIndex _

omit h in
theorem strict_downgrade : Database.Strict A.downgrade.run := by
  refine .bind (hA.strict_dropIndex _ _ _) fun _ => .bind (hA.strict_dropTable _) fun _ => ?_
  refine .bind (hA.strict_dropIndex _ _ _) fun _ => .bind (hA.strict_dropTable _) fun _ => ?_
  exact .bind (hA.strict_dropEnum _) fun _ => hA.strict_dropEnum _

end Commands

/-! ## Processes -/

section Processes

/-- The database is at a stage, and has what others have. -/
def Alembic.Staged (A : Alembic) (others : Catalogue) (σ : A.database.State) : Prop :=
  ∃ stage : Stage, A.catalogue σ = others.beside stage.catalogue

/-- Processes of which each runs `do_run_migrations`, at whatever stage the database is first. -/
abbrev migrations (A : Alembic) (others : Catalogue) (InUse : Command → Prop) : Machine :=
  { A.database.sessions (A.runMigrations A.initial) InUse (A.Staged others) with
    code := fun command => (A.doRunMigrations command).run }

variable {A : Alembic} {others : Catalogue} {InUse : Command → Prop}

theorem sound (hA : A.Documented) (h : others.Vacant) :
    Database.Sound (A.runMigrations A.initial) InUse (A.Staged others)
      fun k σ => (∀ k', InUse k' → k' = k) → A.catalogue σ = others.beside k.goal.catalogue where
  strict k := hA.strict_runMigrations A.initial k (strict_upgrade hA) (strict_downgrade hA)
  succeeds := by
    rintro k σ hk ⟨stage, hσ⟩
    obtain ⟨σ', hrun, hσ'⟩ := leads_runMigrations hA h stage k σ hσ
    refine ⟨(), σ', hrun, ⟨k.goal, hσ'⟩, fun _ => hσ', fun k' _ _ honly => ?_⟩
    rw [honly k hk] at hσ'
    exact hσ'

variable {s : (migrations A others InUse).State}

/-- **Migrations do not get in each other's way.** The database is always at one of the stages, with
what others have as it was; no statement of a process that has the lock is refused; a step commits
nothing, or a whole migration; if all processes do the same, then the database is where that leads
once one of them has returned; and processes that are left alone return. -/
theorem migrations_serialized (hA : A.Documented) (hothers : others.Vacant)
    (h : (migrations A others InUse).Reachable s) :
    (∃ stage : Stage, A.catalogue s.world.committed = others.beside stage.catalogue) ∧
    (∀ t k q c, s.threads t = .running k (.op (.query q) c) →
      ∃ a σ, A.database.apply q (s.world.view t) = some (a, σ)) ∧
    (∀ s', (migrations A others InUse).Step s s' → s'.world.committed = s.world.committed ∨
      ∃ k, InUse k ∧ A.catalogue s'.world.committed = others.beside k.goal.catalogue) ∧
    (∀ t k, s.threads t = .running k (.ret (.ok ())) → (∀ k', InUse k' → k' = k) →
      A.catalogue s.world.committed = others.beside k.goal.catalogue) ∧
    Terminates ((migrations A others InUse).Onward fun t o r => A.database.Smoothly t o r)
      (fun s' => ∀ t, ¬(migrations A others InUse).Busy s' t) s := by
  have := hA.errors
  obtain ⟨hwell, haccepted, hsince⟩ := (sound hA hothers).reachable (fun _ hσ => hσ) h
  refine ⟨hwell, haccepted, fun s' hs => ?_, fun t k ht honly => hsince t k () ht honly,
    (sound hA hothers).terminates (fun _ hσ => hσ) h⟩
  rcases (sound hA hothers).step (fun _ hσ => hσ) h hs with hsame | ⟨k, a, hk, hrun⟩
  · exact .inl hsame
  · obtain ⟨stage, hstage⟩ := hwell
    obtain ⟨σ, hrun', hσ⟩ := leads_runMigrations hA hothers stage k _ hstage
    obtain ⟨-, rfl⟩ := Prod.mk.inj (Option.some.inj (hrun'.symm.trans hrun))
    exact .inr ⟨k, hk, hσ⟩

/-- A database in which others have a table. -/
def ledger : Catalogue where
  types := [("kind", ["debit", "credit"].map Str.ofString)]
  tables :=
    [{ name := "entries"
       columns := [⟨"id", .integer, false, none⟩,
        ⟨"kind", .enum "kind" (["debit", "credit"].map Str.ofString), false, none⟩]
       constraints := [.primaryKey "entries_pkey" ["id"]] }]
  indexes := [⟨"ix_entries_kind", "entries", ["kind"], false, none⟩]
  versions := none

theorem vacant_ledger : ledger.Vacant where
  versions := rfl
  relations := by
    have hnames : ledger.relationNames = ["entries", "ix_entries_kind", "entries_pkey"] := rfl
    rw [hnames]
    simp [relations]
  types := by
    have hnames : ledger.typeNames = ["kind", "entries"] := rfl
    rw [hnames]
    simp [types]
  enums := by
    have henums : ledger.tables.flatMap TableSchema.enums = ledger.types := rfl
    intro table htable enum henum
    rw [← henums]
    exact List.mem_flatMap.mpr ⟨table, htable, henum⟩
  indexed := by simp [ledger]

/-- An upgrade can return. -/
theorem exists_upgraded (hothers : others.Vacant) :
    ∃ s, (migrations .plain others (· = .upgrade)).Reachable s ∧
      s.threads 0 = .running .upgrade (.ret (.ok ())) := by
  obtain ⟨σ', hrun, -⟩ := leads_runMigrations Alembic.documented_plain hothers .fresh .upgrade _ rfl
  obtain ⟨s, h, ht, -⟩ : ∃ s, (migrations .plain others (· = .upgrade)).Reachable s ∧
      s.threads 0 = .running .upgrade (.ret (.ok ())) ∧ s.world.committed = σ' :=
    Database.exists_commit ⟨.fresh, rfl⟩ rfl hrun
  exact ⟨s, h, ht⟩

/-- An upgrade of this database has added the tables of the service. -/
theorem migrations_serialized_ledger :
    ∃ s, (migrations .plain ledger (· = .upgrade)).Reachable s ∧
      s.threads 0 = .running .upgrade (.ret (.ok ())) ∧
      s.world.committed = ledger.beside Stage.head.catalogue := by
  obtain ⟨s, h, ht⟩ := exists_upgraded vacant_ledger
  exact ⟨s, h, ht, (migrations_serialized Alembic.documented_plain vacant_ledger h).2.2.2.1 0
    .upgrade ht fun _ hk => hk⟩

end Processes

end Db

end Payments
