import PaymentProcessing.Properties.Migrations
import PaymentProcessing.Services.PaymentService

/-!
# The schema that migrations make

What the services find in a database once an upgrade has returned (`migrated_schema`): the tables
and indexes of the models, columns that take the rows of the store, and keys under names by which
`_is_idempotency_key_violation` tells a repeated `idempotency_key` from the rest.
-/

namespace Payments

namespace Db

open Effects Python

/-! ## Tables and indexes -/

section Head

variable {others : Catalogue} {m : Model}

theorem tablename_mem (hm : m ∈ metadata) : m.tablename ∈ relations := by
  rcases List.mem_pair.mp hm with rfl | rfl
  · simp [outboxMessageModel, relations]
  · simp [paymentModel, relations]

/-- Where there is everything, the table of a model is there, and no other with its name. -/
theorem mem_tables_head (hothers : others.Vacant) (hm : m ∈ metadata)
    {table : TableSchema} :
    table ∈ (others.beside Stage.head.catalogue).tables ∧ table.name = m.tablename ↔
      table = m.table := by
  constructor
  · rintro ⟨htable, heq⟩
    rcases List.mem_append.mp htable with hother | hmine
    · exact absurd heq (hothers.table_ne (tablename_mem hm) table hother)
    · obtain ⟨m', hm', rfl⟩ := List.mem_map.mp hmine
      rcases List.mem_pair.mp hm with rfl | rfl <;> rcases List.mem_pair.mp hm' with rfl | rfl
      · rfl
      · simp [Model.table, outboxMessageModel, paymentModel] at heq
      · simp [Model.table, outboxMessageModel, paymentModel] at heq
      · rfl
  · rintro rfl
    exact ⟨List.mem_append_right _ (List.mem_map_of_mem hm), rfl⟩

/-- So are its indexes. -/
theorem mem_indexes_head (hothers : others.Vacant) (hm : m ∈ metadata)
    {index : IndexSchema} :
    index ∈ (others.beside Stage.head.catalogue).indexes ∧ index.table = m.tablename ↔
      index ∈ m.indexes := by
  constructor
  · rintro ⟨hindex, heq⟩
    rcases List.mem_append.mp hindex with hother | hmine
    · exact absurd heq (hothers.indexed_ne (tablename_mem hm) index hother)
    · obtain ⟨m', hm', hindex⟩ := List.mem_flatMap.mp hmine
      rcases List.mem_pair.mp hm with rfl | rfl <;> rcases List.mem_pair.mp hm' with rfl | rfl
      · exact hindex
      · obtain rfl := List.mem_singleton.mp hindex
        simp [outboxMessageModel] at heq
      · obtain rfl := List.mem_singleton.mp hindex
        simp [paymentModel] at heq
      · exact hindex
  · intro hindex
    refine ⟨List.mem_append_right _ (List.mem_flatMap.mpr ⟨m, hm, hindex⟩), ?_⟩
    rcases List.mem_pair.mp hm with rfl | rfl <;> obtain rfl := List.mem_singleton.mp hindex <;> rfl

/-- The table of a name takes what the model's table takes. -/
theorem exists_table_head (hothers : others.Vacant) (hm : m ∈ metadata)
    (takes : TableSchema → Prop) :
    (∃ table ∈ (others.beside Stage.head.catalogue).tables,
      table.name = m.tablename ∧ takes table) ↔ takes m.table := by
  constructor
  · rintro ⟨table, htable, hname, htakes⟩
    rwa [← (mem_tables_head hothers hm).mp ⟨htable, hname⟩]
  · intro htakes
    obtain ⟨htable, hname⟩ := (mem_tables_head hothers hm).mpr rfl
    exact ⟨_, htable, hname, htakes⟩

end Head

/-- The database inserts a row into a table. -/
def Catalogue.Inserts (c : Catalogue) (name : String) (assigned : Assignments) : Prop :=
  ∃ table ∈ c.tables, table.name = name ∧ table.Inserts assigned

/-- The database changes a row of a table. -/
def Catalogue.Updates (c : Catalogue) (name : String) (assigned : Assignments) : Prop :=
  ∃ table ∈ c.tables, table.name = name ∧ table.Updates assigned

/-! ## Violated keys -/

/-- The error about a row whose key exists already. -/
def Violates (e : IntegrityError) (key : String) : Prop :=
  e.sqlstate = some uniqueViolation ∧ e.constraintName = some (Str.ofString key)

/-- A word with a character that the text does not have is not in it. -/
theorem contains_eq_false {text word : String} {c : Char} (hc : c ∈ word.toList)
    (hnot : c ∉ text.toList) : contains (Str.ofString text) (Str.ofString word) = false := by
  refine decide_eq_false fun hinfix => hnot ?_
  have hmem : CodePoint.ofChar c ∈ Str.ofString text := hinfix.subset (List.mem_map_of_mem hc)
  obtain ⟨c', hc', heq⟩ := List.mem_map.mp hmem
  rwa [← CodePoint.ofChar_injective heq]

theorem Violates.eq_contains {e : IntegrityError} {key : String} (h : Violates e key) :
    isIdempotencyKeyViolation e =
      contains (Str.ofString key) (Str.ofString "idempotency_key") := by
  obtain ⟨hstate, hname⟩ := h
  unfold isIdempotencyKeyViolation
  rw [hstate, hname]
  rfl

/-- **Which violated keys are taken for a repeated `idempotency_key`**: the one of that column. -/
theorem isIdempotencyKeyViolation_iff {m : Model} (hm : m ∈ metadata) {c : Constraint}
    (hc : c ∈ m.table.constraints) {key : String} (hkey : c.index = some key) {e : IntegrityError}
    (he : Violates e key) :
    isIdempotencyKeyViolation e ↔ c = .unique key ["idempotency_key"] := by
  rw [he.eq_contains]
  rcases List.mem_pair.mp hm with rfl | rfl
  · have hconstraints : outboxMessageModel.table.constraints =
        [.primaryKey "pk_outbox_messages" ["id"]] := rfl
    rw [hconstraints] at hc
    obtain rfl := List.mem_singleton.mp hc
    cases hkey
    rw [contains_eq_false (c := 'y') (by simp) (by simp)]
    simp
  · have hconstraints : paymentModel.table.constraints =
        [.check "ck_payments_amount_positive" (.positive "amount"),
          .primaryKey "pk_payments" ["id"],
          .unique "uq_payments_idempotency_key" ["idempotency_key"]] := rfl
    rw [hconstraints] at hc
    simp only [List.mem_cons, List.not_mem_nil, or_false] at hc
    rcases hc with rfl | rfl | rfl
    · cases hkey
    · cases hkey
      rw [contains_eq_false (c := 'i') (by simp) (by simp)]
      simp
    · cases hkey
      have hinfix : Str.ofString "idempotency_key" <:+:
          Str.ofString "uq_payments_idempotency_key" := ⟨Str.ofString "uq_payments_", [], rfl⟩
      simp [contains, hinfix]

/-! ## After an upgrade -/

/-- **The services find the tables they are written for.** Once an upgrade has returned, whatever
other upgrades do, the tables and indexes of the models are there as `db/models.py` declares them,
and no others under their names; the database takes the rows that the model of the store takes; and
an insertion that violates a key is taken for a repeated `idempotency_key` just if it is one. -/
theorem migrated_schema {A : Alembic} (hA : A.Documented) {others : Catalogue}
    (hothers : others.Vacant) {s : (migrations A others (· = .upgrade)).State}
    (h : (migrations A others (· = .upgrade)).Reachable s) {t : ℕ}
    (ht : s.threads t = .running .upgrade (.ret (.ok ()))) {c : Catalogue}
    (hc : A.catalogue s.world.committed = c) :
    (∀ m ∈ metadata,
      (∀ table, table ∈ c.tables ∧ table.name = m.tablename ↔ table = m.table) ∧
      ∀ index, index ∈ c.indexes ∧ index.table = m.tablename ↔ index ∈ m.indexes) ∧
    (∀ p : NewPayment, p.Fits ↔ c.Inserts "payments" p.assignments) ∧
    (∀ m : NewOutboxMessage, m.Fits ↔ c.Inserts "outbox_messages" m.assignments) ∧
    (∀ p : Payment, p.Fits ↔ c.Updates "payments" p.assignments) ∧
    (∀ m : OutboxMessage, m.Fits ↔ c.Updates "outbox_messages" m.assignments) ∧
    ∀ table ∈ c.tables, table.name ∈ metadata.map Model.tablename →
      ∀ constraint ∈ table.constraints, ∀ key ∈ constraint.index, ∀ e, Violates e key →
        (isIdempotencyKeyViolation e ↔ constraint = .unique key ["idempotency_key"]) := by
  have := hA.errors
  obtain ⟨-, -, hsince⟩ := (sound hA hothers).reachable (fun _ hσ => hσ) h
  have hcommitted : A.catalogue s.world.committed = others.beside Stage.head.catalogue :=
    hsince t .upgrade () ht fun _ hk => hk
  have hpayment : paymentModel ∈ metadata := by simp [metadata]
  have hevent : outboxMessageModel ∈ metadata := by simp [metadata]
  rw [← hc, hcommitted]
  refine ⟨fun m hm => ⟨fun _ => mem_tables_head hothers hm, fun _ => mem_indexes_head hothers hm⟩,
    fun p => ?_, fun m => ?_, fun p => ?_, fun m => ?_,
    fun table htable hname constraint hconstraint key hkey e he => ?_⟩
  · exact p.fits_iff.trans (exists_table_head hothers hpayment (·.Inserts p.assignments)).symm
  · exact m.fits_iff.trans (exists_table_head hothers hevent (·.Inserts m.assignments)).symm
  · exact p.fits_iff.trans (exists_table_head hothers hpayment (·.Updates p.assignments)).symm
  · exact m.fits_iff.trans (exists_table_head hothers hevent (·.Updates m.assignments)).symm
  · obtain ⟨m, hm, heq⟩ := List.mem_map.mp hname
    obtain rfl := (mem_tables_head hothers hm).mp ⟨htable, heq.symm⟩
    exact isIdempotencyKeyViolation_iff hm hconstraint hkey he

/-- After an upgrade of the ledger, the payments are there, and the database takes those that fit. -/
theorem migrated_schema_ledger :
    ∃ s, (migrations .plain ledger (· = .upgrade)).Reachable s ∧
      s.threads 0 = .running .upgrade (.ret (.ok ())) ∧
      paymentModel.table ∈ s.world.committed.tables ∧
      ∀ p : NewPayment, p.Fits ↔ s.world.committed.Inserts "payments" p.assignments := by
  obtain ⟨s, h, ht⟩ := exists_upgraded vacant_ledger
  obtain ⟨htables, hinserts, -⟩ := migrated_schema Alembic.documented_plain vacant_ledger h ht rfl
  have hpayment : paymentModel ∈ metadata := by simp [metadata]
  exact ⟨s, h, ht, (((htables _ hpayment).1 _).mpr rfl).1, hinserts⟩

end Db

end Payments
