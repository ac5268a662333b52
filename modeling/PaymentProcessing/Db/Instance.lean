import PaymentProcessing.Db.Migrations

/-!
# A database that can be migrated

A database that consists of its catalogue, with just the statements that migrations need, and the
operations of an `Alembic` on it (`Alembic.plain`). They do what is documented
(`Alembic.documented_plain`).
-/

namespace Payments

namespace Db

open Effects Python

/-- The statements. -/
inductive Stmt
  | createType (name : String) (labels : List Str)
  | createTable (table : TableSchema)
  | createIndex (index : IndexSchema)
  | dropIndex (name : String)
  | dropTable (name : String)
  | hasType (name : String)
  | dropType (name : String)
  /-- The rows of `alembic_version`, which is made if there is no such table. -/
  | versions
  | setVersions (revisions : List String)

namespace Stmt

/-- The answer to a statement. -/
def Ans : Stmt → Type
  | .hasType _ => Bool
  | .versions => List String
  | _ => Unit

/-- What comes of a statement; `none` if it is refused. -/
def apply : (q : Stmt) → Catalogue → Option (Ans q × Catalogue)
  | .createType name labels, c =>
    if name ∈ c.typeNames then none else some ((), { c with types := c.types ++ [(name, labels)] })
  | .createTable table, c =>
    if (∀ name ∈ table.name :: table.keys, name ∉ c.relationNames) ∧
        (table.name :: table.keys).Nodup ∧ table.name ∉ c.typeNames ∧
        ∀ enum ∈ table.enums, enum ∈ c.types then
      some ((), { c with tables := c.tables ++ [table] })
    else none
  | .createIndex index, c =>
    if index.name ∉ c.relationNames ∧ ∃ table ∈ c.tables, table.name = index.table ∧
        ∀ column ∈ index.columns, column ∈ table.columns.map Column.name then
      some ((), c.addIndex index)
    else none
  | .dropIndex name, c =>
    if ∃ index ∈ c.indexes, index.name = name then some ((), c.dropIndex name) else none
  | .dropTable name, c =>
    if ∃ table ∈ c.tables, table.name = name then some ((), c.dropTable name) else none
  | .hasType name, c => some (decide (name ∈ c.types.map Prod.fst), c)
  | .dropType name, c =>
    if name ∈ c.types.map Prod.fst ∧ ∀ table ∈ c.tables, ∀ enum ∈ table.enums, enum.1 ≠ name then
      some ((), c.dropType name)
    else none
  | .versions, c =>
    match c.versions with
    | some revisions => some (revisions, c)
    | none =>
      if "alembic_version" ∈ c.relationNames ∨ "alembic_version_pkc" ∈ c.relationNames ∨
          "alembic_version" ∈ c.typeNames then none
      else some ([], { c with versions := some [] })
  | .setVersions revisions, c =>
    if c.versions.isSome then some ((), { c with versions := some revisions }) else none

end Stmt

/-- The database. -/
abbrev Catalogue.database : Database := ⟨Stmt, Stmt.Ans, Catalogue, Exn, Stmt.apply⟩

namespace Plain

/-- The rows of `alembic_version` become `revisions`. -/
def setVersions (revisions : List String) : Catalogue.database.Body Unit :=
  Catalogue.database.query (.setVersions revisions)

/-- `op.create_table`: the enumerations of the columns are made first. -/
def createTable (table : TableSchema) : Catalogue.database.Body Unit := do
  table.enums.forM fun enum => Catalogue.database.query (.createType enum.1 enum.2)
  Catalogue.database.query (.createTable table)

/-- `sa.Enum(name=name).drop(op.get_bind(), checkfirst=True)`. -/
def dropEnum (name : String) : Catalogue.database.Body Unit := do
  let has : Bool ← Catalogue.database.query (.hasType name)
  if has then Catalogue.database.query (.dropType name)

/-- Where the recorded revisions are `revisions`. -/
def migrate (r : Revision Catalogue.database) (revisions : List String) :
    Command → Catalogue.database.Body Unit
  | .upgrade => do
    unless r.revision ∈ revisions do
      r.upgrade
      setVersions [r.revision]
  | .downgrade => do
    if r.revision ∈ revisions then
      r.downgrade
      setVersions []

/-- `context.run_migrations`. -/
def runMigrations (r : Revision Catalogue.database) (command : Command) :
    Catalogue.database.Body Unit := do
  let revisions : List String ← Catalogue.database.query .versions
  migrate r revisions command

end Plain

/-- Alembic on it. -/
def Alembic.plain : Alembic where
  database := Catalogue.database
  catalogue := id
  createTable := Plain.createTable
  createIndex index := Catalogue.database.query (.createIndex index)
  dropIndex name _ _ := Catalogue.database.query (.dropIndex name)
  dropTable name := Catalogue.database.query (.dropTable name)
  dropEnum := Plain.dropEnum
  runMigrations := Plain.runMigrations

namespace Plain

open Database

theorem strict_createTable (table : TableSchema) : Strict (createTable table).run :=
  .bind (.forM fun _ _ => .query _) fun _ => .query _

theorem strict_dropEnum (name : String) : Strict (dropEnum name).run := by
  refine .bind (.query _) fun has => ?_
  cases has with
  | false => exact .pure ()
  | true => exact .query _

theorem strict_runMigrations (r : Revision Catalogue.database) (command : Command)
    (hup : Strict r.upgrade.run) (hdown : Strict r.downgrade.run) :
    Strict (runMigrations r command).run := by
  refine .bind (.query _) fun revisions => ?_
  cases command with
  | upgrade =>
    simp only [migrate]
    split
    · exact .pure ()
    · exact .bind hup fun _ => .query _
  | downgrade =>
    simp only [migrate]
    split
    · exact .bind hdown fun _ => .query _
    · exact .pure ()

/-- The enumerations of a table are made. -/
theorem run_createTypes {enums : List (String × List Str)} {c : Catalogue}
    (hnew : ∀ name ∈ enums.map Prod.fst, name ∉ c.typeNames) (hnodup : (enums.map Prod.fst).Nodup) :
    Catalogue.database.run (enums.forM fun enum =>
      Catalogue.database.query (.createType enum.1 enum.2) : Catalogue.database.Body Unit).run c =
      some (.ok (), { c with types := c.types ++ enums }) := by
  induction enums generalizing c with
  | nil =>
    rw [List.append_nil]
    rfl
  | cons enum enums ih =>
    obtain ⟨hhead, htail⟩ := List.forall_mem_cons.mp hnew
    obtain ⟨hnot, hnodup⟩ := List.nodup_cons.mp hnodup
    have hmade : Stmt.apply (.createType enum.1 enum.2) c =
        some ((), { c with types := c.types ++ [enum] }) := if_neg hhead
    have hrest : ∀ name ∈ enums.map Prod.fst,
        name ∉ ({ c with types := c.types ++ [enum] } : Catalogue).typeNames := by
      intro name hname hused
      have hcases : name ∈ c.typeNames ∨ name = enum.1 := by
        simpa [Catalogue.typeNames, Catalogue.tableNames, or_assoc, or_comm, or_left_comm] using hused
      rcases hcases with hused | rfl
      · exact htail name hname hused
      · exact hnot hname
    refine (run_bind (run_query hmade)).trans ((ih hrest hnodup).trans ?_)
    rw [List.append_assoc, List.singleton_append]

theorem createTable_does {c : Catalogue} {table : TableSchema} (h : c.TakesTable table) :
    Alembic.plain.Does (createTable table) c (c.addTable table) := by
  obtain ⟨hname, hnodup⟩ := List.nodup_cons.mp h.nodup_types
  obtain ⟨htype, htypes⟩ := List.forall_mem_cons.mp h.types
  have hmade : Stmt.apply (.createTable table) { c with types := c.types ++ table.enums } =
      some ((), c.addTable table) := by
    refine if_pos ⟨h.relations, h.nodup_relations, fun hused => ?_, fun enum henum =>
      List.mem_append_right _ henum⟩
    have hcases : table.name ∈ c.typeNames ∨ table.name ∈ table.enums.map Prod.fst := by
      simpa [Catalogue.typeNames, Catalogue.tableNames, or_assoc, or_comm, or_left_comm] using hused
    exact hcases.elim htype hname
  exact ⟨_, (run_bind (run_createTypes htypes hnodup)).trans (run_query hmade), rfl⟩

theorem dropEnum_does {c : Catalogue} {name : String}
    (h : ∀ table ∈ c.tables, ∀ enum ∈ table.enums, enum.1 ≠ name) :
    Alembic.plain.Does (dropEnum name) c (c.dropType name) := by
  have hhas : Stmt.apply (.hasType name) c = some (decide (name ∈ c.types.map Prod.fst), c) := rfl
  by_cases hmem : name ∈ c.types.map Prod.fst
  · refine ⟨c.dropType name, (run_bind (run_query hhas)).trans ?_, rfl⟩
    rw [decide_eq_true hmem]
    exact run_query (if_pos ⟨hmem, h⟩)
  · refine ⟨c, (run_bind (run_query hhas)).trans ?_, ?_⟩
    · rw [decide_eq_false hmem]
      rfl
    · have hsame : c.types.filter (fun t => t.1 ≠ name) = c.types := by
        rw [List.filter_eq_self]
        intro t ht
        simpa using fun heq : t.1 = name => hmem (heq ▸ List.mem_map_of_mem ht)
      change c = { c with types := c.types.filter fun t => t.1 ≠ name }
      rw [hsame]

/-- No revision is recorded. -/
theorem apply_versions {c : Catalogue} (hnone : c.versions.getD [] = []) (h : c.TakesVersions) :
    Stmt.apply .versions c = some ([], { c with versions := some [] }) := by
  cases hv : c.versions with
  | none =>
    obtain ⟨hrelation, hkey, htype⟩ := h hv
    have happly : Stmt.apply .versions c = if "alembic_version" ∈ c.relationNames ∨
        "alembic_version_pkc" ∈ c.relationNames ∨ "alembic_version" ∈ c.typeNames then none
        else some ([], { c with versions := some [] }) := by
      simp only [Stmt.apply, hv]
      rfl
    rw [happly, if_neg]
    rintro (hused | hused | hused)
    · exact hrelation hused
    · exact hkey hused
    · exact htype hused
  | some revisions =>
    obtain rfl : revisions = [] := by simpa [hv] using hnone
    have hsame : { c with versions := some [] } = c := by rw [← hv]
    rw [hsame]
    simp only [Stmt.apply, hv]
    rfl

theorem apply_versions_some {c : Catalogue} {revisions : List String}
    (h : c.versions = some revisions) : Stmt.apply .versions c = some (revisions, c) := by
  simp only [Stmt.apply, h]
  rfl

theorem run_setVersions {c : Catalogue} (h : c.versions.isSome) (revisions : List String) :
    Catalogue.database.run (setVersions revisions).run c =
      some (.ok (), { c with versions := some revisions }) :=
  run_query (if_pos h)

section RunMigrations

variable {r : Revision Catalogue.database} {c c' : Catalogue}

theorem upgrade_does (hnone : c.versions.getD [] = []) (htakes : c.TakesVersions)
    (hup : Alembic.plain.Does r.upgrade { c with versions := some [] } c')
    (hversions : c'.versions = some []) :
    Alembic.plain.Does (runMigrations r .upgrade) c { c' with versions := some [r.revision] } := by
  obtain ⟨_, hup, rfl⟩ := hup
  have hnew : r.revision ∉ ([] : List String) := List.not_mem_nil
  have hsome := run_setVersions (Option.isSome_iff_exists.mpr ⟨_, hversions⟩) [r.revision]
  refine ⟨_, (run_bind (run_query (apply_versions hnone htakes))).trans ?_, rfl⟩
  simp only [migrate, if_neg hnew]
  exact (run_bind hup).trans hsome

theorem upgraded_does (h : c.versions = some [r.revision]) :
    Alembic.plain.Does (runMigrations r .upgrade) c c := by
  refine ⟨_, (run_bind (run_query (apply_versions_some h))).trans ?_, rfl⟩
  simp only [migrate, if_pos (List.mem_singleton_self r.revision)]
  rfl

theorem downgrade_does (h : c.versions = some [r.revision])
    (hdown : Alembic.plain.Does r.downgrade c c') (hversions : c'.versions = some [r.revision]) :
    Alembic.plain.Does (runMigrations r .downgrade) c { c' with versions := some [] } := by
  obtain ⟨_, hdown, rfl⟩ := hdown
  have hsome := run_setVersions (Option.isSome_iff_exists.mpr ⟨_, hversions⟩) []
  refine ⟨_, (run_bind (run_query (apply_versions_some h))).trans ?_, rfl⟩
  simp only [migrate, if_pos (List.mem_singleton_self r.revision)]
  exact (run_bind hdown).trans hsome

theorem downgraded_does (hnone : c.versions.getD [] = []) (htakes : c.TakesVersions) :
    Alembic.plain.Does (runMigrations r .downgrade) c { c with versions := some [] } := by
  have hnew : r.revision ∉ ([] : List String) := List.not_mem_nil
  refine ⟨_, (run_bind (run_query (apply_versions hnone htakes))).trans ?_, rfl⟩
  simp only [migrate, if_neg hnew]
  rfl

end RunMigrations

end Plain

/-- **It does what is documented.** -/
theorem Alembic.documented_plain : Alembic.plain.Documented where
  errors := ⟨Exn.invalidOperation⟩
  strict_createTable := Plain.strict_createTable
  strict_createIndex _ := .query _
  strict_dropIndex _ _ _ := .query _
  strict_dropTable _ := .query _
  strict_dropEnum := Plain.strict_dropEnum
  strict_runMigrations := Plain.strict_runMigrations
  createTable h := Plain.createTable_does h
  createIndex h := ⟨_, Database.run_query (if_pos ⟨h.relation, h.columns⟩), rfl⟩
  dropIndex := fun ⟨index, hindex, hname, _⟩ =>
    ⟨_, Database.run_query (if_pos ⟨index, hindex, hname⟩), rfl⟩
  dropTable h := ⟨_, Database.run_query (if_pos h), rfl⟩
  dropEnum _ h := Plain.dropEnum_does h
  upgrade hnone htakes hup hversions := Plain.upgrade_does hnone htakes (hup _ rfl) hversions
  upgraded h := Plain.upgraded_does h
  downgrade h hdown hversions := Plain.downgrade_does h hdown hversions
  downgraded hnone htakes := Plain.downgraded_does hnone htakes

end Db

end Payments
