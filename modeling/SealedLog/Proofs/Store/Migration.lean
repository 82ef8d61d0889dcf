import SealedLog.Proofs.Store.Number
import SealedLog.Proofs.Store.Steady

/-!
# Migrations

What a migration comes to is a matter of the greatest recorded version and of whether there are
tables already. The table of versions may be made before the rest fails; all else is done as a whole
or not at all.

* `Database.IsLatest`: the greatest recorded version;
* `Database.Migration`, `Database.migration`: the cases of a migration;
* `Database.Step`, `Database.run`: what happens to a database, step by step;
* `Database.IsFurnished.run`: there are tables wherever a version may be recorded;
* `Database.migration_outcome`: what a migration answers and leaves, wherever steps led before;
* `Connection.Carries.run`, `Connection.createSchema_run`: the same steps through a connection.
-/

namespace SealedLog

namespace Database

variable {d : Database} {m : Int}

/-! ### Versions -/

/-- The recorded versions. -/
def versionRows (d : Database) : List Int64 := d.versions.getD []

/-- The number is the greatest recorded version, or zero if none is recorded. -/
def IsLatest (d : Database) (m : Int) : Prop :=
  d.versionRows = [] ∧ m = 0 ∨
    (∃ v ∈ d.versionRows, v.toInt = m) ∧ ∀ v ∈ d.versionRows, v.toInt ≤ m

theorem isLatest_maxId (d : Database) : d.IsLatest (Query.maxId d.versionRows).toInt := by
  by_cases none : d.versionRows = []
  · refine .inl ⟨none, ?_⟩
    rw [none]
    rfl
  · exact .inr ⟨⟨_, maxId_mem none, rfl⟩, fun v mem => Int64.le_iff_toInt_le.1 (le_maxId mem)⟩

namespace IsLatest

theorem unique {m' : Int} (latest : d.IsLatest m) (latest' : d.IsLatest m') : m = m' := by
  rcases latest with ⟨none, rfl⟩ | ⟨⟨v, mem, rfl⟩, least⟩ <;>
    rcases latest' with ⟨none', rfl⟩ | ⟨⟨v', mem', rfl⟩, least'⟩
  · rfl
  · rw [none] at mem'
    cases mem'
  · rw [none'] at mem
    cases mem
  · exact Int.le_antisymm (least' v mem) (least v' mem')

/-- Where another version than zero is the greatest, there is a table of versions. -/
theorem isSome (latest : d.IsLatest m) (ne : m ≠ 0) : d.versions.isSome = true := by
  rcases latest with ⟨-, zero⟩ | ⟨⟨v, mem, -⟩, -⟩
  · exact absurd zero ne
  · unfold versionRows at mem
    cases there : d.versions with
    | none =>
      rw [there] at mem
      cases mem
    | some versions => rfl

/-- A first version is the greatest one. -/
theorem concat {d' : Database} (latest : d.IsLatest 0)
    (grown : d'.versionRows = d.versionRows ++ [schemaVersion]) : d'.IsLatest 1 := by
  have least : ∀ v ∈ d.versionRows, v.toInt ≤ 0 := by
    rcases latest with ⟨none, -⟩ | ⟨-, least⟩
    · rw [none]
      exact fun v mem => nomatch mem
    · exact least
  refine .inr ⟨⟨schemaVersion, by simp [grown], rfl⟩, fun v mem => ?_⟩
  rw [grown] at mem
  rcases List.mem_append.1 mem with old | new
  · exact Int.le_trans (least v old) (by decide)
  · rw [List.mem_singleton.1 new]
    decide

end IsLatest

theorem withVersions_of_isSome (there : d.versions.isSome = true) : d.withVersions = d := by
  rcases d with ⟨versions, tables, unrelated⟩
  cases versions with
  | none => cases there
  | some versions => rfl

theorem fits_iff (v : Int64) : (0 ≤ v ∧ v < 4294967296) ↔ 0 ≤ v.toInt ∧ v.toInt < 4294967296 := by
  rw [Int64.le_iff_toInt_le, Int64.lt_iff_toInt_lt]
  rfl

theorem version_withVersions (d : Database) : d.withVersions.version =
    if 0 ≤ Query.maxId d.versionRows ∧ Query.maxId d.versionRows < 4294967296 then
      .ok (Query.maxId d.versionRows)
    else .error (.database (.versionRange (Query.maxId d.versionRows))) := rfl

theorem IsLatest.version (latest : d.IsLatest 1) : d.version = .ok 1 := by
  have greatest : Query.maxId d.versionRows = 1 :=
    Int64.toInt_inj.1 (d.isLatest_maxId.unique latest)
  have version := d.version_withVersions
  rw [withVersions_of_isSome (latest.isSome (by decide)), greatest] at version
  exact version

/-- What is said of a newer version than the supported one. -/
def newerMessage (m : Int) : String :=
  "database schema version " ++ toString m ++ " is newer than supported version " ++
    toString schemaVersion.toInt

theorem needsTables_of_version {v : Int64} (version : d.version = .ok v) : d.needsTables =
    if schemaVersion < v then .error (.migration (newerMessage v.toInt))
    else .ok (decide (v < schemaVersion)) := by
  rw [needsTables, version]
  by_cases newer : schemaVersion < v <;> simp only [bind, Except.bind, newer] <;> rfl

theorem needsTables_of_error {e : StoreError} (version : d.version = .error e) :
    d.needsTables = .error e := by
  rw [needsTables, version]
  rfl

/-! ### The cases of a migration -/

/-- The database with tables that are new, and the version recorded. -/
def furnish (d : Database) : Database :=
  { d with tables := some {}, versions := some (d.versionRows ++ [schemaVersion]) }

theorem createTables_of_vacant (vacant : d.tables = none) :
    d.withVersions.createTables = .ok d.furnish := by
  simp only [createTables, withVersions, vacant]
  rfl

theorem createTables_of_isSome (there : d.tables.isSome = true) :
    d.withVersions.createTables = .error (.database .statement) := by
  obtain ⟨t, there⟩ := Option.isSome_iff_exists.1 there
  simp only [createTables, withVersions, there]

/-- What a migration answers and leaves, by the greatest recorded version. -/
inductive Migration (d : Database) (m : Int) : Database × Except StoreError Unit → Prop
  /-- The version does not fit 32 bits. -/
  | outOfRange {version : Int64} (said : version.toInt = m) (outside : m < 0 ∨ 4294967296 ≤ m) :
      Migration d m (d.withVersions, .error (.database (.versionRange version)))
  | newer (above : 2 ≤ m) (fits : m < 4294967296) :
      Migration d m (d.withVersions, .error (.migration (newerMessage m)))
  /-- The schema is the supported one. -/
  | current (one : m = 1) : Migration d m (d.withVersions, .ok ())
  /-- No version is recorded, but there are tables. -/
  | occupied (zero : m = 0) (there : d.tables.isSome = true) :
      Migration d m (d.withVersions, .error (.database .statement))
  | created (zero : m = 0) (vacant : d.tables = none) : Migration d m (d.furnish, .ok ())

/-- **A migration is one of these cases.** -/
theorem migration (d : Database) : d.Migration (Query.maxId d.versionRows).toInt d.migrate := by
  have version := d.version_withVersions
  generalize Query.maxId d.versionRows = greatest at version ⊢
  unfold migrate
  dsimp only
  by_cases fits : 0 ≤ greatest ∧ greatest < 4294967296
  · rw [needsTables_of_version (version.trans (if_pos fits))]
    obtain ⟨low, high⟩ := (fits_iff greatest).1 fits
    by_cases newer : schemaVersion < greatest
    · rw [if_pos newer]
      exact .newer (Int64.lt_iff_toInt_lt.1 newer) high
    · rw [if_neg newer]
      by_cases older : greatest < schemaVersion
      · have zero : greatest.toInt = 0 :=
          Int.le_antisymm (Int.lt_add_one_iff.1 (Int64.lt_iff_toInt_lt.1 older)) low
        rw [decide_eq_true older]
        cases tables : d.tables with
        | none =>
          rw [createTables_of_vacant tables]
          exact .created zero tables
        | some t =>
          have there : d.tables.isSome = true := by rw [tables]; rfl
          rw [createTables_of_isSome there]
          exact .occupied zero there
      · have same := Int64.le_antisymm (Int64.not_lt.1 newer) (Int64.not_lt.1 older)
        rw [decide_eq_false older]
        exact .current (by rw [same]; rfl)
  · rw [needsTables_of_error (version.trans (if_neg fits))]
    rw [fits_iff] at fits
    exact .outOfRange rfl (by omega)

/-- There are tables wherever a version may be recorded. -/
def IsFurnished (d : Database) : Prop := d.versions.isSome = true → d.tables.isSome = true

theorem isFurnished_empty : IsFurnished {} := nofun

namespace Migration

variable {left : Database × Except StoreError Unit}

theorem ok_iff (migration : d.Migration m left) :
    left.2 = .ok () ↔ m = 1 ∨ m = 0 ∧ d.tables = none := by
  cases migration with
  | outOfRange said outside => exact iff_of_false nofun (by omega)
  | newer above fits => exact iff_of_false nofun (by omega)
  | current one => exact iff_of_true rfl (.inl one)
  | occupied zero there =>
    refine iff_of_false nofun ?_
    rintro (one | ⟨-, vacant⟩)
    · omega
    · rw [vacant] at there
      cases there
  | created zero vacant => exact iff_of_true rfl (.inr ⟨zero, vacant⟩)

theorem migration_iff (migration : d.Migration m left) :
    (∃ what, left.2 = .error (.migration what)) ↔ 2 ≤ m ∧ m < 4294967296 := by
  cases migration with
  | outOfRange said outside => exact iff_of_false nofun (by omega)
  | newer above fits => exact iff_of_true ⟨_, rfl⟩ ⟨above, fits⟩
  | current one => exact iff_of_false nofun (by omega)
  | occupied zero there => exact iff_of_false nofun (by omega)
  | created zero vacant => exact iff_of_false nofun (by omega)

theorem database_iff (migration : d.Migration m left) :
    (∃ fault, left.2 = .error (.database fault)) ↔
      m < 0 ∨ 4294967296 ≤ m ∨ m = 0 ∧ d.tables.isSome = true := by
  cases migration with
  | outOfRange said outside => exact iff_of_true ⟨_, rfl⟩ (by omega)
  | newer above fits => exact iff_of_false nofun (by omega)
  | current one => exact iff_of_false nofun (by omega)
  | occupied zero there => exact iff_of_true ⟨_, rfl⟩ (.inr (.inr ⟨zero, there⟩))
  | created zero vacant =>
    refine iff_of_false nofun ?_
    rw [vacant]
    rintro (below | above | ⟨-, there⟩)
    · omega
    · omega
    · cases there

/-- All that may be left of a failure is a table of versions. -/
theorem eq_of_error (migration : d.Migration m left) {e : StoreError} (failed : left.2 = .error e) :
    left.1 = d.withVersions := by
  cases migration with
  | outOfRange said outside => rfl
  | newer above fits => rfl
  | current one => cases failed
  | occupied zero there => rfl
  | created zero vacant => cases failed

/-- With the supported version nothing changes. -/
theorem eq_of_one (migration : d.Migration m left) (latest : d.IsLatest m) (one : m = 1) :
    left = (d, .ok ()) := by
  have same := withVersions_of_isSome (latest.isSome (by omega))
  cases migration with
  | outOfRange said outside => omega
  | newer above fits => omega
  | current => rw [same]
  | occupied zero there => omega
  | created zero vacant => omega

/-- A migration that succeeds leaves the supported version. -/
theorem isLatest_of_ok (migration : d.Migration m left) (latest : d.IsLatest m)
    (done : left.2 = .ok ()) : left.1.IsLatest 1 := by
  cases migration with
  | outOfRange said outside => cases done
  | newer above fits => cases done
  | current one => exact one ▸ latest
  | occupied zero there => cases done
  | created zero vacant =>
    rw [zero] at latest
    exact latest.concat rfl

theorem isFurnished (migration : d.Migration m left) (latest : d.IsLatest m)
    (furnished : d.IsFurnished) : left.1.IsFurnished := by
  have keeps (ne : m ≠ 0) : d.withVersions.IsFurnished := by
    rwa [withVersions_of_isSome (latest.isSome ne)]
  cases migration with
  | outOfRange said outside => exact keeps (by omega)
  | newer above fits => exact keeps (by omega)
  | current one => exact keeps (by omega)
  | occupied zero there => exact fun _ => there
  | created zero vacant => exact fun _ => rfl

end Migration

theorem IsLatest.migrate (latest : d.IsLatest 1) : d.migrate = (d, .ok ()) :=
  d.migration.eq_of_one d.isLatest_maxId (d.isLatest_maxId.unique latest)

/-- **Another migration answers the same and changes nothing.** -/
theorem migrate_again (d : Database) : d.migrate.1.migrate = d.migrate := by
  cases answer : d.migrate.2 with
  | ok =>
    rw [(d.migration.isLatest_of_ok d.isLatest_maxId answer).migrate, ← answer]
  | error e =>
    rw [d.migration.eq_of_error answer]
    rfl

/-! ### Steps -/

/-- What happens to a database: it is migrated, or others make a change. -/
inductive Step
  | migrate
  | edit (change : Edit)

/-- The database after a step. A change that is refused leaves it as it is. -/
def after (d : Database) : Step → Database
  | .migrate => d.migrate.1
  | .edit change => ((d.edit change).map Prod.fst).getD d

/-- The database after steps. -/
def run (d : Database) (steps : List Step) : Database := steps.foldl after d

/-- Others neither create the tables of the schema nor drop them. -/
theorem edit_isSome {change : Edit} {d' : Database} {rows : Nat}
    (made : d.edit change = some (d', rows)) :
    d'.versions.isSome = d.versions.isSome ∧ d'.tables.isSome = d.tables.isSome := by
  cases change with
  | addTable =>
    simp only [edit] at made
    split_ifs at made
    cases made
    exact ⟨rfl, rfl⟩
  | addVersion version =>
    cases there : d.versions with
    | none => simp [edit, there] at made
    | some versions =>
      simp only [edit, there] at made
      split_ifs at made
      cases made
      exact ⟨rfl, rfl⟩
  | removeVersion version =>
    cases there : d.versions with
    | none => simp [edit, there] at made
    | some versions =>
      simp only [edit, there] at made
      cases made
      exact ⟨rfl, rfl⟩
  | removeRecord id =>
    cases there : d.tables with
    | none => simp [edit, there] at made
    | some t =>
      simp only [edit, there] at made
      cases made
      exact ⟨rfl, rfl⟩
  | set id setting =>
    cases there : d.tables with
    | none => simp [edit, there] at made
    | some t =>
      simp only [edit, there] at made
      split at made
      · cases made
      · cases made
        exact ⟨rfl, rfl⟩

namespace IsFurnished

theorem migrate (furnished : d.IsFurnished) : d.migrate.1.IsFurnished :=
  d.migration.isFurnished d.isLatest_maxId furnished

theorem after (furnished : d.IsFurnished) (step : Step) : (d.after step).IsFurnished := by
  cases step with
  | migrate => exact furnished.migrate
  | edit change =>
    cases made : d.edit change with
    | none => simpa [Database.after, made] using furnished
    | some left =>
      obtain ⟨versions, tables⟩ := edit_isSome made
      simp only [Database.after, made, IsFurnished, Option.map_some, Option.getD_some]
      rw [versions, tables]
      exact furnished

theorem run (furnished : d.IsFurnished) (steps : List Step) : (d.run steps).IsFurnished := by
  induction steps generalizing d with
  | nil => exact furnished
  | cons step steps ih => exact ih (furnished.after step)

end IsFurnished

theorem mem_tableNames_streams : "streams" ∈ d.tableNames ↔ d.tables.isSome = true := by
  cases h : d.tables.isSome <;> simp [tableNames, h]

theorem mem_tableNames_records : "records" ∈ d.tableNames ↔ d.tables.isSome = true := by
  cases h : d.tables.isSome <;> simp [tableNames, h]

/-- The table of versions may be made; all else is as it was. -/
theorem withVersions_eq_or (d : Database) : d.withVersions = d ∨
    d.versions = none ∧ d.withVersions = { d with versions := some [] } := by
  cases there : d.versions with
  | none => exact .inr ⟨rfl, by rw [withVersions, there]; rfl⟩
  | some versions => exact .inl (withVersions_of_isSome (by rw [there]; rfl))

/-- **What a migration comes to**, whatever happened since the database was empty: it succeeds with
the supported version, or with none where no tables are in its way. After that the version is the
supported one, and the tables are there; a migration of such a database changes nothing. A newer
version is an error of its own kind. What fails leaves the rows of all tables as they were. -/
theorem migration_outcome (steps : List Step) :
    let d := run {} steps
    ∃ m, d.IsLatest m ∧
      (d.migrate.2 = .ok () ↔ m = 1 ∨ m = 0 ∧ "streams" ∉ d.tableNames) ∧
      ((∃ what, d.migrate.2 = .error (.migration what)) ↔ 2 ≤ m ∧ m < 4294967296) ∧
      ((∃ fault, d.migrate.2 = .error (.database fault)) ↔
        m < 0 ∨ 4294967296 ≤ m ∨ m = 0 ∧ "streams" ∈ d.tableNames) ∧
      (d.migrate.2 = .ok () → d.migrate.1.version = .ok 1 ∧
        "streams" ∈ d.migrate.1.tableNames ∧ "records" ∈ d.migrate.1.tableNames) ∧
      (m = 1 → d.migrate = (d, .ok ())) ∧
      d.migrate.1.migrate = d.migrate ∧
      ∀ e, d.migrate.2 = .error e →
        d.migrate.1 = d ∨ d.versions = none ∧ d.migrate.1 = { d with versions := some [] } := by
  intro d
  have furnished : d.IsFurnished := isFurnished_empty.run steps
  have latest := d.isLatest_maxId
  have migration := d.migration
  refine ⟨_, latest, ?_, migration.migration_iff, ?_, fun done => ?_, migration.eq_of_one latest,
    d.migrate_again, fun e failed => ?_⟩
  · rw [migration.ok_iff, mem_tableNames_streams, Bool.not_eq_true, Option.isSome_eq_false_iff,
      Option.isNone_iff_eq_none]
  · rw [migration.database_iff, mem_tableNames_streams]
  · have latest' := migration.isLatest_of_ok latest done
    have there := furnished.migrate (latest'.isSome (by decide))
    exact ⟨latest'.version, mem_tableNames_streams.2 there, mem_tableNames_records.2 there⟩
  · rw [migration.eq_of_error failed]
    exact d.withVersions_eq_or

end Database

/-! ### The same through a connection -/

namespace Connection

variable {c : Connection} {d : Database}

/-- The connection can be written to, nothing is in its way, and this is its database, which may not
have been written yet. -/
structure Carries (c : Connection) (d : Database) : Prop where
  writable : c.mode = .readWrite
  unhindered : c.Unhindered
  content : c.content.database? = .ok d

theorem carries_inMemory : inMemory.Carries {} := ⟨rfl, ⟨rfl, rfl, rfl, rfl⟩, rfl⟩

namespace Carries

theorem read (carries : c.Carries d) : c.read = .ok d :=
  carries.unhindered.read.trans carries.content

theorem visit (carries : c.Carries d) : c.visit.Carries d := by
  rw [visit_of_read carries.read, carries.unhindered.settle]
  obtain ⟨journal, log, direct, place⟩ := carries.unhindered
  exact ⟨carries.writable, ⟨journal, log, direct, place⟩, carries.content⟩

theorem write (carries : c.Carries d) (d' : Database) :
    ∃ c', c.write d' = .ok c' ∧ c'.Carries d' := by
  obtain ⟨-, log, direct, place⟩ := carries.unhindered
  refine ⟨_, if_pos carries.unhindered.canWrite, carries.writable, ⟨?_, log, direct, place⟩, rfl⟩
  simp [direct]

/-- Which row number was given out last is of no concern. -/
theorem noted (carries : c.Carries d) (id : Int64) : { c with lastId := id }.Carries d := by
  obtain ⟨journal, log, direct, place⟩ := carries.unhindered
  exact ⟨carries.writable, ⟨journal, log, direct, place⟩, carries.content⟩

theorem ensureVersions (carries : c.Carries d) :
    ∃ c', c.ensureVersions d = .ok (c', d.withVersions) ∧ c'.Carries d.withVersions := by
  unfold Connection.ensureVersions
  by_cases there : d.versions.isSome = true
  · rw [if_pos there, Database.withVersions_of_isSome there]
    exact ⟨c, rfl, carries⟩
  · obtain ⟨c', written, carries'⟩ := carries.write d.withVersions
    rw [if_neg there, written]
    exact ⟨c', rfl, carries'⟩

/-- **A connection is migrated as its database is.** -/
theorem createSchema (carries : c.Carries d) :
    c.createSchema.2 = d.migrate.2 ∧ c.createSchema.1.Carries d.migrate.1 := by
  obtain ⟨c', ensured, carries'⟩ := carries.visit.ensureVersions
  have writable : c.requireWritable = .ok () := by
    rw [requireWritable, carries.writable]
    rfl
  unfold Connection.createSchema Database.migrate
  rw [writable, carries.read]
  simp only [Except.bind, ensured]
  unfold ensureTables
  cases needs : d.withVersions.needsTables with
  | error e => exact ⟨rfl, carries'⟩
  | ok needed =>
    cases needed with
    | false => exact ⟨rfl, carries'⟩
    | true =>
      cases made : d.withVersions.createTables with
      | error e => exact ⟨rfl, carries'⟩
      | ok migrated =>
        obtain ⟨c'', written, carries''⟩ := carries'.write migrated
        simp only [bind, Except.bind, written]
        exact ⟨rfl, carries''.noted _⟩

/-- Others change the database through a connection as they change the database. -/
theorem edit (carries : c.Carries d) (change : Database.Edit) :
    (c.edit change).2 = (d.edit change).map Prod.snd ∧
      (c.edit change).1.Carries (d.after (.edit change)) := by
  unfold Connection.edit Database.after
  rw [carries.read]
  dsimp only
  cases made : d.edit change with
  | none => exact ⟨rfl, carries.visit⟩
  | some left =>
    obtain ⟨changed, rows⟩ := left
    dsimp only
    by_cases same : changed = d
    · rw [if_pos same]
      exact ⟨rfl, same ▸ carries.visit⟩
    · obtain ⟨c', written, carries'⟩ := carries.visit.write changed
      rw [if_neg same, written]
      exact ⟨rfl, carries'⟩

end Carries

/-- The connection after a step. -/
def after (c : Connection) : Database.Step → Connection
  | .migrate => c.createSchema.1
  | .edit change => (c.edit change).1

/-- The connection after steps. -/
def run (c : Connection) (steps : List Database.Step) : Connection := steps.foldl after c

theorem Carries.run (carries : c.Carries d) (steps : List Database.Step) :
    (c.run steps).Carries (d.run steps) := by
  induction steps generalizing c d with
  | nil => exact carries
  | cons step steps ih =>
    refine ih ?_
    cases step with
    | migrate => exact carries.createSchema.2
    | edit change => exact (carries.edit change).2

/-- **A database in memory is migrated as its tables say**, wherever steps led before. -/
theorem createSchema_run (steps : List Database.Step) :
    (inMemory.run steps).createSchema.2 = (Database.run {} steps).migrate.2 ∧
      (inMemory.run steps).createSchema.1.Carries (Database.run {} steps).migrate.1 :=
  (carries_inMemory.run steps).createSchema

end Connection

end SealedLog
