import Mathlib.Tactic.SplitIfs
import SealedLog.Store.Connection

/-!
# What statements on a database file keep

A connection works on the tables of the database that it sees once it has looked at what stands
beside its file. Every statement looks first, and an insert that fails may also begin a journal;
none of this changes what is seen. A change that is written is what is seen from then on.

* `Connection.tables`: the tables that a connection works on;
* `Connection.IsJoined`: no log is left to take up, so that looking again changes nothing;
* `tables_visit`, `tables_afterFailure`, `tables_prepare`, `tables_createSchema`: what is kept;
* `insert_cases`: an insert keeps the tables or puts what its change makes of them;
* `tables_of_query`: a query reads the tables.
-/

namespace SealedLog

/-- The tables of the database in a file; without a database or tables there are no rows. -/
def Content.tables (content : Content) : Tables :=
  match content.database? with
  | .ok d => d.tables.getD {}
  | .error _ => {}

namespace Connection

/-- The tables that the connection works on. -/
def tables (c : Connection) : Tables := c.settle.content.tables

/-- The connection works on a log, or no log that has octets stands beside its file. -/
def IsJoined (c : Connection) : Prop :=
  c.isLogged = true ∨ ∀ log, c.log = .file log → log.hasOctets = false

/-! ### Journals and logs -/

theorem clearJournal_eq_or (c : Connection) :
    c.clearJournal = c ∨ c.clearJournal = { c with journal := .nothing } := by
  unfold clearJournal
  split_ifs
  · exact .inl rfl
  · split
    · split_ifs
      · exact .inr rfl
      · exact .inl rfl
    · exact .inl rfl

theorem clearJournal_isPrepared (c : Connection) (b : Bool) :
    { c with isPrepared := b }.clearJournal = { c.clearJournal with isPrepared := b } := by
  -- whether the statement is prepared decides nothing here
  rcases c with
    ⟨content, mode, lastId, place, journal, log, isLogged, knows, prepared, n, looked⟩
  unfold clearJournal
  dsimp only
  split_ifs
  · rfl
  · cases journal with
    | file journal => dsimp only; split_ifs <;> rfl
    | nothing => rfl
    | directory => rfl

theorem clearJournal_clearJournal (c : Connection) :
    c.clearJournal.clearJournal = c.clearJournal := by
  rcases c.clearJournal_eq_or with h | h
  · rw [h, h]
  · rw [h]
    unfold clearJournal
    split_ifs <;> rfl

theorem joinLog_of_isJoined {c : Connection} (h : c.IsJoined) : c.joinLog = c := by
  unfold joinLog
  by_cases hl : c.isLogged = true
  · rw [if_pos hl]
  · rw [if_neg hl]
    split
    · rename_i log hlog
      have none : log.hasOctets = false := h.resolve_left hl log hlog
      rw [none]
      rfl
    · rfl

theorem isJoined_joinLog (c : Connection) : c.joinLog.IsJoined := by
  unfold joinLog
  by_cases hl : c.isLogged = true
  · rw [if_pos hl]
    exact .inl hl
  · rw [if_neg hl]
    split
    · rename_i log hlog
      split_ifs with ho
      · refine .inr fun other h => ?_
        rw [hlog] at h
        cases h
        simpa using ho
      · exact .inr fun other h => nomatch h
      · exact .inl rfl
    · rename_i hlog
      exact .inr fun other h => absurd h (hlog other)

theorem settle_content_of_isJoined {c : Connection} (h : c.IsJoined) :
    c.settle.content = c.content := by
  have cleared : c.clearJournal.IsJoined ∧ c.clearJournal.content = c.content := by
    rcases c.clearJournal_eq_or with e | e <;> rw [e] <;> exact ⟨h, rfl⟩
  unfold settle
  rw [joinLog_of_isJoined cleared.1]
  split_ifs <;> exact cleared.2

theorem joinLog_isPrepared (c : Connection) (b : Bool) :
    { c with isPrepared := b }.joinLog = { c.joinLog with isPrepared := b } := by
  rcases c with
    ⟨content, mode, lastId, place, journal, log, isLogged, knows, prepared, n, looked⟩
  cases isLogged with
  | true => rfl
  | false =>
    cases log with
    | file log => simp only [joinLog, Bool.false_eq_true, if_false]; split_ifs <;> rfl
    | nothing => rfl
    | directory => rfl

theorem settle_isPrepared (c : Connection) (b : Bool) :
    { c with isPrepared := b }.settle = { c.settle with isPrepared := b } := by
  have blocked : { c.clearJournal with isPrepared := b }.isBlocked = c.clearJournal.isBlocked := rfl
  unfold settle
  rw [clearJournal_isPrepared, joinLog_isPrepared, blocked]
  split_ifs <;> rfl

theorem settle_of_isBlocked {c : Connection} (h : c.clearJournal.isBlocked = true) :
    c.settle = c.clearJournal := by
  rw [settle, if_pos h]

theorem settle_of_not_isBlocked {c : Connection} (h : c.clearJournal.isBlocked = false) :
    c.settle = { c.clearJournal.joinLog with hasLooked := true } := by
  rw [settle, if_neg (by simp [h])]

theorem isJoined_settle {c : Connection} (h : c.clearJournal.isBlocked = false) :
    c.settle.IsJoined := by
  rw [settle_of_not_isBlocked h]
  exact isJoined_joinLog c.clearJournal

theorem settle_settle_content (c : Connection) : c.settle.settle.content = c.settle.content := by
  -- what is kept from the file stays so; what is not has no log left to take up
  cases h : c.clearJournal.isBlocked with
  | true =>
    have again : c.clearJournal.settle = c.clearJournal := by
      rw [settle_of_isBlocked, clearJournal_clearJournal]
      rwa [clearJournal_clearJournal]
    rw [settle_of_isBlocked h, again]
  | false => exact settle_content_of_isJoined (isJoined_settle h)

theorem joinLog_content_of_isEmpty {c : Connection} (h : c.content.isEmpty = true) :
    c.joinLog.content = c.content := by
  unfold joinLog
  by_cases hl : c.isLogged = true
  · rw [if_pos hl]
  · rw [if_neg hl]
    split
    · rw [if_pos h]
      split_ifs <;> rfl
    · rfl

theorem settle_content_of_isEmpty {c : Connection} (h : c.content.isEmpty = true) :
    c.settle.content = c.content := by
  have cleared : c.clearJournal.content = c.content := by
    rcases c.clearJournal_eq_or with e | e <;> rw [e]
  have joined := joinLog_content_of_isEmpty (c := c.clearJournal) (by rw [cleared]; exact h)
  unfold settle
  split_ifs
  · exact cleared
  · exact joined.trans cleared

/-! ### Looking -/

/-- What can be read: nothing keeps the statement from the file, which leads to the database. -/
theorem of_read_eq_ok {c : Connection} {d : Database} (h : c.read = .ok d) :
    c.settle.IsJoined ∧ c.settle.content.database? = .ok d := by
  cases hb : c.clearJournal.isBlocked with
  | true =>
    rw [read, settle_of_isBlocked hb, if_pos hb] at h
    cases h
  | false =>
    refine ⟨isJoined_settle hb, ?_⟩
    unfold read at h
    split_ifs at h
    exact h

theorem tables_of_read {c : Connection} {d : Database} (h : c.read = .ok d) :
    c.tables = d.tables.getD {} := by
  rw [tables, Content.tables, (of_read_eq_ok h).2]

theorem visit_of_read {c : Connection} {d : Database} (h : c.read = .ok d) :
    c.visit = { c.settle with knowsTables := d.tables.isSome } := by
  rw [visit, h]

theorem isJoined_visit {c : Connection} {d : Database} (h : c.read = .ok d) : c.visit.IsJoined := by
  rw [visit_of_read h]
  exact (of_read_eq_ok h).1

theorem tables_settle (c : Connection) : c.settle.tables = c.tables := by
  rw [tables, tables, settle_settle_content]

theorem tables_visit (c : Connection) : c.visit.tables = c.tables := by
  cases h : c.read with
  | error e =>
    rw [visit, h]
    exact tables_settle c
  | ok d =>
    rw [tables, settle_content_of_isJoined (isJoined_visit h), visit_of_read h, tables]

theorem tables_isPrepared (c : Connection) (b : Bool) :
    { c with isPrepared := b }.tables = c.tables := by
  rw [tables, settle_isPrepared, tables]

/-! ### Changes -/

/-- A change that is written is read from then on. -/
theorem tables_write {c c' : Connection} {d : Database} (h : c.IsJoined) (hw : c.write d = .ok c') :
    c'.IsJoined ∧ c'.tables = d.tables.getD {} := by
  unfold write at hw
  by_cases can : c.canWrite = true
  · rw [if_pos can] at hw
    cases hw
    refine ⟨h, ?_⟩
    rw [tables, settle_content_of_isJoined (by exact h)]
    rfl
  · rw [if_neg can] at hw
    cases hw

theorem tables_afterFailure (c : Connection) : c.afterFailure.tables = c.tables := by
  unfold afterFailure
  split_ifs with hf hw
  · -- whatever stands beside an empty file, the file stays empty
    have empty : c.settle.content.isEmpty = true := (Bool.and_eq_true_iff.1 hf).2
    have content : c.visit.content = c.settle.content := by
      unfold visit
      cases c.read <;> rfl
    rw [tables, settle_content_of_isEmpty (by rw [content]; exact empty), content, tables]
  · exact tables_settle c
  · exact tables_visit c

/-- An insert is refused and keeps the tables, or puts what the change makes of the database. -/
theorem insert_cases (c : Connection)
    (change : Database → Except StoreError (Int64 × Database)) :
    ((c.insert change).1.tables = c.tables ∧ ∃ e, (c.insert change).2 = .error e) ∨
      ∃ d id d', c.read = .ok d ∧ change d = .ok (id, d') ∧ (c.insert change).2 = .ok id ∧
        (c.insert change).1.tables = d'.tables.getD {} := by
  unfold insert
  cases hr : c.read with
  | error e => exact .inl ⟨tables_afterFailure c, e, rfl⟩
  | ok d =>
    cases hc : change d with
    | error e =>
      simp only [Except.bind, hc]
      exact .inl ⟨tables_afterFailure c, e, rfl⟩
    | ok made =>
      obtain ⟨id, d'⟩ := made
      cases hw : c.visit.write d' with
      | error e =>
        simp only [Except.bind, hc, hw]
        exact .inl ⟨tables_afterFailure c, e, rfl⟩
      | ok c' =>
        simp only [Except.bind, hc, hw]
        obtain ⟨joined, put⟩ := tables_write (isJoined_visit hr) hw
        refine .inr ⟨d, id, d', rfl, hc, rfl, ?_⟩
        rw [← put, tables, tables, settle_content_of_isJoined (by exact joined),
          settle_content_of_isJoined joined]

theorem tables_prepare (c : Connection) : c.prepare.1.tables = c.tables := by
  unfold prepare
  cases c.requireWritable with
  | error e => rfl
  | ok _ =>
    dsimp only
    split_ifs
    · exact tables_isPrepared c true
    · cases c.read.bind Database.requireTables with
      | error e => exact tables_visit c
      | ok t => exact (tables_isPrepared c.visit true).trans (tables_visit c)

theorem ensureVersions_cases {c c' : Connection} {d d' : Database}
    (h : c.ensureVersions d = .ok (c', d')) :
    (c' = c ∧ d' = d) ∨ (c.write d.withVersions = .ok c' ∧ d' = d.withVersions) := by
  unfold ensureVersions at h
  split_ifs at h
  · cases h
    exact .inl ⟨rfl, rfl⟩
  · cases hw : c.write d.withVersions with
    | error e => rw [hw] at h; cases h
    | ok w => rw [hw] at h; cases h; exact .inr ⟨rfl, rfl⟩

theorem createTables_getD {d d' : Database} (h : d.createTables = .ok d') :
    d'.tables.getD {} = d.tables.getD {} := by
  unfold Database.createTables at h
  split at h
  · rename_i none _
    cases h
    rw [none]
    rfl
  · cases h

theorem tables_ensureTables {c c' : Connection} {d : Database} (joined : c.IsJoined)
    (ht : c.tables = d.tables.getD {}) (h : c.ensureTables d = .ok c') : c'.tables = c.tables := by
  unfold ensureTables at h
  cases hn : d.needsTables with
  | error e => rw [hn] at h; cases h
  | ok needed =>
    rw [hn] at h
    cases needed with
    | false => cases h; rfl
    | true =>
      cases hc : d.createTables with
      | error e => rw [hc] at h; cases h
      | ok d' =>
        cases hw : c.write d' with
        | error e => simp [hc, hw, bind, Except.bind] at h
        | ok w =>
          simp only [hc, hw, bind, Except.bind, if_true, pure, Except.pure, Except.ok.injEq] at h
          obtain ⟨joined', put⟩ := tables_write joined hw
          rw [ht, ← createTables_getD hc, ← put, ← h, tables, tables,
            settle_content_of_isJoined (by exact joined'), settle_content_of_isJoined joined']

theorem tables_createSchema (c : Connection) : c.createSchema.1.tables = c.tables := by
  unfold createSchema
  cases c.requireWritable with
  | error e => rfl
  | ok _ =>
    dsimp only
    cases hr : c.read with
    | error e => exact tables_visit c
    | ok d =>
      cases hv : c.visit.ensureVersions d with
      | error e =>
        simp only [Except.bind, hv]
        exact tables_visit c
      | ok made =>
        obtain ⟨c₁, d₁⟩ := made
        -- the versions of the schema are no rows
        have first : c₁.IsJoined ∧ c₁.tables = c.tables ∧ d₁.tables = d.tables := by
          rcases ensureVersions_cases hv with ⟨rfl, rfl⟩ | ⟨hw, rfl⟩
          · exact ⟨isJoined_visit hr, tables_visit c, rfl⟩
          · obtain ⟨joined, put⟩ := tables_write (isJoined_visit hr) hw
            exact ⟨joined, put.trans (tables_of_read hr).symm, rfl⟩
        obtain ⟨joined, kept, same⟩ := first
        simp only [Except.bind, hv]
        cases he : c₁.ensureTables d₁ with
        | error e => exact kept
        | ok c₂ =>
          refine (tables_ensureTables joined ?_ he).trans kept
          rw [kept, same, tables_of_read hr]

/-! ### Answers -/

/-- A query reads the tables. -/
theorem tables_of_query {c : Connection} {t : Tables} (h : c.query = .ok t) : c.tables = t := by
  unfold query at h
  cases hr : c.read with
  | error e => rw [hr] at h; cases h
  | ok d =>
    rw [hr] at h
    cases ht : d.tables with
    | none => simp [Except.bind, Database.requireTables, ht] at h
    | some t' =>
      simp only [Except.bind, Database.requireTables, ht, Except.ok.injEq] at h
      rw [tables_of_read hr, ht, ← h]
      rfl

end Connection
end SealedLog
