import SealedLog.Proofs.Files.Storage
import SealedLog.Proofs.Session.Lasting
import SealedLog.Proofs.Session.Run

/-!
# Sessions on storages

A session works on a storage through a store that has its file open: before each call the store gets
what the file holds, and after it the file gets what the store made of it.

* `Desk`: a session, the store that it has open, and the tree that the file is in;
* `Desk.call`, `Desk.Run`: calls on a storage that nobody else changes;
* `Desk.Works`: the storage is in good order, and the store sees it;
* `Desk.Continues`, `Run.continues`: what lasts through every run, which is a run of the session.
-/

namespace SealedLog

variable {H : HashFunction}

/-! ### Connections in use -/

/-- A connection to a database in good order, which works in this mode. It has looked at its file,
or has what the file held before; a connection for reading alone always has that. -/
structure Connection.InUse (mode : AccessMode) (before : Content) (c : Connection) : Prop where
  opened : c.mode = mode
  database : ∃ d t, c.Steady d ∧ d.Current t
  looked : c.Looked before
  kept : mode = .readOnly → c.content = before

namespace Connection.InUse

variable {c : Connection} {mode : AccessMode} {before : Content}

theorem refuses (inUse : c.InUse .readOnly before) : c.requireWritable = .error .readOnly := by
  rw [requireWritable, inUse.opened]
  rfl

theorem ready (inUse : c.InUse .readWrite before) : ∃ t, c.Ready t := by
  obtain ⟨d, t, steady, current⟩ := inUse.database
  exact ⟨t, inUse.opened, d, steady, current⟩

theorem of_ready {t : Tables} (ready : c.Ready t) (looked : c.Looked before) :
    c.InUse .readWrite before where
  opened := ready.writable
  database := by
    obtain ⟨d, steady, current⟩ := ready.database
    exact ⟨d, t, steady, current⟩
  looked := looked
  kept h := nomatch h

theorem visit (inUse : c.InUse mode before) : c.visit.InUse mode before := by
  obtain ⟨d, t, steady, current⟩ := inUse.database
  refine ⟨?_, ⟨d, t, steady.steady_visit, current⟩, steady.looked_visit before, fun reads => ?_⟩
  · rw [steady.visit]
    exact inUse.opened
  · rw [steady.visit]
    exact inUse.kept reads

theorem prepare (inUse : c.InUse mode before) : c.prepare.1.InUse mode before := by
  cases mode with
  | readOnly =>
    rw [Connection.prepare, inUse.refuses]
    exact inUse
  | readWrite =>
    obtain ⟨t, ready⟩ := inUse.ready
    obtain ⟨c', prepared, ready', looked⟩ := ready.prepare
    rw [prepared]
    exact .of_ready ready' (looked before inUse.looked)

theorem insertStream (inUse : c.InUse mode before) (s : StreamDescriptor) (n : Nonce) (g : Digest) :
    (c.insertStream s n g).1.InUse mode before := by
  cases mode with
  | readOnly =>
    rw [Connection.insertStream, inUse.refuses]
    exact inUse
  | readWrite =>
    obtain ⟨t, ready⟩ := inUse.ready
    obtain ⟨c', inserted, ready', looked⟩ := ready.insertStream s n g
    rw [inserted]
    exact .of_ready ready' (looked before)

theorem insertRecord (inUse : c.InUse mode before) (id : StreamId) (timestamp : Int64)
    (payload : Bytes) (g : Digest) :
    (c.insertRecord id timestamp payload g).1.InUse mode before := by
  cases mode with
  | readOnly =>
    rw [Connection.insertRecord, Connection.prepare, inUse.refuses]
    exact inUse
  | readWrite =>
    obtain ⟨t, ready⟩ := inUse.ready
    obtain ⟨c', inserted, ready', looked⟩ := ready.insertRecord id timestamp payload g
    rw [inserted]
    exact .of_ready ready' (looked before)

end Connection.InUse

/-- The store has a connection in use, and these of its operations fail. -/
structure Store.InUse (mode : AccessMode) (before : Content) (faults : FaultPlan) (s : Store) :
    Prop where
  faults : s.faults = faults
  connected : ∃ c, s.engine = .connection c ∧ c.InUse mode before

namespace Store.InUse

variable {s : Store} {mode : AccessMode} {before : Content} {faults : FaultPlan}

theorem change (inUse : s.InUse mode before faults) {α : Type} (method : StoreMethod)
    (inMemory : MemoryStore → Except StoreError (α × MemoryStore))
    {connected : Connection → Connection × Except StoreError α}
    (kept : ∀ c : Connection, c.InUse mode before → (connected c).1.InUse mode before) :
    (s.change method inMemory connected).1.InUse mode before faults := by
  obtain ⟨c, engine, here⟩ := inUse.connected
  unfold Store.change
  cases s.faults method with
  | some e => exact inUse
  | none =>
    rw [engine]
    exact ⟨inUse.faults, _, rfl, kept c here⟩

theorem visit (inUse : s.InUse mode before faults) (method : StoreMethod) :
    (s.visit method).InUse mode before faults := by
  obtain ⟨c, engine, here⟩ := inUse.connected
  unfold Store.visit
  rw [engine]
  cases s.faults method with
  | some e => exact inUse
  | none => exact ⟨inUse.faults, c.visit, rfl, here.visit⟩

/-- A store stays in use, whatever sessions ask of it. -/
theorem lasting (mode : AccessMode) (before : Content) (faults : FaultPlan) :
    Store.Lasting (Store.InUse mode before faults) where
  prepare inUse := inUse.change .prepare _ fun _ c => c.prepare
  insertStream d n g inUse := inUse.change .insertStream _ fun _ c => c.insertStream d n g
  insertRecord id timestamp payload g inUse :=
    inUse.change .insertRecord _ fun _ c => c.insertRecord id timestamp payload g
  visit method inUse := inUse.visit method

end Store.InUse

theorem Connection.Steady.tables_eq {c : Connection} {d : Database} (steady : c.Steady d) :
    c.tables = c.content.tables := by
  rw [Connection.tables, steady.settle]

/-! ### Desks -/

/-- A session with the store that it has open and the tree that the store's file is in. -/
structure Desk where
  session : Session
  files : FileSystem
  attached : Attached

namespace Desk

/-- The store with what its file holds now. -/
def store (d : Desk) : Store := d.attached.load d.files

/-- Put a session and its store back, and the store's changes into the file. -/
def put (d : Desk) (session : Session) (store : Store) : Desk :=
  let (attached, files) := d.attached.save d.files store
  { session := session, files := files, attached := attached }

/-- What the session answers. -/
def answer (H : HashFunction) (d : Desk) (c : SessionCall) : Except SessionError SessionAnswer :=
  (d.session.call H d.store c).answer

/-- Ask something of the session. -/
def call (H : HashFunction) (d : Desk) (c : SessionCall) : Desk :=
  d.put (d.session.call H d.store c).session (d.session.call H d.store c).store

/-- Have other operations of the store fail. -/
def failing (d : Desk) (faults : FaultPlan) : Desk :=
  { d with attached := { d.attached with store := { d.attached.store with faults := faults } } }

/-- A run: calls one after another, on files that nobody else changes. Any operation of the store
may fail at any time. -/
inductive Run (H : HashFunction) (d₀ : Desk) : List Turn → Desk → Prop
  | start : Run H d₀ [] d₀
  | turn {turns : List Turn} {d : Desk} (run : Run H d₀ turns d) (c : SessionCall) :
      Run H d₀ (turns ++ [⟨c, d.store, d.session.call H d.store c⟩]) (d.call H c)
  | fail {turns : List Turn} {d : Desk} (run : Run H d₀ turns d) (faults : FaultPlan) :
      Run H d₀ turns (d.failing faults)

variable {d d₀ : Desk} {l : Location} {name : String} {id : FileId} {mode : AccessMode}
  {content : Content} {turns : List Turn}

/-- The storage is in good order and holds a database of the schema, and the store has it open in
this mode. -/
structure Works (d : Desk) (l : Location) (name : String) (id : FileId) (mode : AccessMode)
    (content : Content) : Prop where
  storage : d.files.Storage l name id content
  sees : d.attached.Sees (l ++ [name]) id content
  database : ∃ db n t, content = .database db n ∧ db.Current t
  opened : ∃ c, d.attached.store.engine = .connection c ∧ c.mode = mode

namespace Works

theorem store (works : d.Works l name id mode content) :
    d.store.InUse mode content d.attached.store.faults ∧ d.store.tables = content.tables := by
  obtain ⟨db, n, t, rfl, current⟩ := works.database
  obtain ⟨c, engine, opened⟩ := works.opened
  obtain ⟨c₀, c', engine', loaded, mode', steady, content⟩ :=
    works.sees.load_storage works.storage
  rw [engine] at engine'
  cases engine'
  rw [Desk.store, loaded]
  refine ⟨⟨rfl, c', rfl, mode'.trans opened, ⟨db, t, steady, current⟩, .inr content,
    fun _ => content⟩, ?_⟩
  rw [Store.tables_connection rfl, steady.tables_eq, content]

/-- What a store makes of the database is put back, and the storage stays in good order. -/
theorem put (works : d.Works l name id mode content) (session : Session) {store : Store}
    {faults : FaultPlan} (inUse : store.InUse mode content faults) :
    ∃ content', (d.put session store).Works l name id mode content' ∧
      d.files.Spares l name id (d.put session store).files ∧
      (mode = .readOnly → content' = content) ∧ store.tables = content'.tables ∧
      (d.put session store).attached.store = store := by
  obtain ⟨db, n, t, rfl, current⟩ := works.database
  obtain ⟨c, engine, opened, ⟨db', t', steady, current'⟩, looked, kept⟩ := inUse.connected
  obtain ⟨same, sees, storage, spares⟩ :=
    works.sees.save_storage works.storage engine steady looked
  obtain ⟨n', content'⟩ := steady.content
  refine ⟨c.content, ⟨storage, sees, ⟨db', n', t', content', current'⟩, c, ?_, opened⟩, spares,
    kept, ?_, same⟩
  · show (d.attached.save d.files store).1.store.engine = _
    rw [same, engine]
  · rw [Store.tables_connection engine, steady.tables_eq]

theorem failing (works : d.Works l name id mode content) (faults : FaultPlan) :
    (d.failing faults).Works l name id mode content where
  storage := works.storage
  sees := ⟨works.sees.file, works.sees.log, works.sees.direct, works.sees.seen⟩
  database := works.database
  opened := works.opened

end Works

/-- What lasts through a run on a storage, which is a run of the session. -/
structure Continues (H : HashFunction) (d₀ : Desk) (l : Location) (name : String) (id : FileId)
    (mode : AccessMode) (content : Content) (turns : List Turn) (d : Desk) : Prop where
  works : ∃ content', d.Works l name id mode content' ∧ (mode = .readOnly → content' = content)
  spares : d₀.files.Spares l name id d.files
  config : d.session.config = d₀.session.config
  setting : d.session.setting = d₀.session.setting
  run : Session.Run H d₀.session d₀.store turns d.session d.store

/-- **A storage stays in good order along every run of its session**, and all else in the tree is
spared. -/
theorem Run.continues (run : Run H d₀ turns d) (works : d₀.Works l name id mode content) :
    Continues H d₀ l name id mode content turns d := by
  induction run with
  | start => exact ⟨⟨content, works, fun _ => rfl⟩, .refl _, rfl, rfl, .start⟩
  | @turn turns d _ c ih =>
    obtain ⟨⟨before, works, kept⟩, spares, config, setting, run⟩ := ih
    have lasts := Session.call_lasts (H := H) (s := d.session)
      (Store.InUse.lasting mode before d.attached.store.faults) c works.store.1
    obtain ⟨after, works', spares', kept', tables, -⟩ := works.put _ lasts.store
    refine ⟨⟨after, works', fun reads => (kept' reads).trans (kept reads)⟩, spares.trans spares',
      lasts.config.trans config, lasts.setting.trans setting, (run.turn c).disturb ?_⟩
    exact works'.store.2.trans tables.symm
  | @fail turns d _ faults ih =>
    obtain ⟨⟨before, works, kept⟩, spares, config, setting, run⟩ := ih
    refine ⟨⟨before, works.failing faults, kept⟩, spares, config, setting, run.disturb ?_⟩
    exact (works.failing faults).store.2.trans works.store.2.symm

end Desk

end SealedLog
