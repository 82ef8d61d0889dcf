import SealedLog.Proofs.Files.Grounds

/-!
# Backing files

A backing file holds a database of the schema, and no change of it is unfinished. A store that has
it open for writing keeps it so and stays on its grounds. When a directory stands in the place of
the journal or of the log, every statement fails, and the file stays as it is.

* `Connection.Direct`: a connection that works on no log, nor comes to do so;
* `Attached.save_within`: what it puts into the tree stays on the grounds of its database;
* `FileSystem.Backing`: a backing file in good order;
* `Backing.load`: a store that has it open is not hindered, or barred from it;
* `Connection.Barred.lasting`, `Attached.save_of_noted`: what becomes of a store that is barred.
-/

namespace SealedLog

namespace Connection

variable {c c₀ : Connection}

/-- The connection works on no log, and there is none that it would take up. Directories beside its
file are left to stand. -/
structure Direct (c₀ c : Connection) : Prop where
  direct : c.isLogged = false
  log : c.content.isEmpty = true ∨ c.log.isFilled = false
  journalStays : c₀.journal = .directory → c.journal = .directory
  logStays : c₀.log = .directory → c.log = .directory

theorem Direct.refl (direct : c.isLogged = false)
    (log : c.content.isEmpty = true ∨ c.log.isFilled = false) : c.Direct c :=
  ⟨direct, log, fun h => h, fun h => h⟩

namespace Direct

theorem clearJournal (direct : c₀.Direct c) : c₀.Direct c.clearJournal := by
  rw [clearJournal_eq]
  split_ifs with clears
  · obtain ⟨-, -, filled⟩ := clearsJournal_eq_true clears
    refine ⟨direct.direct, direct.log, fun there => ?_, direct.logStays⟩
    exact absurd (direct.journalStays there) (Companion.ne_directory_of_isFilled filled)
  · exact direct

/-- A log that has anything stands only beside an empty file, and then is removed. -/
theorem joinLog (direct : c₀.Direct c) :
    c₀.Direct c.joinLog ∧ c.joinLog.log.isFilled = false := by
  obtain same | ⟨-, filled, -⟩ := c.joinLog_eq_or
  · rw [same]
    refine ⟨direct, ?_⟩
    by_contra filled
    have joined := isJoined_joinLog c
    rw [same] at joined
    cases there : c.log with
    | nothing | directory => simp [there, Companion.isFilled] at filled
    | file content =>
      rw [there] at filled
      rcases joined with logged | none
      · rw [direct.direct] at logged
        cases logged
      · exact filled (none content there)
  · have empty : c.content.isEmpty = true := direct.log.resolve_right (by simp [filled])
    have gone : c.joinLog = { c with log := .nothing } := by
      unfold Connection.joinLog
      rw [direct.direct, if_neg Bool.false_ne_true, empty]
      cases there : c.log with
      | nothing | directory => simp [there, Companion.isFilled] at filled
      | file content =>
        rw [there] at filled
        have octets : content.hasOctets = true := filled
        simp [octets]
    rw [gone]
    refine ⟨⟨direct.direct, .inl empty, direct.journalStays, fun there => ?_⟩, rfl⟩
    exact absurd (direct.logStays there) (Companion.ne_directory_of_isFilled filled)

theorem settle (direct : c₀.Direct c) : c₀.Direct c.settle := by
  cases isBlocked : c.clearJournal.isBlocked with
  | true =>
    rw [settle_of_isBlocked isBlocked]
    exact direct.clearJournal
  | false =>
    rw [settle_of_not_isBlocked isBlocked]
    obtain ⟨joined, -⟩ := direct.clearJournal.joinLog
    exact ⟨joined.direct, joined.log, joined.journalStays, joined.logStays⟩

theorem isFilled_settle {d : Database} (direct : c₀.Direct c) (reads : c.read = .ok d) :
    c.settle.log.isFilled = false := by
  cases isBlocked : c.clearJournal.isBlocked with
  | true =>
    unfold read at reads
    rw [settle_of_isBlocked isBlocked, isBlocked, if_pos rfl] at reads
    cases reads
  | false =>
    rw [settle_of_not_isBlocked isBlocked]
    exact direct.clearJournal.joinLog.2

/-- Where a change can be written no directory is in the way. -/
theorem of_canWrite (direct : c₀.Direct c) (can : c.canWrite = true) : c₀.journal ≠ .directory := by
  intro there
  simp [canWrite, direct.direct, direct.journalStays there] at can

end Direct

/-- **No statement makes a connection work on a log**, unless there is one to take up. -/
theorem direct_lasting (c₀ : Connection) :
    Lasting c₀.Direct fun c => c₀.Direct c ∧ c.log.isFilled = false where
  settle direct := direct.settle
  read direct reads := ⟨direct.settle, direct.isFilled_settle reads⟩
  weaken h := h.1
  write h written := by
    obtain ⟨direct, unfilled⟩ := h
    obtain ⟨can, rfl⟩ := write_eq_ok written
    refine ⟨⟨direct.direct, .inr unfilled, fun there => ?_, direct.logStays⟩, unfilled⟩
    exact absurd there (direct.of_canWrite can)
  noted _ _ _ h := ⟨h.direct, h.log, h.journalStays, h.logStays⟩
  readNoted _ _ _ h := ⟨⟨h.1.direct, h.1.log, h.1.journalStays, h.1.logStays⟩, h.2⟩
  begun h _ can := ⟨h.direct, h.log, fun there => absurd there (h.of_canWrite can), h.logStays⟩

/-- Only what the connection knows has changed. -/
def Noted (c₀ c : Connection) : Prop :=
  ∃ id knows prepared,
    c = { c₀ with lastId := id, knowsTables := knows, isPrepared := prepared }

theorem Noted.refl (c : Connection) : c.Noted c := ⟨_, _, _, rfl⟩

theorem Noted.settle_content (noted : c₀.Noted c) : c.settle.content = c₀.settle.content := by
  obtain ⟨_, _, _, rfl⟩ := noted
  rw [settle_with]

/-- Something that no statement clears away keeps the connection from its database. -/
structure Barred (c : Connection) : Prop where
  some : c.content.isEmpty = false
  journal : ∀ content, c.journal ≠ .file content
  isBlocked : c.isBlocked = true

theorem Barred.settle (barred : c.Barred) : c.settle = c := by
  have cleared : c.clearJournal = c := by
    rw [clearJournal_eq]
    split_ifs with clears
    · obtain ⟨-, -, filled⟩ := clearsJournal_eq_true clears
      cases there : c.journal with
      | file content => exact absurd there (barred.journal content)
      | nothing | directory => simp [there, Companion.isFilled] at filled
    · rfl
  rw [settle_of_isBlocked (by rw [cleared, barred.isBlocked]), cleared]

/-- **A connection that is barred from its database carries out no statement.** -/
theorem Barred.lasting (barred : c₀.Barred) : Lasting c₀.Noted fun _ => False where
  settle h := by
    obtain ⟨id, knows, prepared, rfl⟩ := h
    rw [settle_with, barred.settle]
    exact ⟨id, knows, prepared, rfl⟩
  read h reads := by
    obtain ⟨id, knows, prepared, rfl⟩ := h
    have isBlocked : Connection.isBlocked
        { c₀ with lastId := id, knowsTables := knows, isPrepared := prepared } = true :=
      barred.isBlocked
    rw [read, settle_with, barred.settle, isBlocked, if_pos rfl] at reads
    cases reads
  weaken h := h.elim
  write h := h.elim
  noted id knows prepared h := by
    obtain ⟨_, _, _, rfl⟩ := h
    exact ⟨id, knows, prepared, rfl⟩
  readNoted _ _ _ h := h.elim
  begun h empty _ := by
    obtain ⟨_, _, _, rfl⟩ := h
    rw [barred.some] at empty
    cases empty

end Connection

open FileSystem

namespace FileSystem

variable {fs fs' : FileSystem} {P : Location → Prop} {l loc other location : Location}
  {name : String} {id : FileId} {companion : Companion}

/-! ### What a store puts into the tree -/

/-- What is cleared away is no directory. -/
theorem Within.clear (sound : fs.Sound) (some : loc ≠ []) (mine : P loc)
    (noDirectory : companion = .nothing → fs.companion loc ≠ .directory) :
    fs.Within P (fs.clear loc companion) := by
  cases companion with
  | nothing => exact .removeAt sound.rooted some (noDirectory rfl) mine
  | directory | file => exact .refl fs P

theorem companion_of_clear (there : (fs.clear loc companion).companion other = .directory) :
    fs.companion other = .directory := by
  cases companion with
  | nothing =>
    have there : (fs.removeAt loc).companion other = .directory := there
    rw [companion_of_removeAt (by rw [there]; exact nofun), there]
  | directory | file => exact there

end FileSystem

namespace Attached

variable {fs : FileSystem} {a : Attached} {location : Location} {id : FileId} {store : Store}
  {c c₀ : Connection}

/-- **What a store puts into the tree stays on the grounds of its database**, as long as it works on
no log. -/
theorem save_within (sound : fs.Sound) (there : fs.node? location = some (.file id))
    (file : a.file = some (location, id)) (loaded : (a.load fs).engine = .connection c₀)
    (engine : store.engine = .connection c) (direct : c₀.Direct c) :
    fs.Within location.Owns (a.save fs store).2 := by
  obtain ⟨-, -, -, -, -, journal, log⟩ := connection_of_load loaded file
  -- the journal goes first, then the log
  have first : fs.Within location.Owns (fs.clear location.journal c.journal) := by
    apply Within.clear sound (location.beside_ne_nil _) (.inr (.inl (.inl rfl)))
    intro gone directory
    rw [direct.journalStays (journal.trans directory)] at gone
    cases gone
  have second : fs.Within location.Owns
      ((fs.clear location.journal c.journal).clear location.log c.log) := by
    apply first.trans
    apply Within.clear (sound.clear _ _) (location.beside_ne_nil _) (.inr (.inl (.inr (.inl rfl))))
    intro gone directory
    rw [direct.logStays (log.trans (companion_of_clear directory))] at gone
    cases gone
  unfold save
  rw [engine, file]
  dsimp only
  rw [direct.direct, if_neg Bool.false_ne_true]
  dsimp only
  split_ifs
  · apply second.trans
    apply Within.setContent
    intro loc there'
    -- the number is that of the database, unless it belongs to a file that came in between
    by_contra outside
    have old := (second.files loc id outside).1 there'
    rw [sound.tree.single old there] at outside
    exact outside (.inl rfl)
  · exact second

/-- A store that has at most noted something is put back without any change in the tree. -/
theorem save_of_noted (rooted : fs.IsRooted) (file : a.file = some (location, id))
    (loaded : (a.load fs).engine = .connection c₀) (direct : c₀.isLogged = false)
    (engine : store.engine = .connection c) (noted : c₀.Noted c) :
    a.save fs store = ({ a with store := store }, fs) := by
  obtain ⟨-, -, -, -, looked, journal, log⟩ := connection_of_load loaded file
  have unchanged : (store.content? != (a.load fs).content?) = false := by
    rw [Store.content?, Store.content?, engine, loaded]
    simp [noted.settle_content]
  obtain ⟨_, _, _, rfl⟩ := noted
  unfold save
  rw [engine, file, unchanged]
  dsimp only
  rw [direct, if_neg Bool.false_ne_true, journal, log, clear_companion rooted,
    clear_companion rooted]
  simp [impression, looked]

end Attached

/-! ### Backing files in good order -/

namespace FileSystem

variable {fs fs' : FileSystem} {l : Location} {name : String} {id : FileId} {content : Content}

/-- A backing file holds a database of the schema, and no change of it is unfinished. -/
structure Backing (fs : FileSystem) (l : Location) (name : String) (id : FileId) : Prop
    extends fs.Site l name id where
  named : Location.IsBacking (l ++ [name])
  idle : fs.Idle (l ++ [name])
  database : ∃ db n t, fs.content id = .database db n ∧ db.Current t

namespace Backing

theorem of_storage (storage : fs.Storage l name id content)
    (database : ∃ db n t, content = .database db n ∧ db.Current t)
    (named : Location.IsBacking (l ++ [name])) : fs.Backing l name id := by
  refine ⟨storage.toSite, named, ⟨fun other there => ?_, fun other there => ?_⟩, ?_⟩
  · rw [Location.journal, Location.beside_concat, storage.journal] at there
    cases there
  · rw [Location.log, Location.beside_concat] at there
    have unseen := storage.log
    rw [companion_of_reaches storage.reaches storage.fits.log, there] at unseen
    exact unseen
  · rw [storage.content]
    exact database

/-- The file stays in good order when others leave it. -/
theorem leaves (backing : fs.Backing l name id) (leaves : fs.Leaves (l ++ [name]) id fs')
    (reaches : fs'.Reaches l) (tree : fs'.IsTree) : fs'.Backing l name id where
  tree := tree
  reaches := reaches
  entry := backing.entry
  fits := backing.fits
  file := leaves.file
  named := backing.named
  idle := leaves.idle backing.idle
  database := by
    rw [leaves.content]
    exact backing.database

/-- In the place of the journal there is nothing, or a directory. -/
theorem journal (backing : fs.Backing l name id) :
    fs.node? (l ++ [name ++ "-journal"]) = none ∨
      fs.companion (l ++ [name ++ "-journal"]) = .directory := by
  have noFile := backing.idle.journal
  rw [Location.journal, Location.beside_concat] at noFile
  rw [companion_of_reaches backing.reaches backing.fits]
  cases there : fs.node? (l ++ [name ++ "-journal"]) with
  | none => exact .inl rfl
  | some node =>
    cases node with
    | directory => exact .inr rfl
    | file other => exact absurd there (noFile other)

/-- In the place of the log there is nothing to be seen, or a directory. -/
theorem log (backing : fs.Backing l name id) :
    (fs.companion (l ++ [name ++ "-wal"])).isSeen = false ∨
      fs.companion (l ++ [name ++ "-wal"]) = .directory := by
  have unseen := backing.idle.log
  rw [Location.log, Location.beside_concat] at unseen
  rw [companion_of_reaches backing.reaches backing.fits.log]
  cases there : fs.node? (l ++ [name ++ "-wal"]) with
  | none => exact .inl rfl
  | some node =>
    cases node with
    | directory => exact .inr rfl
    | file other => exact .inl (unseen other there)

/-- Nothing is in the way of statements, or a directory. -/
theorem storage_or_directory (backing : fs.Backing l name id) :
    fs.Storage l name id (fs.content id) ∨
      fs.companion (l ++ [name ++ "-journal"]) = .directory ∨
      fs.companion (l ++ [name ++ "-wal"]) = .directory := by
  rcases backing.journal with journal | directory
  · rcases backing.log with log | directory
    · exact .inl ⟨backing.toSite, journal, log, rfl⟩
    · exact .inr (.inr directory)
  · exact .inr (.inl directory)

/-- **What a store gets that has the file open**: the database, to work on or to be barred from. -/
theorem load {a : Attached} (backing : fs.Backing l name id)
    (sees : a.Sees (l ++ [name]) id (fs.content id)) :
    ∃ c c' : Connection, a.store.engine = .connection c ∧
      a.load fs = { a.store with engine := .connection c' } ∧ c'.mode = c.mode ∧ c'.Direct c' ∧
      c'.settle.content = fs.content id ∧ (fs.Storage l name id (fs.content id) ∨ c'.Barred) := by
  obtain ⟨c, c', engine, loaded, content, mode, -, direct, -, journal, log⟩ :=
    sees.load backing.toSite rfl
  have plain := backing.reaches.isPlain_concat backing.entry
  have unfilled : c'.log.isFilled = false := by
    have unfilled := backing.idle.isFilled_log plain
    rwa [Location.log, Location.beside_concat, ← log] at unfilled
  have joined : c'.IsJoined := by
    refine .inr fun content there => ?_
    rwa [there] at unfilled
  refine ⟨c, c', engine, loaded, mode, .refl direct (.inr unfilled), ?_, ?_⟩
  · rw [Connection.settle_content_of_isJoined joined, content]
  · obtain ⟨db, n, t, database, -⟩ := backing.database
    have some : c'.content.isEmpty = false := by
      rw [content, database]
      rfl
    rcases backing.storage_or_directory with storage | directory
    · exact .inl storage
    · refine .inr ⟨some, fun content there => ?_, ?_⟩
      · rw [journal] at there
        rcases backing.journal with none | directory
        · simp [companion_of_reaches backing.reaches backing.fits, none] at there
        · rw [directory] at there
          cases there
      · rcases directory with directory | directory
        · simp [Connection.isBlocked, direct, some, journal.trans directory]
        · simp [Connection.isBlocked, direct, log.trans directory]

end Backing

end FileSystem

end SealedLog
