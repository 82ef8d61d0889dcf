import SealedLog.Proofs.Files.Backing
import SealedLog.Proofs.Session.Order

/-!
# Sessions that serve a backing file

A session that writes keeps its backing file in good order, whatever it is asked, whatever fails,
and whatever others do beside the file. Its store reads the rows that the file holds, and what it
puts into the tree stays on the grounds of the file.

* `Desk.Serves`: a store has a backing file in good order open for writing;
* `Serves.put`: it still does when the store is put back after any operations;
* `Serves.refresh`: also when the manifest is kept, whether that succeeds or not;
* `Serves.leaves`: others may do what leaves the file.
-/

namespace SealedLog

open FileSystem

/-- A store has come from another one by operations that sessions ask for. -/
def Store.ComesTo (s₀ s : Store) : Prop := ∀ P : Store → Prop, Store.Lasting P → P s₀ → P s

theorem Session.call_comesTo (H : HashFunction) (s : Session) (store : Store) (c : SessionCall) :
    store.ComesTo (s.call H store c).store :=
  fun _ lasting h => (Session.call_lasts lasting c h).store

theorem Store.visitMetadata_comesTo (store : Store) : store.ComesTo store.visitMetadata :=
  fun _ lasting h => Session.visitMetadata_lasting lasting.toViewed h

namespace Desk

variable {d : Desk} {l : Location} {name : String} {id : FileId} {files : FileSystem}
  {content : Content} {store : Store}

/-- The store has a backing file in good order open for writing, in a sound tree. -/
structure Serves (d : Desk) (l : Location) (name : String) (id : FileId) : Prop where
  sound : d.files.Sound
  backing : d.files.Backing l name id
  sees : d.attached.Sees (l ++ [name]) id (d.files.content id)
  opened : ∃ c, d.attached.store.engine = .connection c ∧ c.mode = .readWrite

namespace Serves

/-- A session that works on a storage for writing serves it, if it is a backing file. -/
theorem of_works (works : d.Works l name id .readWrite content) (sound : d.files.Sound)
    (named : Location.IsBacking (l ++ [name])) : d.Serves l name id where
  sound := sound
  backing := .of_storage works.storage works.database named
  sees := by
    rw [works.storage.content]
    exact works.sees
  opened := works.opened

theorem works (serves : d.Serves l name id)
    (storage : d.files.Storage l name id (d.files.content id)) :
    d.Works l name id .readWrite (d.files.content id) :=
  ⟨storage, serves.sees, serves.backing.database, serves.opened⟩

/-- The store has the rows that the file holds. -/
theorem tables (serves : d.Serves l name id) : d.store.tables = (d.files.content id).tables := by
  obtain ⟨_, c, -, loaded, -, -, content, -⟩ := serves.backing.load serves.sees
  rw [Desk.store, loaded, Store.tables_connection rfl, Connection.tables, content]

/-- **A store that is put back after any operations still serves its file**, stays on its grounds,
and has the rows that the operations left. -/
theorem put (serves : d.Serves l name id) (session : Session) (comes : d.store.ComesTo store) :
    (d.put session store).Serves l name id ∧
      d.files.Within (Location.Owns (l ++ [name])) (d.put session store).files ∧
      (d.put session store).store.tables = store.tables := by
  obtain ⟨c, c₀, engine, loaded, mode, direct, content, free⟩ := serves.backing.load serves.sees
  have engine₀ : d.store.engine = .connection c₀ := by rw [Desk.store, loaded]
  have within : d.files.Within (Location.Owns (l ++ [name])) (d.put session store).files := by
    obtain ⟨c', engine', direct'⟩ := comes _ c₀.direct_lasting.connected ⟨c₀, engine₀, direct⟩
    exact Attached.save_within serves.sound serves.backing.file serves.sees.file engine₀ engine'
      direct'
  rcases free with storage | barred
  · have works := serves.works storage
    obtain ⟨content', works', -, -, tables, -⟩ :=
      works.put session (comes _ (Store.InUse.lasting ..) works.store.1)
    exact ⟨.of_works works' (serves.sound.save _ _) serves.backing.named, within,
      works'.store.2.trans tables.symm⟩
  · -- nothing was done but that something was noted
    obtain ⟨c', engine', noted⟩ := comes _ barred.lasting.connected ⟨c₀, engine₀, .refl c₀⟩
    have kept : d.put session store = ⟨session, d.files, { d.attached with store := store }⟩ := by
      unfold Desk.put
      rw [Attached.save_of_noted serves.sound.rooted serves.sees.file engine₀ direct.direct engine'
        noted]
    have serves' : (d.put session store).Serves l name id := by
      rw [kept]
      obtain ⟨_, opened, writes⟩ := serves.opened
      obtain rfl := Engine.connection.inj (engine.symm.trans opened)
      refine ⟨serves.sound, serves.backing, ⟨serves.sees.file, serves.sees.log, ⟨c', engine', ?_⟩,
        serves.sees.seen⟩, c', engine', ?_⟩
      · obtain ⟨_, _, _, rfl⟩ := noted
        exact direct.direct
      · obtain ⟨_, _, _, rfl⟩ := noted
        exact mode.trans writes
    refine ⟨serves', within, ?_⟩
    rw [serves'.tables, kept, Store.tables_connection engine', Connection.tables,
      noted.settle_content, content]

theorem failing (serves : d.Serves l name id) (faults : FaultPlan) :
    (d.failing faults).Serves l name id where
  sound := serves.sound
  backing := serves.backing
  sees := ⟨serves.sees.file, serves.sees.log, serves.sees.direct, serves.sees.seen⟩
  opened := serves.opened

/-- **A session still serves its file when others have left it.** -/
theorem leaves (serves : d.Serves l name id) (leaves : d.files.Leaves (l ++ [name]) id files)
    (reaches : files.Reaches l) (sound : files.Sound) :
    ({ d with files := files } : Desk).Serves l name id ∧
      ({ d with files := files } : Desk).store.tables = d.store.tables := by
  have serves' : ({ d with files := files } : Desk).Serves l name id := by
    refine ⟨sound, serves.backing.leaves leaves reaches sound.tree, ?_, serves.opened⟩
    show d.attached.Sees _ id (files.content id)
    rw [leaves.content]
    exact serves.sees
  refine ⟨serves', ?_⟩
  rw [serves'.tables, serves.tables]
  exact congrArg Content.tables leaves.content

/-- **A session that keeps its manifest still serves its file**, whether that succeeds or not. -/
theorem refresh (serves : d.Serves l name id) {s : Session}
    (harmless : Manifest.IsHarmless s.config.manifestName) (o : OpenState) (session : Session) :
    let d' : Desk := ⟨session, (s.refreshManifest d.files o d.attached).2.1,
      (s.refreshManifest d.files o d.attached).1⟩
    d'.Serves l name id ∧ d.files.Within (Location.Owns (l ++ [name])) d'.files ∧
      d'.store.tables = d.store.tables := by
  have same : (⟨session, d.files, d.attached⟩ : Desk).Serves l name id :=
    ⟨serves.sound, serves.backing, serves.sees, serves.opened⟩
  unfold Session.refreshManifest
  cases o.uri with
  | none => exact ⟨same, .refl _ _, rfl⟩
  | some uri =>
    dsimp only
    split_ifs
    · obtain ⟨serves', within, tables⟩ := serves.put session d.store.visitMetadata_comesTo
      rw [Session.tables_visitMetadata] at tables
      cases saved : (o.metadata (d.attached.load d.files)).bind (s.saveManifest
          (d.attached.save d.files (d.attached.load d.files).visitMetadata).2 uri) with
      | error e => exact ⟨serves', within, tables⟩
      | ok files =>
        -- the manifest is none of the files that the store works on
        obtain ⟨m, -, saved⟩ := Except.bind_eq_ok_iff.1 saved
        have written := Session.saveManifest_eq_ok saved
        have manifests : (d.put session d.store.visitMetadata).files.Within Location.IsManifest
            files := .write_manifest serves'.sound.tree harmless written fun _ h => h
        obtain ⟨serves'', tables'⟩ := serves'.leaves
          (manifests.leaves serves.backing.named.avoids_manifests serves'.backing.file)
          (manifests.directories l serves'.backing.reaches) (serves'.sound.write written)
        exact ⟨serves'', within.trans (manifests.mono fun _ h => .inr (.inr h)),
          tables'.trans tables⟩
    · exact ⟨same, .refl _ _, rfl⟩

end Serves

end Desk

end SealedLog
