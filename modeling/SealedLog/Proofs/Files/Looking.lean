import SealedLog.Proofs.Files.Order

/-!
# Looking at a database

A statement that reads looks at what stands beside its file first. At most, a journal or a log that
was left behind is cleared away by that, or the log gets an index: nothing is written to any other
file.

* `Connection.Looks`, `Store.Looks`: a store was at most looked at;
* `FileSystem.Tends`: what becomes of the tree;
* `FileSystem.Undisturbed`: it is as it was, but for a journal or a log beside the database;
* `Attached.save_of_looks`: putting back a store that was at most looked at.
-/

namespace SealedLog

namespace Connection

variable {c c₀ : Connection}

/-- The connection has looked at what stands beside its file, or not even that; what it knows may be
something else. -/
def Looks (c₀ c : Connection) : Prop :=
  ∃ id knows prepared,
    c = { c₀ with lastId := id, knowsTables := knows, isPrepared := prepared } ∨
      c = { c₀.settle with lastId := id, knowsTables := knows, isPrepared := prepared }

theorem Looks.refl (c : Connection) : c.Looks c := ⟨_, _, _, .inl rfl⟩

theorem Looks.settle (looks : c₀.Looks c) : ∃ id knows prepared,
    c.settle = { c₀.settle with lastId := id, knowsTables := knows, isPrepared := prepared } := by
  obtain ⟨id, knows, prepared, rfl | rfl⟩ := looks
  · exact ⟨id, knows, prepared, settle_with ..⟩
  · refine ⟨id, knows, prepared, ?_⟩
    rw [settle_with, settle_settle]

/-- To look once more is at most to look. -/
theorem Looks.visit (looks : c₀.Looks c) : c₀.Looks c.visit := by
  obtain ⟨id, knows, prepared, same⟩ := looks.settle
  obtain ⟨knows', same'⟩ := c.visit_eq
  rw [same', same]
  exact ⟨id, knows', prepared, .inr rfl⟩

theorem Looks.content (looks : c₀.Looks c) : c.settle.content = c₀.settle.content := by
  obtain ⟨_, _, _, same⟩ := looks.settle
  rw [same]

theorem Looks.mode (looks : c₀.Looks c) : c.mode = c₀.mode := by
  obtain ⟨_, _, _, rfl | rfl⟩ := looks
  · rfl
  · exact c₀.settle_keeps.1

theorem Looks.beside (looks : c₀.Looks c) : c₀.Beside c := by
  obtain ⟨_, _, _, rfl | rfl⟩ := looks
  · exact ⟨.inl rfl, .inl ⟨rfl, rfl⟩⟩
  · exact ⟨c₀.beside_settle.journal, c₀.beside_settle.log⟩

end Connection

namespace Store

variable {s s₀ : Store}

/-- The store was at most looked at. -/
structure Looks (s₀ s : Store) : Prop where
  faults : s.faults = s₀.faults
  memory : ∀ m, s₀.engine = .memory m → s.engine = .memory m
  connection : ∀ c₀, s₀.engine = .connection c₀ → ∃ c, s.engine = .connection c ∧ c₀.Looks c

theorem Looks.refl (s : Store) : s.Looks s := ⟨rfl, fun _ h => h, fun c h => ⟨c, h, .refl c⟩⟩

theorem Looks.viewed (s₀ : Store) : Viewed s₀.Looks where
  visit {s} method looks := by
    unfold visit
    cases s.faults method with
    | some e => exact looks
    | none =>
      cases engine : s₀.engine with
      | memory m =>
        rw [looks.memory m engine]
        exact looks
      | connection c₀ =>
        obtain ⟨c, engine', here⟩ := looks.connection c₀ engine
        rw [engine']
        refine ⟨looks.faults, fun m h => ?_, fun c' h => ?_⟩
        · rw [engine] at h
          cases h
        · rw [engine] at h
          cases h
          exact ⟨c.visit, rfl, here.visit⟩

end Store

/-! ### The tree -/

namespace FileSystem

variable {fs fs' : FileSystem} {l loc location : Location} {mode : AccessMode}

/-- A journal that was left behind is cleared away at most, and only for a store that may write. -/
def Clears (fs : FileSystem) (location : Location) (mode : AccessMode) (fs' : FileSystem) : Prop :=
  fs' = fs ∨ mode = .readWrite ∧ (fs.companion location.journal).isFilled = true ∧
    fs' = fs.removeAt location.journal

/-- What becomes of the tree when a database is looked at: a journal may be cleared away, and a log
that has anything is removed or gets an index. -/
inductive Tends (fs : FileSystem) (location : Location) (mode : AccessMode) : FileSystem → Prop
  | clear {fs' : FileSystem} (cleared : fs.Clears location mode fs') : Tends fs location mode fs'
  | leftover {fs' : FileSystem} (cleared : fs.Clears location mode fs')
      (filled : (fs.companion location.log).isFilled = true) :
      Tends fs location mode (fs'.removeAt location.log)
  | index {fs' : FileSystem} (cleared : fs.Clears location mode fs')
      (filled : (fs.companion location.log).isFilled = true) :
      Tends fs location mode (fs'.ensureIndex location)

/-- **Without a journal or a log nothing becomes of the tree.** A journal does not matter to a store
for reading. -/
theorem Tends.same (tends : fs.Tends location mode fs')
    (journal : mode = .readWrite → (fs.companion location.journal).isFilled = false)
    (log : (fs.companion location.log).isFilled = false) : fs' = fs := by
  have clear : ∀ {fs'}, fs.Clears location mode fs' → fs' = fs := by
    rintro fs' (rfl | ⟨writes, filled, -⟩)
    · rfl
    · rw [journal writes] at filled
      cases filled
  cases tends with
  | clear cleared => exact clear cleared
  | leftover _ filled | index _ filled =>
    rw [log] at filled
    cases filled

/-- All in the tree is as it was but that a journal or a log beside a database may be gone, and that
there may be a new index to the log, in the place of the one that was there or of nothing. All other
files hold what they held. -/
structure Besides (fs : FileSystem) (location : Location) (fs' : FileSystem) : Prop where
  directories : ∀ l, fs.Reaches l → fs'.Reaches l
  nodes : ∀ loc, loc ≠ location.journal → loc ≠ location.log → loc ≠ location.index →
    fs'.node? loc = fs.node? loc
  journal : fs'.node? location.journal = fs.node? location.journal ∨
    fs'.node? location.journal = none
  log : fs'.node? location.log = fs.node? location.log ∨ fs'.node? location.log = none
  index : fs'.node? location.index = fs.node? location.index ∨ fs.node? location.index = none
  contents : ∀ id < fs.contents.length, fs.node? location.index ≠ some (.file id) →
    fs'.content id = fs.content id

/-- What looking at a database leaves of the tree: all of it, as long as no log with anything in it
stands beside the database, and for a store that may write no such journal; and else all but these
two and the index to the log. A store for reading leaves the journal in any case. -/
structure Undisturbed (fs : FileSystem) (location : Location) (mode : AccessMode)
    (fs' : FileSystem) : Prop where
  same : (mode = .readWrite → (fs.companion location.journal).isFilled = false) →
    (fs.companion location.log).isFilled = false → fs' = fs
  besides : fs.Besides location fs'
  journal : mode = .readOnly → fs'.node? location.journal = fs.node? location.journal

theorem Besides.refl (fs : FileSystem) (location : Location) : fs.Besides location fs :=
  ⟨fun _ reaches => reaches, fun _ _ _ _ => rfl, .inl rfl, .inl rfl, .inl rfl, fun _ _ _ => rfl⟩

/-- What comes behind a change that has left the index alone and written to no file. -/
theorem Besides.trans {fs'' : FileSystem} (first : fs.Besides location fs')
    (same : fs'.node? location.index = fs.node? location.index) (held : fs'.contents = fs.contents)
    (second : fs'.Besides location fs'') : fs.Besides location fs'' where
  directories l reaches := second.directories l (first.directories l reaches)
  nodes loc journal log index :=
    (second.nodes loc journal log index).trans (first.nodes loc journal log index)
  journal := by
    rcases second.journal with same | gone
    · rw [same]
      exact first.journal
    · exact .inr gone
  log := by
    rcases second.log with same | gone
    · rw [same]
      exact first.log
    · exact .inr gone
  index := by
    rw [← same]
    exact second.index
  contents id there other := by
    rw [second.contents id (by rwa [held]) (by rwa [same]), content, content, held]

theorem Undisturbed.refl (fs : FileSystem) : fs.Undisturbed location mode fs :=
  ⟨fun _ _ => rfl, .refl fs location, fun _ => rfl⟩

/-- A path that leads to something led there also before something was taken out. -/
theorem companion_of_removeAt (other : (fs.removeAt loc).companion location ≠ .nothing) :
    fs.companion location = (fs.removeAt loc).companion location := by
  have stay : ∀ l, (fs.removeAt loc).Reaches l → fs.Reaches l := fun l reaches =>
    reaches.mono fun _ there => node?_of_removeAt there.there
  unfold companion at other ⊢
  cases found : (fs.removeAt loc).walk [] location with
  | error e => simp [found] at other
  | ok what =>
    cases what with
    | vacant l => simp [found] at other
    | directory l =>
      have again := ((leads_of_walk found).mono .root stay).walk_append []
      rw [List.append_nil] at again
      rw [again]
      rfl
    | file l id =>
      obtain ⟨front, name, l, rfl, leads, entry, rfl, there⟩ := leads_of_walk_file found
      rw [(leads.mono .root stay).walk_append, walk_name entry, FileSystem.found,
        node?_of_removeAt there]
      rfl

/-- The index is made where nothing stands, or in a file that is in its place. -/
theorem ensureIndex_cases (fs : FileSystem) (plain : location.IsPlain) :
    fs.ensureIndex location = fs ∨
      fs.node? location.index = none ∧
        fs.ensureIndex location = (fs.addFile location.index (.plain indexMark)).1 ∨
      ∃ id, fs.node? location.index = some (.file id) ∧
        fs.ensureIndex location = fs.setContent id (.plain indexMark) := by
  unfold ensureIndex
  split
  · rename_i loc vacant
    obtain rfl : loc = location.index := place_of_isPlain plain.index vacant
    exact .inr (.inl ⟨node?_of_vacant vacant, rfl⟩)
  · rename_i loc id there
    obtain rfl : loc = location.index := place_of_isPlain plain.index there
    obtain ⟨-, -, -, -, -, -, -, node⟩ := leads_of_walk_file there
    exact .inr (.inr ⟨id, node, rfl⟩)
  · exact .inl rfl

/-- To take out a journal or a log leaves all else, unless it is a directory. -/
theorem Besides.removeAt (rooted : fs.IsRooted) (noDirectory : fs.companion loc ≠ .directory)
    (companion : loc = location.journal ∨ loc = location.log) :
    fs.Besides location (fs.removeAt loc) := by
  have some : loc ≠ [] := by
    rcases companion with rfl | rfl <;> exact location.beside_ne_nil _
  have others : ∀ other, other ≠ loc → (fs.removeAt loc).node? other = fs.node? other :=
    fun other ne => rooted.node?_removeAt_of_ne noDirectory ne
  have gone := fs.node?_removeAt_self some
  refine ⟨fun l reaches => rooted.reaches_removeAt some noDirectory reaches, ?_, ?_, ?_, .inl ?_,
    fun _ _ _ => rfl⟩
  · intro other journal log _
    refine others other ?_
    rintro rfl
    exact companion.elim journal log
  · by_cases same : loc = location.journal
    · exact .inr (same ▸ gone)
    · exact .inl (others _ (Ne.symm same))
  · by_cases same : loc = location.log
    · exact .inr (same ▸ gone)
    · exact .inl (others _ (Ne.symm same))
  · refine others _ ?_
    rintro rfl
    exact companion.elim (location.beside_ne (by decide)) (location.beside_ne (by decide))

/-- To make the index to a log leaves all else. -/
theorem Besides.ensureIndex (fs : FileSystem) (plain : location.IsPlain) :
    fs.Besides location (fs.ensureIndex location) := by
  obtain kept | ⟨vacant, made⟩ | ⟨id, there, made⟩ := fs.ensureIndex_cases plain
  · rw [kept]
    exact .refl fs location
  · rw [made]
    exact ⟨fun _ reaches => reaches.of_append rfl, fun _ _ _ ne => node?_addFile_of_ne ne _,
      .inl (node?_addFile_of_ne (location.beside_ne (by decide)) _),
      .inl (node?_addFile_of_ne (location.beside_ne (by decide)) _),
      .inr vacant, fun _ there _ => content_addFile_of_lt there _ _⟩
  · rw [made]
    refine ⟨fun _ reaches => reaches.mono fun _ reaches => reaches.there, fun _ _ _ _ => rfl,
      .inl rfl, .inl rfl, .inl rfl, fun other _ ne => content_setContent_of_ne ?_ _⟩
    rintro rfl
    exact ne there

/-- To clear away a journal leaves the index alone and writes to no file. -/
theorem Clears.keeps (sound : fs.Sound) (cleared : fs.Clears location mode fs') :
    fs'.node? location.index = fs.node? location.index ∧ fs'.contents = fs.contents := by
  obtain rfl | ⟨-, filled, rfl⟩ := cleared
  · exact ⟨rfl, rfl⟩
  · exact ⟨sound.rooted.node?_removeAt_of_ne (Companion.ne_directory_of_isFilled filled)
      (location.beside_ne (by decide)), rfl⟩

/-- What clearing away a journal leaves. -/
theorem Clears.besides (sound : fs.Sound) (cleared : fs.Clears location mode fs') :
    fs'.Sound ∧ fs.Besides location fs' ∧
      (fs.companion location.log ≠ .directory → fs'.companion location.log ≠ .directory) := by
  obtain rfl | ⟨-, filled, rfl⟩ := cleared
  · exact ⟨sound, .refl _ _, id⟩
  · refine ⟨sound.removeAt _,
      .removeAt sound.rooted (Companion.ne_directory_of_isFilled filled) (.inl rfl), ?_⟩
    intro noDirectory directory
    rw [companion_of_removeAt (by rw [directory]; exact nofun)] at noDirectory
    exact noDirectory directory

namespace Tends

theorem besides (sound : fs.Sound) (plain : location.IsPlain)
    (tends : fs.Tends location mode fs') : fs.Besides location fs' := by
  cases tends with
  | clear cleared => exact (cleared.besides sound).2.1
  | leftover cleared filled =>
    obtain ⟨sound', besides, stays⟩ := cleared.besides sound
    obtain ⟨same, held⟩ := cleared.keeps sound
    exact besides.trans same held
      (.removeAt sound'.rooted (stays (Companion.ne_directory_of_isFilled filled)) (.inr rfl))
  | index cleared filled =>
    obtain ⟨-, besides, -⟩ := cleared.besides sound
    obtain ⟨same, held⟩ := cleared.keeps sound
    exact besides.trans same held (.ensureIndex _ plain)

/-- A store for reading does nothing about a journal. -/
theorem journal (rooted : fs.IsRooted) (plain : location.IsPlain)
    (tends : fs.Tends location .readOnly fs') :
    fs'.node? location.journal = fs.node? location.journal := by
  have clear : ∀ {fs'}, fs.Clears location .readOnly fs' → fs' = fs := by
    rintro fs' (rfl | ⟨writes, -⟩)
    · rfl
    · cases writes
  cases tends with
  | clear cleared => rw [clear cleared]
  | leftover cleared filled =>
    rw [clear cleared]
    exact rooted.node?_removeAt_of_ne (Companion.ne_directory_of_isFilled filled)
      (location.beside_ne (by decide))
  | index cleared filled =>
    rw [clear cleared]
    obtain kept | ⟨-, made⟩ | ⟨id, -, made⟩ := fs.ensureIndex_cases plain
    · rw [kept]
    · rw [made]
      exact node?_addFile_of_ne (location.beside_ne (by decide)) _
    · rw [made]
      rfl

/-- **To look at a database leaves the tree undisturbed.** -/
theorem undisturbed (sound : fs.Sound) (plain : location.IsPlain)
    (tends : fs.Tends location mode fs') : fs.Undisturbed location mode fs' := by
  refine ⟨tends.same, tends.besides sound plain, fun reads => ?_⟩
  subst reads
  exact tends.journal sound.rooted plain

end Tends

/-- What looking at a database leaves of the tree; where there is none, all is as it was. -/
def UndisturbedAt (fs : FileSystem) (database : Option (Location × AccessMode))
    (fs' : FileSystem) : Prop :=
  match database with
  | none => fs' = fs
  | some (location, mode) => fs.Undisturbed location mode fs'

theorem UndisturbedAt.refl (fs : FileSystem) (database : Option (Location × AccessMode)) :
    fs.UndisturbedAt database fs := by
  cases database with
  | none => rfl
  | some database => exact Undisturbed.refl fs

end FileSystem

/-! ### Stores -/

open FileSystem

namespace Attached

variable {a : Attached} {fs : FileSystem} {location : Location} {id : FileId} {store : Store}

theorem clear_companion (rooted : fs.IsRooted) (location : Location) :
    fs.clear location (fs.companion location) = fs := by
  cases there : fs.companion location with
  | nothing => exact rooted.removeAt_of_nothing there
  | directory | file => rfl

/-- The journal is cleared away in the tree if it is for the connection. -/
theorem clears_of_beside (rooted : fs.IsRooted) {c₀ c : Connection} (beside : c₀.Beside c)
    (journal : c₀.journal = fs.companion location.journal) :
    fs.Clears location c₀.mode (fs.clear location.journal c.journal) := by
  obtain same | ⟨clears, gone⟩ := beside.journal
  · rw [same, journal, clear_companion rooted]
    exact .inl rfl
  · obtain ⟨writes, -, filled⟩ := Connection.clearsJournal_eq_true clears
    rw [gone]
    exact .inr ⟨writes, journal ▸ filled, rfl⟩

/-- Where no log is found, none is when a journal is cleared away. -/
theorem log_of_clears {mode : AccessMode} {fs' : FileSystem}
    (cleared : fs.Clears location mode fs') (nothing : fs.companion location.log = .nothing) :
    fs'.companion location.log = .nothing := by
  obtain rfl | ⟨-, -, rfl⟩ := cleared
  · exact nothing
  · by_contra something
    rw [companion_of_removeAt something] at nothing
    exact something nothing

theorem load_memory {m : MemoryStore} (fs : FileSystem) (engine : a.store.engine = .memory m) :
    a.load fs = a.store := by
  unfold load
  rw [engine]

/-- **To put back a store that was at most looked at** writes to no file but the index to a log. -/
theorem save_of_looks (inOrder : a.InOrder) (sound : fs.Sound)
    (looks : (a.load fs).Looks store) : (a.save fs store).2 = fs ∨
      ∃ location id c, a.file = some (location, id) ∧ a.store.engine = .connection c ∧
        fs.Tends location c.mode (a.save fs store).2 := by
  cases engine : a.store.engine with
  | memory m =>
    have kept := looks.memory m (by rw [load_memory fs engine, engine])
    unfold save
    rw [kept]
    exact .inl rfl
  | connection c₁ =>
    cases file : a.file with
    | none =>
      unfold save
      rw [file]
      cases store.engine <;> exact .inl rfl
    | some at' =>
      obtain ⟨location, id⟩ := at'
      obtain ⟨c₀, loaded, mode, isLogged, journal, log⟩ := load_connection fs engine file
      obtain ⟨c, engine', here⟩ := looks.connection c₀ loaded
      obtain ⟨journal', log'⟩ := here.beside
      have cleared := clears_of_beside sound.rooted here.beside journal
      have unchanged : (store.content? != (a.load fs).content?) = false := by
        rw [Store.content?, Store.content?, engine', loaded]
        simp [here.content]
      have logged : c₀.isLogged = true → a.log.isSome = true := fun h =>
        inOrder.logged c₁ location id engine file (isLogged ▸ h)
      refine .inr ⟨location, id, c₁, rfl, rfl, ?_⟩
      unfold save
      rw [engine', file]
      dsimp only
      rw [unchanged]
      generalize fs.clear location.journal c.journal = fs' at cleared ⊢
      obtain ⟨sound', -, -⟩ := cleared.besides sound
      have none := log_of_clears cleared
      rw [mode] at cleared
      rw [log] at log'
      have stays : c.log = fs.companion location.log → fs'.clear location.log c.log = fs' := by
        intro same
        rw [same]
        cases there : fs.companion location.log with
        | nothing => exact sound'.rooted.removeAt_of_nothing (none there)
        | directory | file => rfl
      obtain ⟨same, same'⟩ | ⟨direct, filled, ⟨gone, direct'⟩ | ⟨same, taken⟩⟩ := log'
      · -- nothing becomes of the log
        rw [stays same]
        cases working : c.isLogged with
        | false => exact .clear cleared
        | true =>
          have has := logged (same' ▸ working)
          rw [if_pos rfl, has]
          exact .clear cleared
      · rw [gone, direct']
        exact .leftover cleared filled
      · rw [stays same, taken, if_pos rfl]
        cases a.log.isSome with
        | false => exact .index cleared filled
        | true => exact .clear cleared

/-- To put a store back as it was taken changes nothing in the tree. -/
theorem save_load (inOrder : a.InOrder) (rooted : fs.IsRooted) :
    (a.save fs (a.load fs)).2 = fs := by
  cases engine : a.store.engine with
  | memory m =>
    unfold save
    rw [load_memory fs engine, engine]
  | connection c =>
    cases file : a.file with
    | none =>
      unfold save
      rw [file]
      cases (a.load fs).engine <;> rfl
    | some at' =>
      obtain ⟨location, id⟩ := at'
      obtain ⟨c₀, loaded, -, isLogged, journal, log⟩ := load_connection fs engine file
      unfold save
      rw [loaded, file, bne_self_eq_false]
      dsimp only
      rw [journal, log, clear_companion rooted, clear_companion rooted, isLogged]
      cases working : c.isLogged with
      | false => rfl
      | true =>
        have has := inOrder.logged c location id engine file working
        rw [if_pos rfl, has]
        rfl

/-- The database that a store has open, and how. -/
def database? (a : Attached) : Option (Location × AccessMode) :=
  match a.store.engine, a.file with
  | .connection c, some (location, _) => some (location, c.mode)
  | _, _ => none

theorem database?_of_looks (looks : (a.load fs).Looks store) :
    (a.save fs store).1.database? = a.database? := by
  unfold database?
  rw [save_store, save_file]
  cases file : a.file with
  | none => cases store.engine <;> cases a.store.engine <;> rfl
  | some at' =>
    cases engine : a.store.engine with
    | memory m => rw [looks.memory m (by rw [load_memory fs engine, engine])]
    | connection c =>
      obtain ⟨c₀, loaded, mode, -⟩ := load_connection fs engine file
      obtain ⟨c', engine', here⟩ := looks.connection c₀ loaded
      rw [engine']
      dsimp only
      rw [here.mode, mode]

/-- **Looking leaves the tree undisturbed.** -/
theorem undisturbed_of_looks (inOrder : a.InOrder) (sound : fs.Sound)
    (looks : (a.load fs).Looks store) : fs.UndisturbedAt a.database? (a.save fs store).2 := by
  obtain same | ⟨location, id, c, file, engine, tends⟩ := save_of_looks inOrder sound looks
  · rw [same]
    exact .refl fs _
  · have there : a.database? = some (location, c.mode) := by
      unfold database?
      rw [engine, file]
    rw [there]
    exact tends.undisturbed sound (inOrder.plain location id file)

/-- A store for reading leaves the tree when it is closed. -/
theorem close_of_reading (fs : FileSystem) (reads : a.database? = some (location, .readOnly))
    (isShared : Bool) : a.close fs isShared = fs := by
  unfold database? at reads
  unfold close
  cases engine : a.store.engine with
  | memory m => rfl
  | connection c =>
    cases file : a.file with
    | none => rfl
    | some at' =>
      rw [engine, file] at reads
      obtain ⟨-, mode⟩ := Prod.mk.inj (Option.some.inj reads)
      cases a.log with
      | none => rfl
      | some log =>
        dsimp only
        rw [mode]
        simp [AccessMode.isReadOnly]

end Attached

end SealedLog
