import SealedLog.Proofs.Files.Backing

/-!
# What is left over beside a new database

A new database file has no changes that could be unfinished. A journal or a log that stands beside
it is left over from another one, and a store takes it away: the journal, and the log if there is
anything in it. Nothing else in the tree is touched but the file itself.

* `FileSystem.LeftOver`: what may be taken away beside a new database;
* `FileSystem.Sheds`: nothing else becomes of the tree;
* `Attached.save_sheds`: a store that works on no log does no more than that.
-/

namespace SealedLog

theorem Location.beside_ne_self (l : Location) {suffix : String} (some : suffix ≠ "") :
    l.beside suffix ≠ l := by
  intro same
  have last := congrArg List.getLast? same
  rw [Location.beside, List.getLast?_concat] at last
  exact FileSystem.ne_append some (congrArg (fun o => o.getD "") last).symm

/-- **A log is taken away only if it has anything.** -/
theorem Connection.log_lasting (c₀ : Connection) :
    Connection.Lasting (fun c => c.log = c₀.log ∨ c₀.log.isFilled = true)
      fun c => c.log = c₀.log ∨ c₀.log.isFilled = true where
  settle {c} h := by
    obtain ⟨-, ⟨same, -⟩ | ⟨-, filled, -⟩⟩ := c.beside_settle
    · rwa [same]
    · exact .inr (h.elim (fun same => same ▸ filled) id)
  read {c _} h _ := by
    obtain ⟨-, ⟨same, -⟩ | ⟨-, filled, -⟩⟩ := c.beside_settle
    · rwa [same]
    · exact .inr (h.elim (fun same => same ▸ filled) id)
  weaken h := h
  write h written := by
    obtain ⟨-, rfl⟩ := write_eq_ok written
    exact h
  noted _ _ _ h := h
  readNoted _ _ _ h := h
  begun h _ _ := h

namespace FileSystem

variable {fs fs' fs'' : FileSystem} {location loc : Location} {id : FileId} {companion : Companion}

theorem IsRooted.companion_of_file (rooted : fs.IsRooted) (there : fs.node? loc = some (.file id)) :
    fs.companion loc = .file (fs.content id) := by
  have inside : loc ≠ [] := by
    rintro rfl
    cases there
  obtain ⟨l, name, rfl, reaches, entry⟩ := rooted.exists_entry inside there
  rw [companion_of_reaches reaches entry, there]

/-- What a new database takes away beside it: any journal, and a log that has anything. -/
def LeftOver (location loc : Location) (content : Content) : Prop :=
  loc = location.journal ∨ loc = location.log ∧ content.hasOctets = true

/-- All in the tree is as it was, but that what is left over beside a database may be gone, and that
its file may hold something else. -/
structure Sheds (fs : FileSystem) (location : Location) (fs' : FileSystem) : Prop where
  directories : ∀ loc, fs'.node? loc = some .directory ↔ fs.node? loc = some .directory
  files : ∀ loc id, fs'.node? loc = some (.file id) → fs.node? loc = some (.file id)
  kept : ∀ loc id, fs.node? loc = some (.file id) →
    fs'.node? loc = some (.file id) ∨ LeftOver location loc (fs.content id)
  contents : ∀ loc id, loc ≠ location → fs'.node? loc = some (.file id) →
    fs'.content id = fs.content id

namespace Sheds

theorem refl (fs : FileSystem) (location : Location) : fs.Sheds location fs :=
  ⟨fun _ => .rfl, fun _ _ there => there, fun _ _ there => .inl there, fun _ _ _ _ => rfl⟩

/-- Something is taken away that is left over. -/
theorem removeAt (rooted : fs.IsRooted) (inside : loc ≠ [])
    (noDirectory : fs.companion loc ≠ .directory)
    (leftOver : ∀ id, fs.node? loc = some (.file id) → LeftOver location loc (fs.content id)) :
    fs.Sheds location (fs.removeAt loc) where
  directories other := by
    by_cases same : other = loc
    · rw [same, fs.node?_removeAt_self inside]
      exact iff_of_false nofun (rooted.noDirectory inside noDirectory)
    · rw [rooted.node?_removeAt_of_ne noDirectory same]
  files other id there := node?_of_removeAt there
  kept other id there := by
    by_cases same : other = loc
    · exact .inr (same ▸ leftOver id (same ▸ there))
    · exact .inl ((rooted.node?_removeAt_of_ne noDirectory same).trans there)
  contents _ _ _ _ := rfl

theorem setContent (tree : fs.IsTree) (there : fs.node? location = some (.file id))
    (content : Content) : fs.Sheds location (fs.setContent id content) where
  directories _ := .rfl
  files _ _ there := there
  kept _ _ there := .inl there
  contents loc id' ne there' := by
    refine content_setContent_of_ne ?_ content
    rintro rfl
    exact ne (tree.single there' there)

theorem clear (rooted : fs.IsRooted) (inside : loc ≠ [])
    (noDirectory : companion = .nothing → fs.companion loc ≠ .directory)
    (leftOver : companion = .nothing → ∀ id, fs.node? loc = some (.file id) →
      LeftOver location loc (fs.content id)) : fs.Sheds location (fs.clear loc companion) := by
  cases companion with
  | nothing => exact .removeAt rooted inside (noDirectory rfl) (leftOver rfl)
  | directory | file => exact .refl fs location

/-- The file of the database stays where it is. -/
theorem file (sheds : fs.Sheds location fs') (there : fs.node? location = some (.file id)) :
    fs'.node? location = some (.file id) := by
  refine (sheds.kept location id there).resolve_right ?_
  rintro (journal | ⟨log, -⟩)
  · exact location.beside_ne_self (by decide) journal.symm
  · exact location.beside_ne_self (by decide) log.symm

theorem holds (sheds : fs.Sheds location fs') (ne : loc ≠ location) {content : Content}
    (holds : fs'.Holds loc content) : fs.Holds loc content := by
  obtain ⟨id, there, rfl⟩ := holds
  exact ⟨id, sheds.files loc id there, (sheds.contents loc id ne there).symm⟩

theorem holds_or (sheds : fs.Sheds location fs') (ne : loc ≠ location) {content : Content}
    (holds : fs.Holds loc content) : fs'.Holds loc content ∨ LeftOver location loc content := by
  obtain ⟨id, there, rfl⟩ := holds
  exact (sheds.kept loc id there).imp_left fun still => ⟨id, still, sheds.contents loc id ne still⟩

theorem trans (first : fs.Sheds location fs') (second : fs'.Sheds location fs'') :
    fs.Sheds location fs'' where
  directories loc := (second.directories loc).trans (first.directories loc)
  files loc id there := first.files loc id (second.files loc id there)
  kept loc id there := by
    obtain still | gone := first.kept loc id there
    · refine (second.kept loc id still).imp_right fun gone => ?_
      refine gone.imp_right fun ⟨log, octets⟩ => ⟨log, ?_⟩
      rwa [first.contents loc id (log ▸ location.beside_ne_self (by decide)) still] at octets
    · exact .inr gone
  contents loc id ne there :=
    (second.contents loc id ne there).trans (first.contents loc id ne (second.files loc id there))

end Sheds

end FileSystem

open FileSystem

/-- **What a store does to the tree**, as long as it works on no log: it writes its file, and takes
away what is left over beside it. -/
theorem Attached.save_sheds {fs : FileSystem} {a : Attached} {location : Location} {id : FileId}
    {store : Store} {c c₀ : Connection} (sound : fs.Sound)
    (there : fs.node? location = some (.file id)) (file : a.file = some (location, id))
    (loaded : (a.load fs).engine = .connection c₀) (engine : store.engine = .connection c)
    (direct : c₀.Direct c) (log : c.log = c₀.log ∨ c₀.log.isFilled = true) :
    fs.Sheds location (a.save fs store).2 := by
  obtain ⟨-, -, -, -, -, journalThere, logThere⟩ := connection_of_load loaded file
  -- the journal goes first, then the log
  have first : fs.Sheds location (fs.clear location.journal c.journal) := by
    refine .clear sound.rooted (location.beside_ne_nil _) (fun gone directory => ?_)
      fun _ _ _ => .inl rfl
    rw [direct.journalStays (journalThere.trans directory)] at gone
    cases gone
  have sound₁ := sound.clear location.journal c.journal
  have second : fs.Sheds location
      ((fs.clear location.journal c.journal).clear location.log c.log) := by
    refine first.trans (.clear sound₁.rooted (location.beside_ne_nil _) (fun gone directory => ?_)
      fun gone other here => .inr ⟨rfl, ?_⟩)
    · rw [direct.logStays (logThere.trans (companion_of_clear directory))] at gone
      cases gone
    · have old := first.files _ other here
      have standing := sound.rooted.companion_of_file old
      rw [first.contents _ other (location.beside_ne_self (by decide)) here]
      rcases log with same | filled
      · rw [gone, logThere, standing] at same
        cases same
      · rwa [logThere, standing] at filled
  unfold save
  rw [engine, file]
  dsimp only
  rw [direct.direct, if_neg Bool.false_ne_true]
  dsimp only
  split_ifs
  · exact second.trans (.setContent (sound₁.clear _ _).tree (second.file there) _)
  · exact second

end SealedLog
