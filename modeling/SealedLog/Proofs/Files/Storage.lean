import SealedLog.Proofs.Files.Tree
import SealedLog.Proofs.Store.Steady

/-!
# Database files in good order

A storage is a database file in a directory with nothing unfinished beside it. A store that has it
open takes from it what it holds, and puts back what it made of it; all else in the tree stays.

* `FileSystem.Storage`: the file stands under its name and holds this;
* `FileSystem.Spares`: what a database leaves alone in the tree;
* `Attached.Sees`: a store has the file open, and remembers nothing else of it;
* `Storage.load`, `Storage.save`: from the file to the store and back.
-/

namespace SealedLog

theorem Bytes.ofText_append (a b : String) : ofText (a ++ b) = ofText a ++ ofText b := by
  simp [ofText]

@[simp] theorem Location.beside_concat (l : Location) (name suffix : String) :
    Location.beside (l ++ [name]) suffix = l ++ [name ++ suffix] := by
  simp [Location.beside]

/-- What a name ends in tells it from other names. -/
theorem append_ne {suffix short : String} {c : Char} (ends : suffix.toList.getLast? = some c)
    (other : short.toList.getLast? ≠ some c) (name : String) : name ++ suffix ≠ short := by
  rintro rfl
  rw [String.toList_append, List.getLast?_append, ends, Option.some_or] at other
  exact other rfl

/-- A name fits if it fits with a longer ending. -/
theorem IsEntry.log {name : String} (fits : IsEntry (name ++ "-journal")) :
    IsEntry (name ++ "-wal") := by
  have ends : "-wal".toList.getLast? = some 'l' := by decide
  refine ⟨append_ne ends (by decide) name, append_ne ends (by decide) name, ?_⟩
  have fits := fits.fits
  rw [Bytes.ofText_append, List.length_append] at fits ⊢
  have longer : (Bytes.ofText "-journal").length = 8 := by decide
  have shorter : (Bytes.ofText "-wal").length = 4 := by decide
  omega

namespace FileSystem

variable {fs fs' fs'' : FileSystem} {l : Location} {name other : String} {id : FileId}
  {content kept : Content}

theorem ne_append {suffix : String} (some : suffix ≠ "") : name ≠ name ++ suffix := by
  intro same
  have lengths := congrArg String.length same
  rw [String.length_append] at lengths
  exact some (String.length_eq_zero_iff.1 (by omega))

/-- A file stands under its name in a directory, with room for the names of its companions. -/
structure Site (fs : FileSystem) (l : Location) (name : String) (id : FileId) : Prop where
  tree : fs.IsTree
  reaches : fs.Reaches l
  entry : IsEntry name
  fits : IsEntry (name ++ "-journal")
  file : fs.node? (l ++ [name]) = some (.file id)

/-- A database file that holds this, without a journal beside it, or a log that has anything. -/
structure Storage (fs : FileSystem) (l : Location) (name : String) (id : FileId)
    (content : Content) : Prop extends fs.Site l name id where
  journal : fs.node? (l ++ [name ++ "-journal"]) = none
  log : (fs.companion (l ++ [name ++ "-wal"])).isSeen = false
  content : fs.content id = content

/-- What a database leaves alone in the tree: the directories, the other names beside it, and what
other files hold. -/
structure Spares (fs : FileSystem) (l : Location) (name : String) (id : FileId)
    (fs' : FileSystem) : Prop where
  directories : ∀ l', fs.Reaches l' → fs'.Reaches l'
  nodes : ∀ other, other ≠ name ++ "-journal" → other ≠ name ++ "-wal" →
    fs'.node? (l ++ [other]) = fs.node? (l ++ [other])
  contents : ∀ id', id' ≠ id → fs'.content id' = fs.content id'

namespace Spares

theorem refl (fs : FileSystem) : fs.Spares l name id fs :=
  ⟨fun _ h => h, fun _ _ _ => rfl, fun _ _ => rfl⟩

theorem trans (first : fs.Spares l name id fs') (second : fs'.Spares l name id fs'') :
    fs.Spares l name id fs'' where
  directories l' h := second.directories l' (first.directories l' h)
  nodes o journal log := (second.nodes o journal log).trans (first.nodes o journal log)
  contents id' ne := (second.contents id' ne).trans (first.contents id' ne)

theorem setContent (fs : FileSystem) (content : Content) :
    fs.Spares l name id (fs.setContent id content) :=
  ⟨fun _ h => h.of_append (by simp [FileSystem.setContent]; rfl), fun _ _ _ => rfl,
    fun _ ne => content_setContent_of_ne ne content⟩

/-- To take out one of the companions of a database spares all else, unless it is a directory. -/
theorem removeAt (noDirectory : fs.node? (l ++ [other]) ≠ some .directory)
    (companion : other = name ++ "-journal" ∨ other = name ++ "-wal") :
    fs.Spares l name id (fs.removeAt (l ++ [other])) where
  directories l' h := h.removeAt _ noDirectory
  nodes o journal log := by
    refine node?_removeAt fs fun below => ?_
    have same : l ++ [other] = l ++ [o] := below.eq_of_length (by simp)
    have : other = o := by simpa using same
    subst this
    exact companion.elim journal log
  contents _ _ := rfl

end Spares

theorem companion_of_reaches (reaches : fs.Reaches l) (entry : IsEntry other) :
    fs.companion (l ++ [other]) =
      match fs.node? (l ++ [other]) with
      | some .directory => .directory
      | some (.file id) => .file (fs.content id)
      | none => .nothing := by
  rw [companion, reaches.walk_concat entry, found]
  cases fs.node? (l ++ [other]) with
  | none => rfl
  | some node => cases node <;> rfl

theorem node?_removeAt_eq_none {loc loc' : Location} (vacant : fs.node? loc = none) :
    (fs.removeAt loc').node? loc = none := by
  refine Option.eq_none_iff_forall_ne_some.2 fun node there => ?_
  rw [node?_of_removeAt there] at vacant
  cases vacant

/-- A log that is not seen stays so while no other file comes in its place. -/
theorem unseen_of_nodes (reaches : fs.Reaches l) (reaches' : fs'.Reaches l) (entry : IsEntry other)
    (unseen : (fs.companion (l ++ [other])).isSeen = false)
    (node : ∀ node, fs'.node? (l ++ [other]) = some node → fs.node? (l ++ [other]) = some node)
    (contents : ∀ id', fs.node? (l ++ [other]) = some (.file id') →
      fs'.content id' = fs.content id') :
    (fs'.companion (l ++ [other])).isSeen = false := by
  rw [companion_of_reaches reaches entry] at unseen
  rw [companion_of_reaches reaches' entry]
  cases there : fs'.node? (l ++ [other]) with
  | none => rfl
  | some n =>
    rw [node n there] at unseen
    cases n with
    | directory => cases unseen
    | file id' =>
      dsimp only at unseen ⊢
      rwa [contents id' (node _ there)]

namespace Site

theorem lt (site : fs.Site l name id) : id < fs.contents.length := site.tree.backed site.file

theorem place (site : fs.Site l name id) : fs.place (l ++ [name]) id = .inPlace := by
  have fits : isNameTooLong (l ++ [name] : Location).journal = false := by
    rw [Location.journal, Location.beside_concat, isNameTooLong, List.getLast?_concat]
    exact decide_eq_false (Nat.not_lt.2 site.fits.fits)
  rw [FileSystem.place, fits, if_neg Bool.false_ne_true, site.reaches.walk_concat site.entry,
    found, site.file]
  exact if_pos rfl

theorem of_spares (site : fs.Site l name id) (spares : fs.Spares l name id fs')
    (tree : fs'.IsTree) : fs'.Site l name id where
  tree := tree
  reaches := spares.directories l site.reaches
  entry := site.entry
  fits := site.fits
  file := by
    rw [spares.nodes name (ne_append (by decide)) (ne_append (by decide)), site.file]

/-- Once what is gone for the database is taken out of the tree, nothing unfinished is beside it. -/
theorem clear (site : fs.Site l name id)
    (journal : fs.node? (l ++ [name ++ "-journal"]) ≠ some .directory)
    (log : fs.node? (l ++ [name ++ "-wal"]) ≠ some .directory) {companion : Companion}
    (unseen : companion = .nothing ∨ (fs.companion (l ++ [name ++ "-wal"])).isSeen = false) :
    ((fs.clear (l ++ [name ++ "-journal"]) .nothing).clear
        (l ++ [name ++ "-wal"]) companion).Storage l name id (fs.content id) ∧
      fs.Spares l name id ((fs.clear (l ++ [name ++ "-journal"]) .nothing).clear
        (l ++ [name ++ "-wal"]) companion) := by
  have spares : fs.Spares l name id (fs.removeAt (l ++ [name ++ "-journal"])) :=
    .removeAt journal (.inl rfl)
  have site' := site.of_spares spares (site.tree.removeAt _)
  have vacant : (fs.removeAt (l ++ [name ++ "-journal"])).node? (l ++ [name ++ "-journal"]) =
      none := node?_removeAt_self fs (by simp)
  by_cases gone : companion = .nothing
  · have noLog : (fs.removeAt (l ++ [name ++ "-journal"])).node? (l ++ [name ++ "-wal"]) ≠
        some .directory := fun there => log (node?_of_removeAt there)
    have more : (fs.removeAt (l ++ [name ++ "-journal"])).Spares l name id
        ((fs.removeAt (l ++ [name ++ "-journal"])).removeAt (l ++ [name ++ "-wal"])) :=
      .removeAt noLog (.inr rfl)
    have site'' := site'.of_spares more (site'.tree.removeAt _)
    rw [gone]
    refine ⟨⟨site'', node?_removeAt_eq_none vacant, ?_, rfl⟩, spares.trans more⟩
    show (((fs.removeAt _).removeAt _).companion _).isSeen = false
    rw [companion_of_reaches site''.reaches site.fits.log, node?_removeAt_self _ (by simp)]
    rfl
  · have kept : ∀ fs : FileSystem, fs.clear (l ++ [name ++ "-wal"]) companion = fs := by
      intro fs
      cases companion with
      | nothing => exact absurd rfl gone
      | directory | file => rfl
    rw [kept]
    exact ⟨⟨site', vacant, unseen_of_nodes site.reaches site'.reaches site.fits.log
      (unseen.resolve_left gone) (fun _ => node?_of_removeAt) fun _ _ => rfl, rfl⟩, spares⟩

end Site

namespace Storage

theorem noLog (storage : fs.Storage l name id content) :
    fs.node? (l ++ [name ++ "-wal"]) ≠ some .directory := by
  intro there
  have unseen := storage.log
  rw [companion_of_reaches storage.reaches storage.fits.log, there] at unseen
  cases unseen

theorem noJournal (storage : fs.Storage l name id content) :
    fs.node? (l ++ [name ++ "-journal"]) ≠ some .directory := by
  rw [storage.journal]
  exact nofun

/-- The file is written, and nothing else. -/
theorem setContent (storage : fs.Storage l name id content) (content' : Content) :
    (fs.setContent id content').Storage l name id content' ∧
      fs.Spares l name id (fs.setContent id content') := by
  have spares : fs.Spares l name id (fs.setContent id content') := .setContent fs content'
  have site := storage.toSite.of_spares spares (storage.tree.setContent id content')
  refine ⟨⟨site, storage.journal, ?_, content_setContent storage.toSite.lt content'⟩, spares⟩
  refine unseen_of_nodes storage.reaches site.reaches storage.fits.log storage.log
    (fun _ h => h) fun id' there => spares.contents id' fun same => ?_
  -- the log is another file than the database
  have locations := storage.tree.single storage.file (same ▸ there)
  have names : name = name ++ "-wal" := by simpa using locations
  exact ne_append (by decide) names

end Storage

/-! ### Files beside a storage -/

/-- A file beside a database, and beside what the database has of its own. -/
structure IsApart (name other : String) : Prop where
  database : other ≠ name
  journal : other ≠ name ++ "-journal"
  log : other ≠ name ++ "-wal"

theorem concat_ne (ne : other ≠ name) : l ++ [other] ≠ l ++ [name] := fun same =>
  ne (by simpa using same)

/-- A database leaves what stands beside it. -/
theorem Spares.holds (spares : fs.Spares l name id fs') (site : fs.Site l name id)
    (apart : IsApart name other) (holds : fs.Holds (l ++ [other]) kept) :
    fs'.Holds (l ++ [other]) kept := by
  obtain ⟨id', there, content⟩ := holds
  refine ⟨id', (spares.nodes other apart.journal apart.log).trans there, ?_⟩
  rw [spares.contents id', content]
  rintro rfl
  exact concat_ne apart.database (site.tree.single there site.file)

/-- A storage stays when a file is put beside it. -/
theorem Storage.puts (storage : fs.Storage l name id content) (apart : IsApart name other)
    (puts : fs.Puts (l ++ [other]) kept fs') : fs'.Storage l name id content where
  tree := puts.tree
  reaches := puts.directories l storage.reaches
  entry := storage.entry
  fits := storage.fits
  file := by rw [puts.nodes _ (concat_ne apart.database.symm), storage.file]
  journal := by rw [puts.nodes _ (concat_ne apart.journal.symm), storage.journal]
  log := by
    have ne := concat_ne (l := l) apart.log.symm
    refine unseen_of_nodes storage.reaches (puts.directories l storage.reaches) storage.fits.log
      storage.log (fun node there => ?_) fun id' there => puts.contents ne there
    rwa [puts.nodes _ ne] at there
  content := by
    rw [puts.contents (concat_ne apart.database.symm) storage.file, storage.content]

end FileSystem

open FileSystem

namespace Attached

variable {fs : FileSystem} {l : Location} {name : String} {id : FileId} {content : Content}
  {a : Attached}

/-- A store has a file open that holds this, works on no log, and remembers nothing else of the
file. -/
structure Sees (a : Attached) (location : Location) (id : FileId) (content : Content) : Prop where
  file : a.file = some (location, id)
  log : a.log = none
  direct : ∃ c, a.store.engine = .connection c ∧ c.isLogged = false
  seen : ∀ i ∈ a.seen, i.stamp = content.stamp → i.content = content

/-- What a store takes its file to hold is what it holds. -/
theorem Sees.view (sees : a.Sees (l ++ [name]) id content) : a.view content = content := by
  unfold Attached.view
  cases there : a.seen with
  | none => rfl
  | some seen =>
    cases keeps : a.keeps content with
    | false => rfl
    | true =>
      rw [Attached.keeps, there, Bool.and_eq_true, Option.any_some, beq_iff_eq] at keeps
      have same := sees.seen seen there keeps.2
      dsimp only
      rw [same, if_neg (by simpa using keeps.1)]

/-- The store gets what the file holds. -/
theorem Sees.load (sees : a.Sees (l ++ [name]) id content) (site : fs.Site l name id)
    (holds : fs.content id = content) :
    ∃ c c' : Connection, a.store.engine = .connection c ∧
      a.load fs = { a.store with engine := .connection c' } ∧ c'.content = content ∧
      c'.mode = c.mode ∧ c'.hasLooked = false ∧ c'.isLogged = false ∧ c'.place = .inPlace ∧
      c'.journal = fs.companion (l ++ [name ++ "-journal"]) ∧
      c'.log = fs.companion (l ++ [name ++ "-wal"]) := by
  obtain ⟨c, engine, direct⟩ := sees.direct
  have here : a.content fs id c.content = content := by
    rw [Attached.content, sees.log, holds]
    exact sees.view
  refine ⟨c, { c with
    content := a.content fs id c.content
    changes := a.changes (a.content fs id c.content)
    hasLooked := false
    place := fs.place (l ++ [name]) id
    journal := fs.companion (Location.journal (l ++ [name]))
    log := fs.companion (Location.log (l ++ [name])) }, engine, ?_, here, rfl, rfl, direct,
    site.place, ?_, ?_⟩
  · rw [Attached.load, engine, sees.file]
  · rw [Location.journal, Location.beside_concat]
  · rw [Location.log, Location.beside_concat]

/-- The file gets what the store made of it, and all else is spared. -/
theorem Sees.save (sees : a.Sees (l ++ [name]) id content) (site : fs.Site l name id)
    (holds : fs.content id = content) (before : (a.load fs).content? = some content)
    (journal : fs.node? (l ++ [name ++ "-journal"]) ≠ some .directory)
    (log : fs.node? (l ++ [name ++ "-wal"]) ≠ some .directory)
    {store : Store} {c : Connection} {d : Database} (engine : store.engine = .connection c)
    (steady : c.Steady d)
    (unseen : c.log = .nothing ∨ (fs.companion (l ++ [name ++ "-wal"])).isSeen = false)
    (looked : c.hasLooked = true ∨ c.content = content) :
    (a.save fs store).1.store = store ∧
      (a.save fs store).1.Sees (l ++ [name]) id c.content ∧
      (a.save fs store).2.Storage l name id c.content ∧
      fs.Spares l name id (a.save fs store).2 := by
  -- what is compared is what the file held and what the store made of it
  have after : store.content? = some c.content := by
    rw [Store.content?, engine]
    dsimp only
    rw [steady.settle]
  obtain ⟨cleared, spares⟩ := site.clear journal log unseen
  rw [holds] at cleared
  obtain ⟨written, more⟩ := cleared.setContent c.content
  have seen : ∀ i ∈ a.impression c content, i.stamp = c.content.stamp → i.content = c.content := by
    intro i there
    unfold impression at there
    split_ifs at there with kept
    · -- nothing is remembered anew only if nothing was made of the file
      have unchanged : c.content = content := by
        rcases looked with looked | unchanged
        · rw [looked, sees.view] at kept
          have both : c.content = content ∧ a.keeps content = true := by simpa using kept
          exact both.1
        · exact unchanged
      rw [unchanged]
      exact sees.seen i there
    · cases there
      exact fun _ => rfl
    · cases there
      exact fun _ => rfl
  unfold Attached.save
  rw [engine, sees.file]
  dsimp only
  rw [before, after, steady.direct, if_neg Bool.false_ne_true, Location.journal, Location.log,
    Location.beside_concat, Location.beside_concat, steady.journal, cleared.content]
  refine ⟨rfl, ⟨rfl, sees.log, ⟨c, engine, steady.direct⟩, seen⟩, ?_⟩
  by_cases unchanged : c.content = content
  · rw [unchanged]
    simp [cleared, spares]
  · have changed : (some c.content != some content) = true := by simpa using unchanged
    rw [changed, if_pos rfl]
    exact ⟨written, spares.trans more⟩

/-- **A store gets the database of a storage**, in good order. -/
theorem Sees.load_storage {d : Database} {n : Nat} (sees : a.Sees (l ++ [name]) id (.database d n))
    (storage : fs.Storage l name id (.database d n)) :
    ∃ c c' : Connection, a.store.engine = .connection c ∧
      a.load fs = { a.store with engine := .connection c' } ∧ c'.mode = c.mode ∧ c'.Steady d ∧
      c'.content = .database d n := by
  obtain ⟨c, c', engine, loaded, content, mode, -, direct, place, journal, log⟩ :=
    sees.load storage.toSite storage.content
  rw [companion_of_reaches storage.reaches storage.fits, storage.journal] at journal
  refine ⟨c, c', engine, loaded, mode, ⟨⟨n, content⟩, journal, ?_, direct, place⟩, content⟩
  rw [log, storage.log]

/-- **The storage gets what a store made of its database**, and all else is spared. -/
theorem Sees.save_storage {d d' : Database} {n : Nat}
    (sees : a.Sees (l ++ [name]) id (.database d n))
    (storage : fs.Storage l name id (.database d n)) {store : Store} {c : Connection}
    (engine : store.engine = .connection c) (steady : c.Steady d')
    (looked : c.hasLooked = true ∨ c.content = .database d n) :
    (a.save fs store).1.store = store ∧
      (a.save fs store).1.Sees (l ++ [name]) id c.content ∧
      (a.save fs store).2.Storage l name id c.content ∧
      fs.Spares l name id (a.save fs store).2 := by
  obtain ⟨-, c', -, loaded, -, here, content⟩ := sees.load_storage storage
  refine sees.save storage.toSite storage.content ?_ storage.noJournal storage.noLog engine steady
    (.inr storage.log) looked
  rw [loaded, Store.content?]
  dsimp only
  rw [here.settle, content]

end Attached

end SealedLog
