import SealedLog.Proofs.Session.Workplace

/-!
# What is written can be read back

A session makes a storage, creates streams and writes records, with whatever fails on the way, and
is closed or just dropped. Any session that then opens the storage for reading gets what the first
one created and wrote.

* `Desk.ReadsBack`: what a session that reads is to be answered;
* `Works.stored_of_leaves`, `Desk.reads_of_stored`: what the end of the first session leaves, and
  what another one reads there;
* `Desk.read_back`: it is.

The path of the backing file must fit in a path and be no URI (`Opening.Fits`): else a file can be
made, but then is taken to be missing.
-/

namespace SealedLog

variable {H : HashFunction}

open FileSystem Manifest

theorem Store.InUse.presents {s : Store} {mode : AccessMode} {before : Content}
    (inUse : s.InUse mode before FaultPlan.none) : s.Presents s.tables := by
  obtain ⟨c, engine, -, ⟨d, t, steady, current⟩, -, -⟩ := inUse.connected
  rw [tables_connection engine, steady.tables current]
  exact ⟨inUse.faults, c, d, engine, steady, current⟩

theorem Session.mode_eq_setting (s : Session) : s.mode = s.setting.map Prod.fst := by
  rw [mode, setting, Option.map_map]
  rfl

namespace Desk

variable {d d₀ d₁ d₂ : Desk} {s r : Session} {fs : FileSystem} {key key' : StoreKey} {o : Opening}
  {uri : Path} {l : Location} {name : String} {id : FileId} {content : Content}
  {turns turns' : List Turn} {t : Tables} {rest : List StoredMessage}

/-- A store without faults presents what its storage holds. -/
theorem Works.presents {mode : AccessMode} (works : d.Works l name id mode content)
    (working : d.store.faults = FaultPlan.none) : d.store.Presents content.tables := by
  obtain ⟨inUse, tables⟩ := works.store
  rw [← inUse.faults, working] at inUse
  exact tables ▸ inUse.presents

/-- No operation of the store was made to fail, and none is. -/
def Untroubled (turns : List Turn) (d : Desk) : Prop :=
  (∀ turn ∈ turns, turn.before.faults = FaultPlan.none) ∧ d.store.faults = FaultPlan.none

/-- **Along a run that only reads, what was delivered and what is left to read are the records.** -/
theorem Run.browses (run : Run H d₀ turns d) (works : d₀.Works l name id .readOnly content)
    (reads : d₀.session.mode = some .readOnly) (ordered : content.tables.Ordered)
    (start : d₀.session.Browses content.tables rest)
    (working : ∀ turn ∈ turns, turn.before.faults = FaultPlan.none) :
    ∃ rest', d.session.Browses content.tables rest' ∧
      turns.flatMap Turn.delivered ++ rest'.map StoredMessage.message =
        rest.map StoredMessage.message := by
  induction run with
  | start => exact ⟨rest, start, rfl⟩
  | fail _ _ ih => exact ih working
  | @turn turns d run c ih =>
    obtain ⟨left, browses, all⟩ := ih fun turn h => working turn (List.mem_append_left _ h)
    obtain ⟨⟨_, works', kept⟩, -, -, setting, -⟩ := run.continues works
    rw [kept rfl] at works'
    have presents := works'.presents (working _ List.mem_concat_self)
    have mode : d.session.mode = some .readOnly := by
      rw [← reads, Session.mode_eq_setting, Session.mode_eq_setting, setting]
    obtain ⟨rest', browses', delivered⟩ := browses.call (H := H) (.presents presents) ordered mode c
    refine ⟨rest', browses', ?_⟩
    rw [List.flatMap_append, List.flatMap_singleton, List.append_assoc, delivered, all]

/-- What a session that reads is answered: the streams, and, with what it has read before, the
records, and the metadata but for the size. -/
structure ReadsBack (d : Desk) (H : HashFunction) (turns : List Turn)
    (streams : List StreamDescriptor) (records : List Message) (m : StorageMetadata) : Prop where
  streams : d.answer H .streams = .ok (.streams streams)
  records : ∃ rest, d.answer H .readAll = .ok (.messages rest) ∧
    turns.flatMap Turn.delivered ++ rest = records
  metadata : ∃ octets, d.answer H .metadata = .ok (.metadata { m with sizeBytes := octets })

theorem Opened.mode_eq {mode : AccessMode} (opened : d.Opened s key uri mode l name id content) :
    d.session.mode = some mode := by
  rw [opened.session]
  rfl

theorem Opened.setting_eq {mode : AccessMode} (opened : d.Opened s key uri mode l name id content) :
    d.session.setting = some (mode, some uri, [name]) := by
  rw [opened.session]
  rfl

theorem Continues.exists_opened {mode : AccessMode}
    (opened : d₀.Opened s key uri mode l name id content)
    (continues : Continues H d₀ l name id mode content turns d) :
    ∃ o, d.session.opened = some o ∧ o.mode = mode ∧ o.files = [name] := by
  obtain ⟨o, there, same⟩ := Option.map_eq_some_iff.1 (continues.setting.trans opened.setting_eq)
  obtain ⟨mode, -, files⟩ : o.mode = mode ∧ o.uri = some uri ∧ o.files = [name] := by
    simpa using same
  exact ⟨o, there, mode, files⟩

/-- A session that opened a storage for reading is answered what the tables say. -/
theorem Opened.readsBack (opened : d₁.Opened r key uri .readOnly l name id content)
    (ordered : content.tables.Ordered) (run : Run H d₁ turns d) (untroubled : Untroubled turns d)
    (octets : UInt64) :
    d.ReadsBack H turns content.tables.streamList
      (content.tables.reading.map StoredMessage.message)
      (.ofStatistics [name] content.tables.statistics octets) := by
  have continues := run.continues opened.works
  obtain ⟨o, there, -, files⟩ := continues.exists_opened opened
  obtain ⟨⟨_, works, kept⟩, -⟩ := continues
  rw [kept rfl] at works
  have presents := works.presents untroubled.2
  have start : d₁.session.Browses content.tables content.tables.reading := by
    rw [opened.session]
    refine ⟨⟨_, rfl, ReadCursor.rest_start ordered⟩, fun o h streams cached => ?_⟩
    cases Option.mem_some_iff.1 h
    cases cached
  obtain ⟨rest, browses, delivered⟩ :=
    run.browses opened.works opened.mode_eq ordered start untroubled.1
  obtain ⟨-, octets', said⟩ := Session.metadata_of_presents there presents
  refine ⟨?_, ⟨rest.map StoredMessage.message, ?_, delivered⟩, octets', ?_⟩
  · rw [answer, Session.call, Outcome.map, (browses.streams_offered (.presents presents)).2]
    rfl
  · rw [answer, Session.call, Outcome.map, (browses.readAll (.presents presents) ordered).2]
    rfl
  · rw [answer, Session.call, Outcome.map, said, files]
    rfl

/-- Closed or dropped, a session that writes leaves a storage in good order: with the manifest of
what it holds, or with the one that was there. -/
theorem Works.stored_of_leaves {m : StorageMetadata} {left : FileSystem}
    (works : d.Works l name id .readWrite content) (archive : d.files.Archive uri l name)
    (setting : d.session.setting = some (.readWrite, some uri, [name]))
    (writes : d.session.config.writesManifest = true)
    (named : d.session.config.manifestName = defaultName) (numbered : content.tables.Numbered)
    (holds : d.files.Holds (l ++ [defaultName]) (.plain (Manifest.ofMetadata m).document))
    (files : m.files = [name]) (leaves : d.Leaves left) :
    ∃ content' m', content'.tables = content.tables ∧ left.Stored uri l name id content' m' := by
  cases leaves with
  | closed done =>
    obtain ⟨content', octets, tables, stored⟩ :=
      works.close_writing archive setting writes named numbered done
    exact ⟨content', _, tables, stored⟩
  | dropped =>
    rw [close_of_sees works.sees]
    exact ⟨content, m, rfl, archive, works.storage, works.database, holds, files⟩

/-- A storage in good order is read, by whatever session opens it, as its tables say; and closing
leaves its manifest. -/
theorem reads_of_stored {m : StorageMetadata} (stored : fs.Stored uri l name id content m)
    (ordered : content.tables.Ordered) (closed : r.opened = none)
    (named : r.config.manifestName = defaultName) (fine : checkPath (uri.join defaultName) = .ok ())
    (key : StoreKey) (octets : UInt64) :
    ∃ d₁, openAt r fs key { uri := uri, mode := .readOnly } = .ok d₁ ∧
      FollowsCommands H r fs key { uri := uri, mode := .readOnly } d₁ ∧ Untroubled [] d₁ ∧
      ∀ turns d₂, Run H d₁ turns d₂ → d₂.close.answer = .ok () ∧
        Manifest.load d₂.closedFiles (uri.join defaultName) =
          Manifest.load fs (uri.join defaultName) ∧
        (Untroubled turns d₂ → d₂.ReadsBack H turns content.tables.streamList
          (content.tables.reading.map StoredMessage.message)
          (.ofStatistics [name] content.tables.statistics octets)) := by
  obtain ⟨d₁, opens, opened, spares, faults⟩ := openAt_reading closed named stored fine key
  have working : d₁.store.faults = FaultPlan.none := opened.works.store.1.faults.trans faults
  refine ⟨d₁, opens, opened.works.followsCommands opens, ⟨fun _ h => (nomatch h), working⟩,
    fun turns d₂ run => ?_⟩
  obtain ⟨⟨_, works, -⟩, more, -, setting, -⟩ := run.continues opened.works
  obtain ⟨answer, same⟩ := works.close_reading (by
    rw [Session.mode_eq_setting, setting, ← Session.mode_eq_setting, opened.mode_eq])
  refine ⟨answer, ?_, fun untroubled => opened.readsBack ordered run untroubled octets⟩
  have still : fs.Spares l name id d₂.files := spares.trans more
  rw [same, Manifest.load_join stored.archive.leads fine stored.manifest,
    Manifest.load_join (stored.archive.mono still.directories).leads fine
      (still.holds stored.storage.toSite stored.archive.apart stored.manifest)]

/-- **What a session creates and writes in a storage of its own can be read back**, whatever fails
on the way, and whether the session is closed or just dropped. Both sessions do what the commands of
a workspace on them do. -/
theorem read_back (tree : fs.IsTree) (fresh : s.registry.streams = [])
    (writes : o.mode = .readWrite) (manifest : s.config.writesManifest = true)
    (named : s.config.manifestName = defaultName)
    (fits : o.Fits) (entered : openAt s fs key o = .ok d₀) (run : Run H d₀ turns d)
    (closed : r.opened = none) (named' : r.config.manifestName = defaultName) :
    FollowsCommands H s fs key o d₀ ∧
    ∃ m, (d.failing FaultPlan.none).answer H .metadata = .ok (.metadata m) ∧
      (d.close.answer = .ok () →
        Manifest.load d.closedFiles (o.uri.join defaultName) = .ok (ofMetadata m)) ∧
      ∀ left, d.Leaves left → ∀ key', ∃ d₁,
        openAt r left key' { uri := o.uri, mode := .readOnly } = .ok d₁ ∧
        FollowsCommands H r left key' { uri := o.uri, mode := .readOnly } d₁ ∧ Untroubled [] d₁ ∧
        ∀ turns' d₂, Run H d₁ turns' d₂ →
          d₂.close.answer = .ok () ∧
          Manifest.load d₂.closedFiles (o.uri.join defaultName) =
            Manifest.load left (o.uri.join defaultName) ∧
          (Untroubled turns' d₂ → d₂.ReadsBack H turns' (Session.created turns)
            ((Session.written turns).mergeSort fun a b => decide (a.timestamp ≤ b.timestamp))
            m) := by
  obtain ⟨l, name, id, content, m₀, opened, empty, files, holds, fine⟩ :=
    openAt_writing tree writes manifest named fits entered
  have continues := run.continues opened.works
  obtain ⟨o', there, -, files'⟩ := continues.exists_opened opened
  obtain ⟨⟨content', works, -⟩, spares, config, setting, run'⟩ := continues
  -- the rows are what was created and written
  have accounts : Session.Accounts content'.tables turns := by
    have none : d₀.store.Holds {} := opened.works.store.2.trans empty
    have fresh' : d₀.session.registry.streams = [] := by
      rw [opened.session]
      exact fresh
    rw [← works.store.2]
    exact run'.accounted (.of_empty fresh' none)
  have presents := (works.failing FaultPlan.none).presents
    (works.failing FaultPlan.none).store.1.faults
  obtain ⟨-, octets, said⟩ := Session.metadata_of_presents there presents
  rw [files'] at said
  have archive := opened.archive.mono spares.directories
  have settings : d.session.config = s.config := by
    rw [config, opened.session]
  have written := setting.trans opened.setting_eq
  have numbered := accounts.ordered.numbered
  refine ⟨opened.works.followsCommands entered,
    .ofStatistics [name] content'.tables.statistics octets, ?_, fun done => ?_,
    fun left leaves key' => ?_⟩
  · show ((d.session.metadata (d.failing FaultPlan.none).store).answer.map _) = _
    rw [said]
    rfl
  · obtain ⟨content'', octets', -, stored⟩ := works.close_writing archive written
      (settings ▸ manifest) (settings ▸ named) numbered done
    rw [Manifest.load_join stored.archive.leads fine stored.manifest, parse_document_ofMetadata]
    rfl
  · -- closed or dropped, it leaves a storage that can be found again
    obtain ⟨content'', m, tables, stored⟩ := works.stored_of_leaves archive written
      (settings ▸ manifest) (settings ▸ named) numbered
      (spares.holds opened.works.storage.toSite opened.archive.apart holds) files leaves
    have reads := reads_of_stored (H := H) stored (tables ▸ accounts.ordered) closed named' fine
      key' octets
    rwa [tables, accounts.streams, accounts.reading_eq] at reads

/-- A session creates a stream, writes a record and one that is late, and is dropped; then it is
made anew and reads. -/
theorem read_back_of_late_record :
    let H : HashFunction := fun _ => default
    let s := Session.ofNonce (Nonce.fill 1) {}
    let o : Opening := { uri := ⟨"/data"⟩, mode := .readWrite }
    ∃ d₀ d turns, openAt s {} 0 o = .ok d₀ ∧ Run H d₀ turns d ∧
      turns.map Turn.call =
        [.create ⟨"trades", "Trade", "json"⟩, .write ⟨"trades", 7, [1]⟩, .write ⟨"trades", 3, []⟩] ∧
      ∃ m left d₁, d.Leaves left ∧ openAt s left 0 { uri := o.uri, mode := .readOnly } = .ok d₁ ∧
        d₁.ReadsBack H [] (Session.created turns)
          ((Session.written turns).mergeSort fun a b => decide (a.timestamp ≤ b.timestamp)) m := by
  have named : ({ uri := ⟨"/data"⟩, mode := .readWrite } : Opening).backingName? =
      some "data.db3" := rfl
  obtain ⟨d₀, entered⟩ : ∃ d₀, openAt (.ofNonce (Nonce.fill 1) {}) {} 0
      { uri := ⟨"/data"⟩, mode := .readWrite } = .ok d₀ := ⟨_, rfl⟩
  intro H s o
  have fits : o.Fits :=
    .of_backingName? named (by decide)
  have run : Run H d₀ _ _ :=
    .turn (.turn (.turn .start (.create ⟨"trades", "Trade", "json"⟩)) (.write ⟨"trades", 7, [1]⟩))
      (.write ⟨"trades", 3, []⟩)
  obtain ⟨-, m, -, -, reads⟩ := read_back (r := s) .empty rfl rfl rfl rfl fits entered run rfl rfl
  obtain ⟨d₁, opens, -, untroubled, all⟩ := reads _ .dropped 0
  obtain ⟨-, -, back⟩ := all [] d₁ .start
  exact ⟨d₀, _, _, entered, run, rfl, m, _, d₁, .dropped, opens, back untroubled⟩

end Desk

end SealedLog
