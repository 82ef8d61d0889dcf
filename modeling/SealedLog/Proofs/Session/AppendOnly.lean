import SealedLog.Proofs.Session.Office.Tenancy

/-!
# What is written stays

Rows are only ever added: to a store that sessions share, whatever they do with it, and to the
backing files of a tree in which sessions work, as long as no manifest goes by the name of a backing
file or of what stands beside one. A session that reads leaves the rows, the ledger, its nonce and
the tree as they were.

* `Session.openAt_disturbs`: what opening a directory can do to files that are there;
* `append_only`: what stays.
-/

namespace SealedLog

variable {H : HashFunction}

/-- Two directories in which opening changes a file that another session has left. A session that
keeps its manifest under the name of the log of its database leaves one with octets in it; a session
that then opens the database to read makes an index to it. And a session whose manifest goes by the
path of the backing file of another one opens a directory of its own: it writes its manifest over
the rows of the other. -/
theorem Session.openAt_disturbs :
    let config : SessionConfig := { manifestName := "n.db3-wal" }
    let written := (ofNonce (Nonce.fill 1) config).openAt {} 0 { uri := ⟨"/n"⟩, mode := .readWrite }
    let read := (ofNonce (Nonce.fill 2) config).openAt written.files 1
      { uri := ⟨"/n"⟩, mode := .readOnly }
    let made := (ofNonce (Nonce.fill 1) {}).openAt {} 0 { uri := ⟨"/a"⟩, mode := .readWrite }
    let d : Desk := ⟨made.session, made.files, made.answer.toOption.getD default⟩
    let created := d.call (fun _ => default) (.create ⟨"trades", "Trade", "json"⟩)
    let beside := (ofNonce (Nonce.fill 2) { manifestName := "../a/a.db3" }).openAt created.files 1
      { uri := ⟨"/b"⟩, mode := .readWrite }
    (written.session.isOpen = true ∧ read.session.mode = some .readOnly ∧
      written.files.isFile ⟨"/n/n.db3-shm"⟩ = false ∧
      read.files.isFile ⟨"/n/n.db3-shm"⟩ = true) ∧
    (made.session.isOpen = true ∧ beside.session.isOpen = true ∧
      created.files.node? ["a", "a.db3"] = some (.file 0) ∧
      beside.files.node? ["a", "a.db3"] = some (.file 0) ∧
      (created.files.content 0).tables.streams.length = 1 ∧
      (beside.files.content 0).tables.streams = []) := by
  intro config written read made d created beside
  have valid : StreamDescriptor.validate ⟨"trades", "Trade", "json"⟩ = .ok () := by decide
  have inserts : created = _ := congrArg (fun o : Outcome SessionAnswer => d.put o.session o.store)
    (create_of_inserted rfl rfl (StreamRegistry.anchor_const default valid) rfl)
  refine ⟨by decide +kernel, ?_⟩
  dsimp only [beside]
  rw [inserts]
  decide +kernel

/-- A session that writes a backing file has the rows in its store that the file holds. -/
theorem Office.InOrder.tables_of_writes {f : Office} {made : List Founded}
    (inOrder : f.InOrder H made) {i : String} {s : Seat} {b : Location}
    (there : f.seats i = some s) (writes : s.writes? = some b) :
    ∃ id, b.IsBacking ∧ f.files.node? b = some (.file id) ∧
      (f.desk s).store.tables = (f.files.content id).tables := by
  cases inOrder.sits i s there with
  | closed _ _ none =>
    rw [Seat.writes?_of_no_file none] at writes
    cases writes
  | reads _ _ reads =>
    rw [Seat.writes?_of_reads reads] at writes
    cases writes
  | writes _ _ _ _ serves _ =>
    rw [Seat.writes?_of_serves serves] at writes
    cases writes
    exact ⟨_, serves.backing.named, serves.backing.file, serves.tables⟩

/-- Whatever is commanded of sessions, the backing files keep their rows. -/
theorem Workspace.Houses.extends {w : Workspace} {f : Office} {made : List Founded}
    (houses : w.Houses f) (inOrder : f.InOrder H made)
    {commands : List (String × SessionCommand)} (allows : ∀ c ∈ commands, w.Allows c.2) :
    w.files.Extends (w.run H (commands.map fun c => .session c.1 c.2)).1.files := by
  obtain ⟨more, f', run, houses'⟩ := houses.run inOrder allows
  rw [houses.files, houses'.files]
  exact (run.continues inOrder).2

/-- **What is written stays, and what reads touches nothing.** The rows of a store are the first
ones of its rows after any steps of any sessions, the records of each stream likewise, and rows keep
their numbers. So are those of the backing files in a tree in which sessions work whose manifests
stand in nobody's way, and such a session writes to the rows of its file; the commands of a
workspace come to such steps. Whatever sessions do, trees stay sound and stores in order; and there,
whatever a session does that reads leaves the rows, the ledger, its nonce and the tree as they were,
but for a journal or a log that was left beside its database, and the index to the log. -/
theorem append_only (H : HashFunction) :
    (∀ (shared : StoreKey) (f f' : Fleet), Relation.ReflTransGen (Fleet.Step H shared) f f' →
      (f.stores shared).tables.Extends (f'.stores shared).tables) ∧
    (∀ (f₀ f : Office) (made : List Founded), f₀.files.Sound → (∀ i, f₀.seats i = none) →
      f₀.Run H made f →
      (∀ (more : List Founded) (f' : Office), f.Run H more f' → f.files.Extends f'.files) ∧
      (∀ i s b, f.seats i = some s → s.writes? = some b →
        ∃ id, b.IsBacking ∧ f.files.node? b = some (.file id) ∧
          (f.desk s).store.tables = (f.files.content id).tables) ∧
      ∀ (w : Workspace) (commands : List (String × SessionCommand)), w.Houses f →
        (∀ c ∈ commands, w.Allows c.2) →
        w.files.Extends (w.run H (commands.map fun c => .session c.1 c.2)).1.files) ∧
    (∀ d d' : Desk, d.InOrder → d.Step H d' → d'.InOrder) ∧
    ∀ (d d' : Desk) (database : Option (Location × AccessMode)) (deed : Deed), d.InOrder →
      d.Reads H database deed d' → d.Untouched database deed d' := by
  refine ⟨fun _ _ _ => Fleet.extends_of_run, fun f₀ f made sound empty run => ?_,
    fun _ _ => Desk.InOrder.step, fun _ _ _ _ inOrder reads => reads.untouched inOrder⟩
  obtain ⟨inOrder, -⟩ := run.continues (.of_empty sound empty)
  exact ⟨fun more f' run' => (run'.continues inOrder).2,
    fun i s b there writes => inOrder.tables_of_writes there writes,
    fun w commands houses allows => houses.extends inOrder allows⟩

/-- One session makes a storage and creates a stream there, and another one opens it to read; and a
session creates a stream in a store that it shares with others. -/
theorem append_only_of_reopened :
    let H : HashFunction := fun _ => default
    let trades : StreamDescriptor := ⟨"trades", "Trade", "json"⟩
    let s := Session.ofNonce (Nonce.fill 1) {}
    let r := Session.ofNonce (Nonce.fill 2) {}
    let made := s.openAt {} 0 { uri := ⟨"/data"⟩, mode := .readWrite }
    let d : Desk := ⟨r, made.files, default⟩
    let f : Fleet :=
      { stores := fun _ => .inMemory, sessions := fun _ => some r, attachments := fun _ => 0 }
    let attached := (r.attach .inMemory 0 .readWrite).session
    let f' := (f.attach 0 r 0 .readWrite).call H 0 attached 0 (.create trades)
    made.session.isOpen = true ∧ d.InOrder ∧
      (∃ founded o s', Office.Run H ⟨{}, fun _ => none⟩ founded o ∧ o.seats "one" = some s' ∧
        o.files = made.files ∧ o.files.Extends ((o.desk s').call H (.create trades)).files) ∧
      (∃ d', d'.session.isOpen = true ∧
        d.Untouched (some (["data", "data.db3"], .readOnly)) {} d') ∧
      (f'.stores 0).tables.streams.length = 1 ∧
      (f.stores 0).tables.Extends (f'.stores 0).tables := by
  have named : ({ uri := ⟨"/data"⟩, mode := .readWrite } : Opening).backingName? =
      some "data.db3" := rfl
  have fits : ({ uri := ⟨"/data"⟩, mode := .readWrite } : Opening).Fits :=
    .of_backingName? named (by decide)
  obtain ⟨a, opens⟩ : ∃ a, ((Session.ofNonce (Nonce.fill 1) {}).openAt {} 0
      { uri := ⟨"/data"⟩, mode := .readWrite }).answer = .ok a := ⟨_, rfl⟩
  have file : a.file = some (["data", "data.db3"], 0) :=
    (congrArg (fun answer => (Except.toOption answer).bind Attached.file) opens).symm.trans rfl
  intro H trades s r made d f attached f'
  have valid : trades.validate = .ok () := by decide
  obtain ⟨grows, stays, keeps, leaves⟩ := append_only H
  have start : (⟨s, {}, default⟩ : Desk).InOrder := ⟨.empty, .of_no_file rfl⟩
  have inOrder : d.InOrder :=
    ⟨(keeps _ _ start (.openAt 0 { uri := ⟨"/data"⟩, mode := .readWrite })).files, .of_no_file rfl⟩
  let o₁ : Office := Office.put ⟨{}, fun _ => none⟩ "one" {} (some ⟨s, default⟩)
  let o₂ := o₁.put "one" made.files (some ⟨made.session, a⟩)
  have founds : o₁.Does H "one" [⟨"one", ⟨"/data/data.db3"⟩, ["data", "data.db3"], 0⟩] o₂ :=
    .found (f := o₁) (s := ⟨s, default⟩) rfl 0 rfl fits opens named file
  have run : Office.Run H ⟨{}, fun _ => none⟩ _ o₂ :=
    .step (.step .start (.enter rfl rfl rfl Manifest.isHarmless_defaultName)) founds
  obtain ⟨stay, -⟩ := stays _ o₂ _ .empty (fun _ => rfl) run
  have reads := Desk.Reads.openAt (H := H) (d := d) 1 { uri := ⟨"/data"⟩, mode := .readOnly } rfl
  have there : d.session.databaseAt d.files ⟨"/data"⟩ = some ["data", "data.db3"] := by
    decide +kernel
  have attaches : Fleet.Step H 0 f (f.attach 0 r 0 .readWrite) := .attach rfl 0 .readWrite
  have creates : Fleet.Step H 0 (f.attach 0 r 0 .readWrite) f' := .call rfl rfl _
  have created : (f'.stores 0).tables.streams.length = 1 := by
    show (Store.tables (attached.call H _ _).store).streams.length = 1
    rw [Session.create_of_inserted rfl rfl (StreamRegistry.anchor_const default valid) rfl]
    rfl
  rw [there] at reads
  have seat : o₂.seats "one" = some ⟨made.session, a⟩ := Office.seats_put ..
  have more := stay _ _ (.single (.call seat (.create trades)))
  refine ⟨by decide +kernel, inOrder, ⟨_, o₂, _, run, seat, rfl, more⟩, ?_, created, ?_⟩
  · exact ⟨_, by decide +kernel, leaves _ _ _ _ inOrder reads⟩
  · exact grows 0 _ _ (.tail (.single attaches) creates)

end SealedLog
