import SealedLog.Proofs.Session.Office.Tenancy

/-!
# One writer for each backing file

Each backing file is made once, by the session that then writes it; nobody else touches it, and what
is in it passes every audit.

* `Kept.audit`: the audit of a backing file that is kept;
* `Office.one_writer`: each backing file has one writer.

The path of a backing file must fit in a path and be no URI (`Opening.Fits`): else a file can be
made, but then is taken to be missing, so that it can be opened for writing once more. And a
directory may be made in the place of the journal or of the log of a backing file; then nothing can
be read from the file.
-/

namespace SealedLog

open FileSystem Manifest

variable {H : HashFunction} {f f' : Office} {fs : FileSystem} {made more : List Founded}
  {m : Founded} {i : String} {s : Seat}

/-! ### Audits -/

/-- **The audit of a backing file that is kept finds nothing**, unless a directory stands in the
place of its journal or of its log. -/
theorem Kept.audit (kept : Kept H fs m) (sound : fs.Sound) {p : Path}
    (resolved : fs.resolve p = some m.location)
    (journal : fs.companion m.location.journal ≠ .directory)
    (log : fs.companion m.location.log ≠ .directory) :
    ∃ a report, fs.openStore p .readOnly = (fs, .ok a) ∧ (a.load fs).audit H = .ok report ∧
      report.isClean = true := by
  obtain ⟨⟨l, name, at', backing⟩, -, rows, root, nonce, tables, soundRows, threads⟩ := kept
  rw [at'] at resolved journal log
  rw [Location.journal, Location.beside_concat] at journal
  rw [Location.log, Location.beside_concat] at log
  have storage : fs.Storage l name m.id (fs.content m.id) :=
    backing.storage_or_directory.resolve_right fun directory => directory.elim journal log
  obtain ⟨files, a, opens, -, faults, works⟩ :=
    Desk.works_of_openStore (.ofNonce root {}) storage backing.database resolved
  -- nothing stands beside the file that opening it would clear away
  obtain rfl : files = fs := by
    have undisturbed := openStore_reading sound p
    have there : fs.database? p = some (l ++ [name]) := by
      rw [database?, findDatabase_eq resolved backing.reaches backing.entry, backing.file]
      rfl
    rw [opens, there] at undisturbed
    exact undisturbed.same (fun writes => absurd writes (by decide))
      (backing.idle.isFilled_log (backing.reaches.isPlain_concat backing.entry))
  have presents := works.presents (works.store.1.faults.trans faults)
  rw [tables] at presents
  refine ⟨a, _, opens, Store.audit_of_sound presents.tables soundRows threads
    ⟨rows.anchors, ?_, fun anchor _ => ⟨rows.chain anchor.id, ?_⟩⟩,
    AuditReport.isClean_ofStreams ..⟩
  · exact presents.anchors.trans rows.anchorList_tables
  · exact (presents.chain anchor.id).trans (rows.chain_tables anchor.id)

namespace Office

/-- **Each backing file has one writer.** Whatever sessions do in a tree, in any order, no two
openings for writing make the same backing file; a session disturbs no backing file but the one that
it has made and writes; and the audit of each file that was made finds nothing. What commands on
sessions do to a workspace in which these sessions are is such a run. -/
theorem one_writer {f₀ : Office} (sound : f₀.files.Sound) (empty : ∀ i, f₀.seats i = none)
    (run : f₀.Run H made f) :
    (made.map Founded.location).Nodup ∧
    (∀ i b, f.writes? i = some b → ∃ m ∈ made, m.founder = i ∧ m.location = b) ∧
    (∀ i more f', f.Does H i more f' → ∀ b id, b.IsBacking →
      f.files.node? b = some (.file id) → f.writes? i ≠ some b →
      f'.files.node? b = some (.file id) ∧ f'.files.content id = f.files.content id) ∧
    (∀ m ∈ made, f.files.node? m.location = some (.file m.id) ∧
      f.files.resolve m.path = some m.location ∧
      ∀ p, f.files.resolve p = some m.location →
        f.files.companion m.location.journal ≠ .directory →
        f.files.companion m.location.log ≠ .directory →
        ∃ a report, f.files.openStore p .readOnly = (f.files, .ok a) ∧
          (a.load f.files).audit H = .ok report ∧ report.isClean = true) ∧
    ∀ (w : Workspace) (commands : List (String × SessionCommand)), w.Houses f →
      (∀ c ∈ commands, w.Allows c.2) → ∃ more f', f.Run H more f' ∧
        (w.run H (commands.map fun c => .session c.1 c.2)).1.Houses f' := by
  obtain ⟨inOrder, -⟩ := run.continues (.of_empty sound empty)
  rw [List.nil_append] at inOrder
  refine ⟨inOrder.once, fun i b writes => ?_, fun i more f' does b id isBacking there ne => ?_,
    fun m mem => ?_, fun w commands houses allows => houses.run inOrder allows⟩
  · obtain ⟨s, there, writes⟩ := Option.bind_eq_some_iff.1 writes
    exact (inOrder.sits i s there).exists_founded writes
  · have leaves := (does.effect inOrder).respects.backing b id isBacking there ne
    exact ⟨leaves.file, leaves.content⟩
  · have kept := inOrder.kept m mem
    exact ⟨kept.file, kept.resolves _ fun _ reaches => reaches, fun p resolved journal log =>
      kept.audit inOrder.sound resolved journal log⟩

/-- One session opens a directory for writing, and another one comes in: it cannot open the
directory for writing as well, whatever it does leaves the backing file, and the file passes its
audit. The first session is had by commands as well. -/
theorem one_writer_of_two :
    let H : HashFunction := fun _ => default
    let o : Opening := { uri := ⟨"/data"⟩, mode := .readWrite }
    let out := (Session.ofNonce (Nonce.fill 1) {}).openAt {} 0 o
    let other := Session.ofNonce (Nonce.fill 2) {}
    let commands : List (String × SessionCommand) :=
      [("one", .make (Nonce.fill 1) .echo {} .workspace),
        ("one", .openAt "data" .readWrite FaultPlan.none none)]
    (∃ made f, Run H ⟨{}, fun _ => none⟩ made f ∧
      (({ base := ⟨""⟩ } : Workspace).run H
        (commands.map fun c => .session c.1 c.2)).1.Houses f) ∧
    ∃ made f, Run H ⟨{}, fun _ => none⟩ made f ∧ f.files = out.files ∧
      made.map Founded.location = [["data", "data.db3"]] ∧
      f.seats "other" = some ⟨other, default⟩ ∧
      (other.openAt f.files 1 o).session.isOpen = false ∧
      (∀ more f', f.Does H "other" more f' →
        f'.files.node? ["data", "data.db3"] = some (.file 0)) ∧
      ∃ a report, f.files.openStore (o.uri.join "data.db3") .readOnly = (f.files, .ok a) ∧
        (a.load f.files).audit H = .ok report ∧ report.isClean = true := by
  have named : ({ uri := ⟨"/data"⟩, mode := .readWrite } : Opening).backingName? =
      some "data.db3" := rfl
  obtain ⟨a, opens⟩ : ∃ a, ((Session.ofNonce (Nonce.fill 1) {}).openAt {} 0
      { uri := ⟨"/data"⟩, mode := .readWrite }).answer = .ok a := ⟨_, rfl⟩
  have file : a.file = some (["data", "data.db3"], 0) :=
    (congrArg (fun answer => (Except.toOption answer).bind Attached.file) opens).symm.trans rfl
  intro H o out other commands
  have fits : o.Fits :=
    .of_backingName? named (by decide)
  have allows : ∀ c ∈ commands, ({ base := ⟨""⟩ } : Workspace).Allows c.2 := by
    intro c mem
    obtain rfl | rfl : c = _ ∨ c = _ := by simpa [commands] using mem
    · exact isHarmless_defaultName
    · exact fits
  let f₀ : Office := ⟨{}, fun _ => none⟩
  let f₁ := f₀.put "one" {} (some ⟨.ofNonce (Nonce.fill 1) {}, default⟩)
  let f₂ := f₁.put "one" out.files (some ⟨out.session, a⟩)
  let f₃ := f₂.put "other" out.files (some ⟨other, default⟩)
  have enters : f₀.Does H "one" [] f₁ := .enter rfl rfl rfl isHarmless_defaultName
  have founds : f₁.Does H "one" [⟨"one", o.uri.join "data.db3", ["data", "data.db3"], 0⟩] f₂ :=
    .found (f := f₁) (s := ⟨.ofNonce (Nonce.fill 1) {}, default⟩) rfl 0 rfl fits opens named file
  have enters' : f₂.Does H "other" [] f₃ := .enter rfl rfl rfl isHarmless_defaultName
  have run : Run H f₀ _ f₃ := .step (.step (.step .start enters) founds) enters'
  have refused : (other.openAt out.files 1 o).session.isOpen = false := by decide +kernel
  have journal : out.files.companion (Location.journal ["data", "data.db3"]) ≠ .directory := by
    decide +kernel
  have log : out.files.companion (Location.log ["data", "data.db3"]) ≠ .directory := by
    decide +kernel
  obtain ⟨-, -, -, -, commanded⟩ := one_writer .empty (fun _ => rfl) (.start : Run H f₀ [] f₀)
  obtain ⟨-, -, leaves, kept, -⟩ := one_writer .empty (fun _ => rfl) run
  obtain ⟨there, resolved, audit⟩ := kept _ (List.mem_singleton_self _)
  refine ⟨commanded _ commands Workspace.houses_of_bare allows, _, f₃, run, rfl, rfl, rfl, refused,
    fun more f' does => ?_, ?_⟩
  · have free : f₃.writes? "other" = none := rfl
    have leaf : Location.IsBacking ["data", "data.db3"] := ⟨["data"], "data", rfl⟩
    exact (leaves "other" more f' does _ 0 leaf there (by rw [free]; exact nofun)).1
  · exact audit _ resolved journal log

end Office

end SealedLog
