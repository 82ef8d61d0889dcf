import Mathlib.Tactic.SplitIfs
import SealedLog.Proofs.Except
import SealedLog.Proofs.Store.Changes
import SealedLog.Session.Open

/-!
# Opening and closing

Opening a session, on a store or on a directory, either is refused and leaves the session as it is,
or opens a closed session; what the session has registered stays. Closing a session forgets its
streams and keeps its nonce.

* `Session.attach_cases`, `Session.openAt_cases`: refused, or open from now on;
* `Session.close_cases`: the session that closing leaves;
* `Session.openWriting_eq_ok`, `furnish_eq_ok`, `refreshManifest_eq_ok`: the steps of making a
  storage that succeeds.
-/

namespace SealedLog

namespace Session

variable {s : Session}

/-- Attaching is refused, or opens a closed session; either way the rows stay. -/
theorem attach_cases (s : Session) (store : Store) (key : StoreKey) (mode : AccessMode) :
    (s.attach store key mode).store.tables = store.tables ∧
      ((∃ e, (s.attach store key mode).answer = .error e ∧
          (s.attach store key mode).session = s) ∨
        (s.attach store key mode).answer = .ok () ∧ s.opened = none ∧
          (s.attach store key mode).session =
            { s with opened := some { store := key, mode := mode } }) := by
  unfold attach isOpen
  cases ho : s.opened with
  | some o => exact ⟨rfl, .inl ⟨_, rfl, rfl⟩⟩
  | none =>
    rw [if_neg (c := (none : Option OpenState).isSome = true) Bool.false_ne_true]
    split_ifs
    · exact ⟨rfl, .inr ⟨rfl, rfl, rfl⟩⟩
    · have kept := store.tables_createSchema
      rcases hc : store.createSchema with ⟨store', e | _⟩ <;> rw [hc] at kept
      · exact ⟨kept, .inl ⟨_, rfl, rfl⟩⟩
      · exact ⟨kept, .inr ⟨rfl, rfl, rfl⟩⟩

/-- What opening a storage for reading or for writing leaves, unless the session was open. -/
def Entered (s : Session) (key : StoreKey) (outcome : OpenOutcome) : Prop :=
  (∃ e, outcome.answer = .error e ∧ outcome.session = s) ∨
    ∃ attached o, outcome.answer = .ok attached ∧ o.store = key ∧
      outcome.session = { s with opened := some o }

theorem openReading_entered (s : Session) (fs : FileSystem) (key : StoreKey) (o : Opening) :
    s.Entered key (s.openReading fs key o) := by
  unfold openReading
  split
  · exact .inl ⟨_, rfl, rfl⟩
  · split
    · exact .inl ⟨_, rfl, rfl⟩
    · exact .inr ⟨_, _, rfl, rfl, rfl⟩

theorem openWriting_entered (s : Session) (fs : FileSystem) (key : StoreKey) (o : Opening) :
    s.Entered key (s.openWriting fs key o) := by
  unfold openWriting
  split
  · exact .inl ⟨_, rfl, rfl⟩
  · split
    · exact .inl ⟨_, rfl, rfl⟩
    · dsimp only
      split_ifs
      · exact .inl ⟨_, rfl, rfl⟩
      · split
        · exact .inl ⟨_, rfl, rfl⟩
        · split
          · exact .inl ⟨_, rfl, rfl⟩
          · exact .inr ⟨_, _, rfl, rfl, rfl⟩

/-- Opening a directory is refused, or opens a closed session. -/
theorem openAt_cases (s : Session) (fs : FileSystem) (key : StoreKey) (o : Opening) :
    (∃ e, (s.openAt fs key o).answer = .error e ∧ (s.openAt fs key o).session = s) ∨
      s.opened = none ∧ ∃ attached o', (s.openAt fs key o).answer = .ok attached ∧
        o'.store = key ∧ (s.openAt fs key o).session = { s with opened := some o' } := by
  unfold openAt isOpen
  cases ho : s.opened with
  | some o => exact .inl ⟨_, rfl, rfl⟩
  | none =>
    rw [if_neg (c := (none : Option OpenState).isSome = true) Bool.false_ne_true]
    split_ifs
    · exact (s.openReading_entered fs key o).imp_right fun h => ⟨rfl, h⟩
    · exact (s.openWriting_entered fs key o).imp_right fun h => ⟨rfl, h⟩

/-- A session that has opened a directory was closed, and is open from now on. -/
theorem openAt_eq_ok {fs : FileSystem} {key : StoreKey} {o : Opening} {attached : Attached}
    (h : (s.openAt fs key o).answer = .ok attached) :
    s.opened = none ∧ ∃ o', o'.store = key ∧
      (s.openAt fs key o).session = { s with opened := some o' } := by
  obtain ⟨e, refused, -⟩ | ⟨closed, _, o', -, entered⟩ := s.openAt_cases fs key o
  · rw [h] at refused
    cases refused
  · exact ⟨closed, o', entered⟩

/-- A session that could not open a directory is as it was. -/
theorem openAt_eq_error {fs : FileSystem} {key : StoreKey} {o : Opening} {e : SessionError}
    (h : (s.openAt fs key o).answer = .error e) : (s.openAt fs key o).session = s := by
  obtain ⟨_, -, same⟩ | ⟨-, _, _, opens, -⟩ := s.openAt_cases fs key o
  · exact same
  · rw [h] at opens
    cases opens

theorem registry_attach (s : Session) (store : Store) (key : StoreKey) (mode : AccessMode) :
    (s.attach store key mode).session.registry = s.registry := by
  obtain ⟨-, ⟨_, -, same⟩ | ⟨-, -, same⟩⟩ := s.attach_cases store key mode <;> rw [same]

theorem registry_openAt (s : Session) (fs : FileSystem) (key : StoreKey) (o : Opening) :
    (s.openAt fs key o).session.registry = s.registry := by
  obtain ⟨_, -, same⟩ | ⟨-, _, _, -, -, same⟩ := s.openAt_cases fs key o <;> rw [same]

/-- A session that was closed stays as it is; one that was open is released. -/
theorem close_cases (s : Session) (fs : FileSystem) (attached : Attached) :
    s.opened = none ∧ (s.close fs attached).session = s ∨
      (s.close fs attached).session = s.release := by
  unfold close
  cases ho : s.opened with
  | none => exact .inl ⟨rfl, rfl⟩
  | some o => exact .inr rfl

section

variable {fs : FileSystem} {key : StoreKey} {o : Opening} {attached : Attached}

/-- What opening for writing has gone through once it succeeds. -/
theorem openWriting_eq_ok (h : (s.openWriting fs key o).answer = .ok attached) :
    ∃ name fs₁ fs₂ new, o.backingName? = some name ∧ fs.makeDirectories o.uri = (fs₁, .ok ()) ∧
      fs₁.isFile (o.uri.join name) = false ∧ fs₁.isDirectory (o.uri.join name) = false ∧
      o.openBacking fs₁ (o.uri.join name) = (fs₂, .ok new) ∧
      s.furnish fs₂ o { store := key, mode := o.mode, uri := some o.uri, files := [name] } new =
        (attached, (s.openWriting fs key o).files, .ok ()) ∧
      (s.openWriting fs key o).session = { s with
        opened := some { store := key, mode := o.mode, uri := o.uri, files := [name] } } := by
  unfold openWriting at h ⊢
  cases named : o.backingName? with
  | none =>
    rw [named] at h
    cases h
  | some name =>
    rw [named] at h
    dsimp only at h ⊢
    rcases made : fs.makeDirectories o.uri with ⟨fs₁, e | _⟩ <;> rw [made] at h
    · cases h
    · dsimp only at h ⊢
      split_ifs at h ⊢ with there
      obtain ⟨noFile, noDirectory⟩ : fs₁.isFile (o.uri.join name) = false ∧
          fs₁.isDirectory (o.uri.join name) = false := by simpa using there
      rcases opened : o.openBacking fs₁ (o.uri.join name) with ⟨fs₂, e | new⟩ <;> rw [opened] at h
      · cases h
      · dsimp only at h ⊢
        rcases done : s.furnish fs₂ o
            { store := key, mode := o.mode, uri := some o.uri, files := [name] } new
          with ⟨attached', fs₃, e | _⟩ <;> rw [done] at h
        · cases h
        · cases h
          exact ⟨name, fs₁, fs₂, new, rfl, rfl, noFile, noDirectory, opened, done, rfl⟩

theorem openAt_of_isOpen (isOpen : s.isOpen = true) (fs : FileSystem) (key : StoreKey)
    (o : Opening) : s.openAt fs key o = ⟨s, fs, .error .alreadyOpen⟩ := by
  rw [openAt, if_pos isOpen]

theorem openAt_of_closed (closed : s.opened = none) (fs : FileSystem) (key : StoreKey)
    (o : Opening) : s.openAt fs key o =
      if o.mode.isReadOnly then s.openReading fs key o else s.openWriting fs key o := by
  rw [openAt, isOpen, closed]
  rfl

theorem openAt_of_readWrite (writes : o.mode = .readWrite)
    (h : (s.openAt fs key o).answer = .ok attached) :
    s.openAt fs key o = s.openWriting fs key o := by
  unfold openAt at h ⊢
  rw [writes] at h ⊢
  split_ifs at h ⊢ with opened reads
  · exact absurd reads (by decide)
  · rfl

/-- What furnishing has gone through once it succeeds. -/
theorem furnish_eq_ok {opened : OpenState} {new : Attached} {files : FileSystem}
    (h : s.furnish fs o opened new = (attached, files, .ok ())) :
    ∃ store, (new.load fs).createSchema = (store, .ok ()) ∧
      s.refreshManifest (new.save fs store).2 opened (new.save fs store).1 =
        (attached, files, .ok ()) := by
  unfold furnish at h
  rcases made : (new.load fs).createSchema with ⟨store, e | _⟩ <;> rw [made] at h
  · cases h
  · exact ⟨store, rfl, h⟩

/-- To keep the manifest the store is asked for its metadata at most. -/
theorem refreshManifest_attached (s : Session) (fs : FileSystem) (o : OpenState) (a : Attached) :
    (s.refreshManifest fs o a).1 = a ∨
      (s.refreshManifest fs o a).1 = (a.save fs (a.load fs).visitMetadata).1 := by
  unfold refreshManifest
  cases o.uri with
  | none => exact .inl rfl
  | some uri =>
    dsimp only
    split_ifs
    · cases (o.metadata (a.load fs)).bind
        (s.saveManifest (a.save fs (a.load fs).visitMetadata).2 uri) <;> exact .inr rfl
    · exact .inl rfl

/-- What keeping the manifest of a session that writes one has gone through once it succeeds: what
the metadata is, and that it was written. -/
theorem refreshManifest_eq_ok {opened : OpenState} {attached' : Attached} {uri : Path}
    {files : FileSystem} (at' : opened.uri = some uri) (mode : opened.mode = .readWrite)
    (writes : s.config.writesManifest = true)
    (h : s.refreshManifest fs opened attached = (attached', files, .ok ())) :
    (attached.save fs (attached.load fs).visitMetadata).1 = attached' ∧
      ∃ m, opened.metadata (attached.load fs) = .ok m ∧
        (attached.save fs (attached.load fs).visitMetadata).2.write (s.manifestPath uri)
          (Manifest.ofMetadata m).document = .ok files := by
  unfold refreshManifest at h
  rw [at', mode, writes] at h
  dsimp only at h
  rw [if_pos (by decide)] at h
  cases kept : (opened.metadata (attached.load fs)).bind
      (s.saveManifest (attached.save fs (attached.load fs).visitMetadata).2 uri) with
  | error e =>
    rw [kept] at h
    cases h
  | ok files' =>
    rw [kept] at h
    cases h
    obtain ⟨m, said, saved⟩ := Except.bind_eq_ok_iff.1 kept
    refine ⟨rfl, m, said, ?_⟩
    unfold saveManifest Manifest.save at saved
    cases put : (attached.save fs (attached.load fs).visitMetadata).2.write (s.manifestPath uri)
        (Manifest.ofMetadata m).document with
    | error e =>
      rw [put] at saved
      cases saved
    | ok files' =>
      rw [put] at saved
      cases saved
      rfl

/-- Closing a session that is open keeps its manifest, whether that succeeds or not. -/
theorem close_of_opened {opened : OpenState} (there : s.opened = some opened) :
    s.close fs attached =
      ⟨s.release, (s.refreshManifest fs opened attached).2.1,
        (s.refreshManifest fs opened attached).1, (s.refreshManifest fs opened attached).2.2⟩ := by
  unfold close
  rw [there]

/-- Closing a session that reads keeps no manifest. -/
theorem close_of_reading (reads : s.mode = some .readOnly) :
    s.close fs attached = ⟨s.release, fs, attached, .ok ()⟩ := by
  obtain ⟨opened, there, mode⟩ := Option.map_eq_some_iff.1 reads
  have kept : s.refreshManifest fs opened attached = (attached, fs, .ok ()) := by
    unfold refreshManifest
    rw [mode]
    cases opened.uri <;> rfl
  rw [close_of_opened there, kept]

end

end Session

end SealedLog
