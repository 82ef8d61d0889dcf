import SealedLog.Proofs.Store.Changes
import SealedLog.Session

/-!
# What one call does

A call either leaves the registry and the rows as they are and tells the ledger nothing, or it
creates one stream, or it writes one record.

* `Outcome.Still`: nothing happened but that the store may have been looked at;
* `CallEffect`: the three kinds of calls;
* `Session.call_effect`: every call, failing or not, is of one of them;
* `Session.create_of_inserted`, `write_of_inserted`: calls that succeed.
-/

namespace SealedLog

variable {H : HashFunction}

theorem InputError.lift_eq_ok_iff {α : Type} {x : Except InputError α} {a : α} :
    InputError.lift x = .ok a ↔ x = .ok a := by
  cases x <;> simp [InputError.lift]

theorem StoreError.during_eq_ok_iff {α : Type} {task : Task} {x : Except StoreError α} {a : α} :
    StoreError.during task x = .ok a ↔ x = .ok a := by
  cases x <;> simp [StoreError.during]

/-- A stream that can be anchored, with the nonce after it. -/
theorem StreamRegistry.anchor_eq_ok_iff {r : StreamRegistry} {descriptor : StreamDescriptor}
    {digest : Digest} {next : Nonce} :
    r.anchor H descriptor = .ok (digest, next) ↔
      streamDigest H r.nonce descriptor = .ok digest ∧
        nextNonce H digest descriptor = .ok next := by
  rw [anchor, InputError.lift_eq_ok_iff, Except.bind_eq_ok_iff]
  constructor
  · rintro ⟨digest, hd, h⟩
    obtain ⟨next, hn, h⟩ := Except.bind_eq_ok_iff.1 h
    cases h
    exact ⟨hd, hn⟩
  · rintro ⟨hd, hn⟩
    exact ⟨digest, hd, Except.bind_eq_ok_iff.2 ⟨next, hn, rfl⟩⟩

/-- The store that a session has open. -/
def Session.place (s : Session) : Option StoreKey := s.opened.map OpenState.store

theorem Session.place_of_opened {s : Session} {o : OpenState} (h : s.opened = some o) :
    s.place = some o.store := by
  rw [place, h]
  rfl

theorem Session.place_of_closed {s : Session} (h : s.opened = none) : s.place = none := by
  rw [place, h]
  rfl

/-- Nothing happened but that the store may have been looked at. -/
structure Outcome.Still {α : Type} (o : Outcome α) (s : Session) (store : Store) : Prop where
  place : o.session.place = s.place
  registry : o.session.registry = s.registry
  tables : o.store.tables = store.tables
  events : o.events = []

theorem Outcome.Still.map {α β : Type} {o : Outcome α} {s : Session} {store : Store}
    (h : o.Still s store) (f : α → β) : (o.map f).Still s store :=
  ⟨h.place, h.registry, h.tables, h.events⟩

/-- What a call does: nothing, or it creates a stream, or it writes a record. -/
inductive CallEffect (H : HashFunction) (s : Session) (store : Store) :
    SessionCall → Outcome SessionAnswer → Prop
  | still {c : SessionCall} {o : Outcome SessionAnswer} (still : o.Still s store)
      (unwritten : ∀ digest, o.answer ≠ .ok (.written digest)) : CallEffect H s store c o
  | created {d : StreamDescriptor} {o : Outcome SessionAnswer} {id : StreamId} {digest : Digest}
      {next : Nonce} (place : o.session.place = s.place)
      (unregistered : s.registry.lookup d.name = none)
      (anchored : s.registry.anchor H d = .ok (digest, next))
      (fresh : ∀ row ∈ store.tables.streams, row.descriptor.name ≠ d.name)
      (isNext : store.tables.IsNext id)
      (registry : o.session.registry = s.registry.register d.name id digest next)
      (tables : o.store.tables =
        store.tables.withStream ⟨id, d, s.registry.nonce.bytes, digest.bytes⟩)
      (events : o.events = [.streamCreated ⟨digest, d⟩])
      (answer : o.answer = .ok (.created id)) : CallEffect H s store (.create d) o
  | written {m : Message} {o : Outcome SessionAnswer} {state : StreamState} {digest : Digest}
      {number : Int64} (place : o.session.place = s.place)
      (registered : s.registry.lookup m.stream = some state)
      (linked : recordDigest H state.tip (m.link state.id) = .ok digest)
      (known : ∃ row ∈ store.tables.streams, row.id = state.id)
      (isBehind : store.tables.IsBehind number)
      (registry : o.session.registry = s.registry.advance m.stream digest)
      (tables : o.store.tables =
        store.tables.withRecord ⟨number, state.id, m.timestamp, m.payload, digest.bytes⟩)
      (events : o.events = [.checkpoint ⟨digest, state.nonce, m⟩])
      (answer : o.answer = .ok (.written digest)) : CallEffect H s store (.write m) o

namespace Session

variable {α : Type} {s : Session} {store : Store}

/-! ### Reading -/

theorem tables_cursor_visit (c : ReadCursor) (store : Store) :
    (c.visit store).tables = store.tables := by
  unfold ReadCursor.visit
  split_ifs
  · exact store.tables_visit .page
  · rfl

theorem hasNext_still (s : Session) (store : Store) : (s.hasNext store).Still s store := by
  unfold hasNext
  cases ho : s.opened with
  | none => exact ⟨rfl, rfl, rfl, rfl⟩
  | some o =>
    have place := (place_of_opened ho).symm
    have seen := tables_cursor_visit o.cursor store
    dsimp only
    cases o.cursor.ready store s.config.batch with
    | error e => exact ⟨rfl, rfl, seen, rfl⟩
    | ok cursor => exact ⟨place, rfl, seen, rfl⟩

theorem readNext_still (s : Session) (store : Store) : (s.readNext store).Still s store := by
  unfold readNext
  cases ho : s.opened with
  | none => exact ⟨rfl, rfl, rfl, rfl⟩
  | some o =>
    have place := (place_of_opened ho).symm
    have seen := tables_cursor_visit o.cursor store
    dsimp only
    cases o.cursor.ready store s.config.batch with
    | error e => exact ⟨rfl, rfl, seen, rfl⟩
    | ok cursor =>
      dsimp only
      cases cursor.buffer with
      | nil => exact ⟨place, rfl, seen, rfl⟩
      | cons next rest => exact ⟨place, rfl, seen, rfl⟩

theorem readMany_still (n : Nat) (s : Session) (store : Store) :
    (s.readMany store n).Still s store := by
  induction n generalizing s store with
  | zero => exact ⟨rfl, rfl, rfl, rfl⟩
  | succ n ih =>
    -- each read goes on with the session and the store that the one before it left
    have step := s.readNext_still store
    unfold readMany
    split
    · rename_i h
      rw [h] at step
      exact ⟨step.place, step.registry, step.tables, rfl⟩
    · rename_i h
      rw [h] at step
      exact ⟨step.place, step.registry, step.tables, rfl⟩
    · rename_i s' store' _ _ h
      rw [h] at step
      have rest := ih s' store'
      exact ⟨rest.place.trans step.place, rest.registry.trans step.registry,
        rest.tables.trans step.tables, rest.events⟩

theorem streams_still (s : Session) (store : Store) : (s.streams store).Still s store := by
  unfold streams
  cases ho : s.opened with
  | none => exact ⟨rfl, rfl, rfl, rfl⟩
  | some o =>
    have place := (place_of_opened ho).symm
    have seen := store.tables_visit .streams
    dsimp only
    cases o.streamCache with
    | some streams => exact ⟨rfl, rfl, rfl, rfl⟩
    | none =>
      dsimp only
      cases store.streams with
      | error e => exact ⟨rfl, rfl, seen, rfl⟩
      | ok streams => exact ⟨place, rfl, seen, rfl⟩

theorem tables_visitMetadata (store : Store) : store.visitMetadata.tables = store.tables := by
  unfold Store.visitMetadata
  cases store.statistics with
  | error e => exact store.tables_visit .statistics
  | ok _ => exact (Store.tables_visit _ .size).trans (store.tables_visit .statistics)

theorem metadata_still (s : Session) (store : Store) : (s.metadata store).Still s store := by
  unfold metadata
  cases s.opened with
  | none => exact ⟨rfl, rfl, rfl, rfl⟩
  | some o => exact ⟨rfl, rfl, tables_visitMetadata store, rfl⟩

/-! ### Creating and writing -/

theorem create_effect (s : Session) (store : Store) (d : StreamDescriptor) :
    CallEffect H s store (.create d) ((s.create H store d).map .created) := by
  unfold create
  cases s.writable with
  | error e => exact .still ⟨rfl, rfl, rfl, rfl⟩ fun _ h => nomatch h
  | ok o =>
    dsimp only
    unfold StreamRegistry.create
    cases hl : s.registry.lookup d.name with
    | some state => exact .still ⟨rfl, rfl, rfl, rfl⟩ fun _ h => nomatch h
    | none =>
      dsimp only
      cases ha : s.registry.anchor H d with
      | error e => exact .still ⟨rfl, rfl, rfl, rfl⟩ fun _ h => nomatch h
      | ok made =>
        obtain ⟨digest, next⟩ := made
        -- the registry changes only when the store has taken the row
        have cases := store.insertStream_cases d s.registry.nonce digest
        dsimp only
        rcases hi : store.insertStream d s.registry.nonce digest with ⟨store', e | id⟩ <;>
          rw [hi] at cases
        · obtain ⟨kept, -⟩ | ⟨_, h, -⟩ := cases
          · exact .still ⟨rfl, rfl, kept, rfl⟩ fun _ h => nomatch h
          · cases h
        · obtain ⟨-, _, h⟩ | ⟨_, h, fresh, isNext, put⟩ := cases
          · cases h
          · cases h
            exact .created rfl hl ha fresh isNext rfl put rfl rfl

/-- Making ready for records only looks at the store. -/
theorem tables_openState_prepare (o : OpenState) (store : Store) :
    (o.prepare store).1.tables = store.tables := by
  unfold OpenState.prepare
  split_ifs
  · rfl
  · exact store.tables_prepare

theorem store_of_openState_prepare {o o' : OpenState} {store store' : Store}
    (h : o.prepare store = (store', .ok o')) : o'.store = o.store := by
  unfold OpenState.prepare at h
  split_ifs at h
  · cases h
    rfl
  · obtain ⟨_, made⟩ := Prod.mk.inj h
    obtain ⟨_, _, rfl⟩ := Except.map_eq_ok_iff.1 made
    rfl

theorem append_effect {s t : Session} {store seen : Store} {state : StreamState} {m : Message}
    (registered : s.registry.lookup m.stream = some state) (registry : t.registry = s.registry)
    (place : t.place = s.place) (same : seen.tables = store.tables) :
    CallEffect H s store (.write m) ((t.append H seen state m).map .written) := by
  unfold append
  cases hd : recordDigest H state.tip (m.link state.id) with
  | error e => exact .still ⟨place, registry, same, rfl⟩ fun _ h => nomatch h
  | ok digest =>
    have cases := seen.insertRecord_cases state.id m.timestamp m.payload digest
    dsimp only
    rcases hi : seen.insertRecord state.id m.timestamp m.payload digest with ⟨store', e | _⟩ <;>
      rw [hi] at cases
    · obtain ⟨kept, -⟩ | ⟨h, -⟩ := cases
      · exact .still ⟨place, registry, kept.trans same, rfl⟩ fun _ h => nomatch h
      · cases h
    · obtain ⟨-, _, h⟩ | ⟨-, known, number, behind, put⟩ := cases
      · cases h
      · rw [same] at known behind put
        refine .written place registered hd known behind ?_ put rfl rfl
        show t.registry.advance m.stream digest = _
        rw [registry]

theorem write_effect (s : Session) (store : Store) (m : Message) :
    CallEffect H s store (.write m) ((s.write H store m).map .written) := by
  unfold write writable
  cases ho : s.opened with
  | none => exact .still ⟨rfl, rfl, rfl, rfl⟩ fun _ h => nomatch h
  | some o =>
    dsimp only
    split_ifs
    · exact .still ⟨rfl, rfl, rfl, rfl⟩ fun _ h => nomatch h
    · dsimp only
      cases hl : s.registry.lookup m.stream with
      | none => exact .still ⟨rfl, rfl, rfl, rfl⟩ fun _ h => nomatch h
      | some state =>
        -- making ready comes first; it may fail, but adds no row
        have same := tables_openState_prepare o store
        dsimp only
        rcases hp : o.prepare store with ⟨seen, e | o'⟩ <;> rw [hp] at same
        · exact .still ⟨rfl, rfl, same, rfl⟩ fun _ h => nomatch h
        · refine append_effect hl rfl ?_ same
          rw [place_of_opened ho, ← store_of_openState_prepare hp]
          rfl

/-- A stream is created once it can be anchored and the store takes its row. -/
theorem create_of_inserted {o : OpenState} {d : StreamDescriptor} {digest : Digest} {next : Nonce}
    {id : StreamId} {store' : Store} (writable : s.writable = .ok o)
    (new : s.registry.lookup d.name = none) (anchored : s.registry.anchor H d = .ok (digest, next))
    (inserted : store.insertStream d s.registry.nonce digest = (store', .ok id)) :
    s.call H store (.create d) = {
      session := { s with registry := s.registry.register d.name id digest next }
      store := store'
      events := [.streamCreated ⟨digest, d⟩]
      answer := .ok (.created id) } := by
  show (s.create H store d).map _ = _
  unfold create StreamRegistry.create
  rw [writable, new, anchored]
  dsimp only
  rw [inserted]
  rfl

/-- A record is written once its digest can be taken and the store takes its row. -/
theorem write_of_inserted {o o' : OpenState} {m : Message} {state : StreamState} {digest : Digest}
    {seen store' : Store} (writable : s.writable = .ok o)
    (registered : s.registry.lookup m.stream = some state)
    (prepared : o.prepare store = (seen, .ok o'))
    (linked : recordDigest H state.tip (m.link state.id) = .ok digest)
    (inserted : seen.insertRecord state.id m.timestamp m.payload digest = (store', .ok ())) :
    s.call H store (.write m) = {
      session := { s with registry := s.registry.advance m.stream digest, opened := some o' }
      store := store'
      events := [.checkpoint ⟨digest, state.nonce, m⟩]
      answer := .ok (.written digest) } := by
  show (s.write H store m).map _ = _
  unfold write
  rw [writable, registered]
  dsimp only
  rw [prepared]
  dsimp only
  unfold append
  rw [linked]
  dsimp only
  rw [inserted]
  rfl

theorem unwritten_map {x : Except SessionError α} {f : α → SessionAnswer}
    (h : ∀ a digest, f a ≠ .written digest) (digest : Digest) :
    x.map f ≠ .ok (.written digest) := by
  intro e
  obtain ⟨a, -, ha⟩ := Except.map_eq_ok_iff.1 e
  exact h a digest ha

/-- **Every call is still, creates one stream or writes one record.** -/
theorem call_effect (H : HashFunction) (s : Session) (store : Store) (c : SessionCall) :
    CallEffect H s store c (s.call H store c) := by
  cases c with
  | create d => exact create_effect s store d
  | write m => exact write_effect s store m
  | hasNext => exact .still ((s.hasNext_still store).map _) (unwritten_map fun _ _ h => nomatch h)
  | readNext => exact .still ((s.readNext_still store).map _) (unwritten_map fun _ _ h => nomatch h)
  | readAll =>
    exact .still ((s.readMany_still _ store).map _) (unwritten_map fun _ _ h => nomatch h)
  | remove d => exact .still ⟨rfl, rfl, rfl, rfl⟩ (unwritten_map fun _ _ h => nomatch h)
  | streams => exact .still ((s.streams_still store).map _) (unwritten_map fun _ _ h => nomatch h)
  | metadata => exact .still ((s.metadata_still store).map _) (unwritten_map fun _ _ h => nomatch h)

end Session

end SealedLog
