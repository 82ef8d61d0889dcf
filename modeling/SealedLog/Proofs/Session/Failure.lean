import Mathlib.Data.Option.Basic
import SealedLog.Proofs.Session.Call
import SealedLog.Proofs.Store.Twin

/-!
# What a failed call leaves

A call that creates or writes and fails leaves the registry, the rows and what the session keeps of
its reading as they were, and tells the ledger nothing. It may have made the store ready for
records. A session that went through such calls and one that did not are twins: as long as making
ready does not fail, whatever both are asked next they answer alike and stay twins.

* `SessionCall.IsChange`, `Outcome.Traceless`: the calls in question, and what they leave;
* `Session.Twin`, `Outcome.Twin`: sessions that differ in whether their store was made ready;
* `Session.leavesTwins_of_error`: what a failed change leaves are twins of what was before;
* `Session.Twin.call`, `Twin.attach`: twins answer alike.
-/

namespace SealedLog

variable {H : HashFunction}

/-- Whether a call asks for a new stream or a new record. -/
def SessionCall.IsChange : SessionCall → Prop
  | .create _ => True
  | .write _ => True
  | _ => False

namespace OpenState

variable {o o' : OpenState}

/-- What a session keeps while it is open, but for whether its store was made ready. -/
def unprepared (o : OpenState) : OpenState := { o with prepared := false }

/-- All that the first session keeps, the second keeps too, but its store need not be ready yet. -/
structure Twin (o o' : OpenState) : Prop where
  unprepared : o.unprepared = o'.unprepared
  prepared : o'.prepared = true → o.prepared = true

theorem Twin.refl (o : OpenState) : o.Twin o := ⟨rfl, id⟩

theorem Twin.trans {o'' : OpenState} (twin : o.Twin o') (next : o'.Twin o'') : o.Twin o'' :=
  ⟨twin.unprepared.trans next.unprepared, fun h => twin.prepared (next.prepared h)⟩

namespace Twin

theorem store (twin : o.Twin o') : o.store = o'.store :=
  (congrArg OpenState.store twin.unprepared :)

theorem mode (twin : o.Twin o') : o.mode = o'.mode :=
  (congrArg OpenState.mode twin.unprepared :)

theorem cursor (twin : o.Twin o') : o.cursor = o'.cursor :=
  (congrArg OpenState.cursor twin.unprepared :)

theorem streamCache (twin : o.Twin o') : o.streamCache = o'.streamCache :=
  (congrArg OpenState.streamCache twin.unprepared :)

theorem uri (twin : o.Twin o') : o.uri = o'.uri :=
  (congrArg OpenState.uri twin.unprepared :)

theorem files (twin : o.Twin o') : o.files = o'.files :=
  (congrArg OpenState.files twin.unprepared :)

theorem withCursor (twin : o.Twin o') (cursor : ReadCursor) :
    ({ o with cursor := cursor } : OpenState).Twin { o' with cursor := cursor } where
  unprepared := (congrArg (fun o : OpenState => { o with cursor := cursor }) twin.unprepared :)
  prepared := twin.prepared

theorem withStreams (twin : o.Twin o') (streams : List StreamDescriptor) :
    ({ o with streamCache := some streams } : OpenState).Twin
      { o' with streamCache := some streams } where
  unprepared :=
    (congrArg (fun o : OpenState => { o with streamCache := some streams }) twin.unprepared :)
  prepared := twin.prepared

end Twin

/-- Making ready leaves the store a twin, and what it answers is ready. -/
theorem prepare_cases (o : OpenState) (store : Store) : (o.prepare store).1.Twin store ∧
    ((∃ e, (o.prepare store).2 = .error (.backend .prepareInsert e)) ∨
      (o.prepare store).2 = .ok { o with prepared := true }) := by
  unfold prepare
  split_ifs with ready
  · refine ⟨.refl store, .inr ?_⟩
    rw [← ready]
  · refine ⟨store.twin_prepare, ?_⟩
    rcases store.prepare with ⟨store', e | _⟩
    · exact .inl ⟨e, rfl⟩
    · exact .inr rfl

theorem twin_prepared (o : OpenState) : ({ o with prepared := true } : OpenState).Twin o :=
  ⟨rfl, fun _ => rfl⟩

end OpenState

namespace Session

variable {s s' : Session} {store store' : Store}

/-- The first session is as the second, but the store of the second need not be ready yet. -/
structure Twin (s s' : Session) : Prop where
  registry : s.registry = s'.registry
  config : s.config = s'.config
  opened : Option.Rel OpenState.Twin s.opened s'.opened

theorem Twin.refl (s : Session) : s.Twin s where
  registry := rfl
  config := rfl
  opened := by
    cases s.opened with
    | none => exact .none
    | some o => exact .some (.refl o)

theorem Twin.trans {s'' : Session} (twin : s.Twin s') (next : s'.Twin s'') : s.Twin s'' where
  registry := twin.registry.trans next.registry
  config := twin.config.trans next.config
  opened := by
    have first := twin.opened
    have second := next.opened
    generalize s.opened = o at first
    generalize s'.opened = o' at first second
    generalize s''.opened = o'' at second
    cases first with
    | none => exact second
    | some first =>
      cases second with
      | some second => exact .some (first.trans second)

/-- Twins that were closed are the same. -/
theorem Twin.eq_of_closed (twin : s.Twin s') (closed : s'.opened = none) : s = s' := by
  have opened := twin.opened
  rw [closed] at opened
  rcases s with ⟨registry, config, o⟩
  rcases s' with ⟨registry', config', o'⟩
  obtain rfl : registry = registry' := twin.registry
  obtain rfl : config = config' := twin.config
  cases opened
  exact congrArg (Session.mk registry config) closed.symm

end Session

/-- The outcomes answer and tell the same, and leave twins. -/
structure Outcome.Twin {α : Type} (o o' : Outcome α) : Prop where
  answer : o.answer = o'.answer
  events : o.events = o'.events
  session : o.session.Twin o'.session
  store : o.store.Twin o'.store

theorem Outcome.Twin.map {α β : Type} {o o' : Outcome α} (twin : o.Twin o') (f : α → β) :
    (o.map f).Twin (o'.map f) :=
  ⟨congrArg (Except.map f) twin.answer, twin.events, twin.session, twin.store⟩

namespace Session.Twin

variable {α : Type} {s s' : Session} {store store' : Store}

theorem refuse (twin : s.Twin s') (stores : store.Twin store') (e : SessionError) :
    (s.refuse store e : Outcome α).Twin (s'.refuse store' e) := ⟨rfl, rfl, twin, stores⟩

theorem opened_cases (twin : s.Twin s') : (s.opened = none ∧ s'.opened = none) ∨
    ∃ o o', s.opened = some o ∧ s'.opened = some o' ∧ o.Twin o' := by
  have opened := twin.opened
  generalize s.opened = a, s'.opened = a' at opened
  cases opened with
  | none => exact .inl ⟨rfl, rfl⟩
  | some there => exact .inr ⟨_, _, rfl, rfl, there⟩

theorem writable_cases (twin : s.Twin s') :
    (∃ e, s.writable = .error e ∧ s'.writable = .error e) ∨
      ∃ o o', s.writable = .ok o ∧ s'.writable = .ok o' ∧ o.Twin o' := by
  unfold writable
  obtain ⟨closed, closed'⟩ | ⟨o, o', there, there', opened⟩ := twin.opened_cases
  · rw [closed, closed']
    exact .inl ⟨_, rfl, rfl⟩
  · rw [there, there']
    dsimp only
    rw [← opened.mode]
    split_ifs
    · exact .inl ⟨_, rfl, rfl⟩
    · exact .inr ⟨o, o', rfl, rfl, opened⟩

theorem withOpened {o o' : OpenState} (twin : s.Twin s') (opened : o.Twin o') :
    ({ s with opened := some o } : Session).Twin { s' with opened := some o' } :=
  ⟨twin.registry, twin.config, .some opened⟩

theorem withRegistry (twin : s.Twin s') (registry : StreamRegistry) :
    ({ s with registry := registry } : Session).Twin { s' with registry := registry } :=
  ⟨rfl, twin.config, twin.opened⟩

/-! ### Changes -/

theorem create (twin : s.Twin s') (stores : store.Twin store') (d : StreamDescriptor) :
    (s.create H store d).Twin (s'.create H store' d) := by
  unfold Session.create StreamRegistry.create
  obtain ⟨e, refused, refused'⟩ | ⟨o, o', writable, writable', -⟩ := twin.writable_cases
  · rw [refused, refused']
    exact twin.refuse stores e
  · rw [writable, writable', ← twin.registry]
    dsimp only
    cases s.registry.lookup d.name with
    | some state => exact ⟨rfl, rfl, twin.withRegistry _, stores⟩
    | none =>
      dsimp only
      cases s.registry.anchor H d with
      | error e => exact (twin.withRegistry _).refuse stores e
      | ok made =>
        obtain ⟨answer, after⟩ := stores.insertStream d s.registry.nonce made.1
        dsimp only
        rcases put : store.insertStream d s.registry.nonce made.1 with ⟨store₁, e | id⟩ <;>
          rcases put' : store'.insertStream d s.registry.nonce made.1 with ⟨store₁', e' | id'⟩ <;>
          rw [put, put'] at answer after <;> cases answer
        · exact (twin.withRegistry _).refuse after _
        · exact ⟨rfl, rfl, twin.withRegistry _, after⟩

theorem append (twin : s.Twin s') (stores : store.Twin store') (state : StreamState)
    (m : Message) : (s.append H store state m).Twin (s'.append H store' state m) := by
  unfold Session.append
  cases recordDigest H state.tip (m.link state.id) with
  | error e => exact twin.refuse stores _
  | ok digest =>
    obtain ⟨answer, after⟩ := stores.insertRecord state.id m.timestamp m.payload digest
    dsimp only
    rcases put : store.insertRecord state.id m.timestamp m.payload digest with ⟨store₁, e | _⟩ <;>
      rcases put' : store'.insertRecord state.id m.timestamp m.payload digest with
        ⟨store₁', e' | _⟩ <;>
      rw [put, put'] at answer after <;> cases answer
    · exact twin.refuse after _
    · rw [← twin.registry]
      exact ⟨rfl, rfl, twin.withRegistry _, after⟩

/-- Twins write alike, unless it fails to make their stores ready. -/
theorem write (twin : s.Twin s') (stores : store.Twin store') (m : Message)
    (ready : ∀ e, (s.write H store m).answer ≠ .error (.backend .prepareInsert e))
    (ready' : ∀ e, (s'.write H store' m).answer ≠ .error (.backend .prepareInsert e)) :
    (s.write H store m).Twin (s'.write H store' m) := by
  unfold Session.write at ready ready' ⊢
  obtain ⟨e, refused, refused'⟩ | ⟨o, o', writable, writable', opened⟩ := twin.writable_cases
  · rw [refused, refused']
    exact twin.refuse stores e
  · have lookup : s'.registry.lookup m.stream = s.registry.lookup m.stream := by
      rw [twin.registry]
    rw [writable] at ready ⊢
    rw [writable', lookup] at ready' ⊢
    dsimp only at ready ready' ⊢
    cases registered : s.registry.lookup m.stream with
    | none => exact twin.refuse stores _
    | some state =>
      rw [registered] at ready ready'
      dsimp only at ready ready' ⊢
      obtain ⟨after, prepared⟩ := o.prepare_cases store
      obtain ⟨after', prepared'⟩ := o'.prepare_cases store'
      rcases made : o.prepare store with ⟨store₁, answer⟩
      rcases made' : o'.prepare store' with ⟨store₁', answer'⟩
      rw [made] at after prepared ready
      rw [made'] at after' prepared' ready'
      obtain ⟨e, failed⟩ | done := prepared
      · obtain rfl : answer = .error _ := failed
        exact absurd rfl (ready e)
      · obtain ⟨e, failed⟩ | done' := prepared'
        · obtain rfl : answer' = .error _ := failed
          exact absurd rfl (ready' e)
        · obtain rfl : answer = .ok _ := done
          obtain rfl : answer' = .ok _ := done'
          have same : ({ o with prepared := true } : OpenState).Twin
              { o' with prepared := true } :=
            ⟨opened.unprepared, fun _ => rfl⟩
          exact (twin.withOpened same).append ((after.trans stores).trans after'.symm) state m

/-! ### Reading -/

theorem ready_eq (stores : store.Twin store') (cursor : ReadCursor) (batch : Nat) :
    cursor.ready store batch = cursor.ready store' batch := by
  unfold ReadCursor.ready ReadCursor.refill
  rw [stores.page]

theorem visit_cursor (stores : store.Twin store') (cursor : ReadCursor) :
    (cursor.visit store).Twin (cursor.visit store') := by
  unfold ReadCursor.visit
  split_ifs
  · exact stores.visit .page
  · exact stores

theorem hasNext (twin : s.Twin s') (stores : store.Twin store') :
    (s.hasNext store).Twin (s'.hasNext store') := by
  unfold Session.hasNext
  obtain ⟨closed, closed'⟩ | ⟨o, o', there, there', opened⟩ := twin.opened_cases
  · rw [closed, closed']
    exact twin.refuse stores .notOpen
  · rw [there, there']
    have after := visit_cursor stores o.cursor
    have batch : s'.config.batch = s.config.batch := by rw [twin.config]
    dsimp only
    rw [← opened.cursor, batch, ← ready_eq stores]
    cases o.cursor.ready store s.config.batch with
    | error e => exact twin.refuse after e
    | ok cursor => exact ⟨rfl, rfl, twin.withOpened (opened.withCursor cursor), after⟩

theorem readNext (twin : s.Twin s') (stores : store.Twin store') :
    (s.readNext store).Twin (s'.readNext store') := by
  unfold Session.readNext
  obtain ⟨closed, closed'⟩ | ⟨o, o', there, there', opened⟩ := twin.opened_cases
  · rw [closed, closed']
    exact twin.refuse stores .notOpen
  · rw [there, there']
    have after := visit_cursor stores o.cursor
    have batch : s'.config.batch = s.config.batch := by rw [twin.config]
    dsimp only
    rw [← opened.cursor, batch, ← ready_eq stores]
    cases o.cursor.ready store s.config.batch with
    | error e => exact twin.refuse after e
    | ok cursor =>
      dsimp only
      cases cursor.buffer with
      | nil => exact (twin.withOpened (opened.withCursor _)).refuse after .endOfStream
      | cons next rest => exact ⟨rfl, rfl, twin.withOpened (opened.withCursor _), after⟩

theorem readMany (n : Nat) (twin : s.Twin s') (stores : store.Twin store') :
    (s.readMany store n).Twin (s'.readMany store' n) := by
  induction n generalizing s s' store store' with
  | zero => exact ⟨rfl, rfl, twin, stores⟩
  | succ n ih =>
    -- each read leaves twins, with which the next one goes on
    have next := twin.readNext stores
    unfold Session.readMany
    generalize s.readNext store = read, s'.readNext store' = read' at next ⊢
    obtain ⟨s₁, store₁, told, answer₁⟩ := read
    obtain ⟨s₁', store₁', told', answer₁'⟩ := read'
    obtain ⟨answer, -, sessions, after⟩ := next
    obtain rfl : answer₁ = answer₁' := answer
    cases answer₁ with
    | ok message =>
      obtain ⟨answer, events, rest, last⟩ := ih sessions after
      exact ⟨congrArg (Except.map (message :: ·)) answer, events, rest, last⟩
    | error e =>
      cases e with
      | endOfStream => exact ⟨rfl, rfl, sessions, after⟩
      | _ => exact ⟨rfl, rfl, sessions, after⟩

theorem readAll (twin : s.Twin s') (stores : store.Twin store') :
    (s.readAll store).Twin (s'.readAll store') := by
  have unread : s'.unread store' = s.unread store := by
    unfold Session.unread
    obtain ⟨closed, closed'⟩ | ⟨o, o', there, there', opened⟩ := twin.opened_cases
    · rw [closed, closed']
    · rw [there, there']
      dsimp only
      rw [opened.cursor, stores.recordCount]
  unfold Session.readAll
  rw [unread]
  exact twin.readMany _ stores

theorem streams (twin : s.Twin s') (stores : store.Twin store') :
    (s.streams store).Twin (s'.streams store') := by
  unfold Session.streams
  obtain ⟨closed, closed'⟩ | ⟨o, o', there, there', opened⟩ := twin.opened_cases
  · rw [closed, closed']
    exact twin.refuse stores .notOpen
  · rw [there, there']
    have after := stores.visit .streams
    dsimp only
    rw [← opened.streamCache, ← stores.streams]
    cases o.streamCache with
    | some streams => exact ⟨rfl, rfl, twin, stores⟩
    | none =>
      dsimp only
      cases store.streams with
      | error e => exact twin.refuse after _
      | ok streams => exact ⟨rfl, rfl, twin.withOpened (opened.withStreams streams), after⟩

theorem metadata_eq {o o' : OpenState} (opened : o.Twin o') (stores : store.Twin store') :
    o.metadata store = o'.metadata store' := by
  unfold OpenState.metadata
  rw [opened.files, stores.statistics, stores.size]

theorem metadata (twin : s.Twin s') (stores : store.Twin store') :
    (s.metadata store).Twin (s'.metadata store') := by
  unfold Session.metadata
  obtain ⟨closed, closed'⟩ | ⟨o, o', there, there', opened⟩ := twin.opened_cases
  · rw [closed, closed']
    exact twin.refuse stores .notOpen
  · rw [there, there']
    refine ⟨metadata_eq opened stores, rfl, twin, ?_⟩
    unfold Store.visitMetadata
    rw [← stores.statistics]
    cases store.statistics with
    | error e => exact stores.visit .statistics
    | ok _ => exact (stores.visit .statistics).visit .size

theorem remove_eq (twin : s.Twin s') (d : StreamDescriptor) : s.remove d = s'.remove d := by
  unfold Session.remove
  obtain ⟨closed, closed'⟩ | ⟨o, o', there, there', -⟩ := twin.opened_cases
  · rw [closed, closed']
  · rw [there, there', twin.registry]

/-- **Twins answer alike and stay twins**, unless it fails to make their stores ready. -/
theorem call (twin : s.Twin s') (stores : store.Twin store') (c : SessionCall)
    (ready : ∀ e, (s.call H store c).answer ≠ .error (.backend .prepareInsert e))
    (ready' : ∀ e, (s'.call H store' c).answer ≠ .error (.backend .prepareInsert e)) :
    (s.call H store c).Twin (s'.call H store' c) := by
  cases c with
  | create d => exact (twin.create stores d).map _
  | write m =>
    refine (twin.write stores m (fun e h => ready e ?_) fun e h => ready' e ?_).map _
    · exact Except.map_eq_error_iff.2 h
    · exact Except.map_eq_error_iff.2 h
  | hasNext => exact (twin.hasNext stores).map _
  | readNext => exact (twin.readNext stores).map _
  | readAll => exact (twin.readAll stores).map _
  | remove d => exact ⟨congrArg (Except.map _) (twin.remove_eq d), rfl, twin, stores⟩
  | streams => exact (twin.streams stores).map _
  | metadata => exact (twin.metadata stores).map _

/-- Twins attach a store alike. -/
theorem attach (twin : s.Twin s') (stores : store.Twin store') (key : StoreKey)
    (mode : AccessMode) : (s.attach store key mode).Twin (s'.attach store' key mode) := by
  unfold Session.attach Session.isOpen
  obtain ⟨closed, closed'⟩ | ⟨o, o', there, there', -⟩ := twin.opened_cases
  · rw [closed, closed']
    have made := stores.createSchema
    have entered := twin.withOpened (.refl { store := key, mode := mode })
    dsimp only
    split_ifs
    · exact twin.refuse stores _
    · exact ⟨rfl, rfl, entered, stores⟩
    · generalize store.createSchema = put, store'.createSchema = put' at made ⊢
      obtain ⟨answer, after⟩ := made
      rcases put with ⟨store₁, e | _⟩ <;> rcases put' with ⟨store₁', e' | _⟩ <;> cases answer
      · exact twin.refuse after _
      · exact ⟨rfl, rfl, entered, after⟩
  · rw [there, there']
    exact twin.refuse stores .alreadyOpen

end Session.Twin

/-! ### Failed changes -/

/-- Nothing happened but that the store may have been made ready for records. -/
structure Outcome.Traceless {α : Type} (o : Outcome α) (s : Session) (store : Store) : Prop where
  registry : o.session.registry = s.registry
  config : o.session.config = s.config
  /-- Its cursor, the streams that it remembers, its mode and its files. -/
  opened : o.session.opened.map OpenState.unprepared = s.opened.map OpenState.unprepared
  tables : o.store.tables = store.tables
  events : o.events = []

/-- What is left are twins of what was before, and the ledger was told nothing. -/
structure Outcome.LeavesTwins {α : Type} (o : Outcome α) (s : Session) (store : Store) :
    Prop where
  session : o.session.Twin s
  store : o.store.Twin store
  events : o.events = []

namespace Outcome.LeavesTwins

variable {α β : Type} {o : Outcome α} {s : Session} {store : Store}

theorem map (leaves : o.LeavesTwins s store) (f : α → β) : (o.map f).LeavesTwins s store :=
  ⟨leaves.session, leaves.store, leaves.events⟩

theorem traceless (leaves : o.LeavesTwins s store) : o.Traceless s store where
  registry := leaves.session.registry
  config := leaves.session.config
  opened := by
    obtain ⟨closed, closed'⟩ | ⟨o, o', there, there', opened⟩ := leaves.session.opened_cases
    · rw [closed, closed']
    · rw [there, there']
      exact congrArg some opened.unprepared
  tables := Store.tables_of_twin leaves.store.engine
  events := leaves.events

end Outcome.LeavesTwins

namespace Session

variable {α : Type} {s : Session} {store : Store}

theorem refuse_leaves {s' : Session} {store' : Store} (session : s'.Twin s)
    (after : store'.Twin store) (e : SessionError) :
    (s'.refuse store' e : Outcome α).LeavesTwins s store := ⟨session, after, rfl⟩

theorem create_leaves {d : StreamDescriptor} {e : SessionError}
    (failed : (s.create H store d).answer = .error e) :
    (s.create H store d).LeavesTwins s store := by
  unfold create at failed ⊢
  cases writable : s.writable with
  | error e' => exact refuse_leaves (.refl s) (.refl store) e'
  | ok o =>
    rw [writable] at failed
    unfold StreamRegistry.create at failed ⊢
    dsimp only at failed ⊢
    cases registered : s.registry.lookup d.name with
    | some state =>
      rw [registered] at failed
      cases failed
    | none =>
      rw [registered] at failed
      dsimp only at failed ⊢
      cases anchored : s.registry.anchor H d with
      | error e' => exact refuse_leaves (.refl s) (.refl store) e'
      | ok made =>
        rw [anchored] at failed
        dsimp only at failed ⊢
        rcases put : store.insertStream d s.registry.nonce made.1 with ⟨store', e' | id⟩
        · have after : (store.insertStream d s.registry.nonce made.1).1.Twin store :=
            Store.twin_insertStream_of_error (congrArg Prod.snd put)
          rw [put] at after
          exact refuse_leaves (.refl s) after _
        · rw [put] at failed
          cases failed

theorem append_leaves {s' : Session} {store' : Store} {state : StreamState} {m : Message}
    {e : SessionError} (session : s'.Twin s) (ready : store'.Twin store)
    (failed : (s'.append H store' state m).answer = .error e) :
    (s'.append H store' state m).LeavesTwins s store := by
  unfold append at failed ⊢
  cases linked : recordDigest H state.tip (m.link state.id) with
  | error e' => exact refuse_leaves session ready _
  | ok digest =>
    rw [linked] at failed
    dsimp only at failed ⊢
    rcases put : store'.insertRecord state.id m.timestamp m.payload digest with ⟨store₁, e' | _⟩
    · have after : (store'.insertRecord state.id m.timestamp m.payload digest).1.Twin store' :=
        Store.twin_insertRecord_of_error (congrArg Prod.snd put)
      rw [put] at after
      exact refuse_leaves session (after.trans ready) _
    · rw [put] at failed
      cases failed

theorem write_leaves {m : Message} {e : SessionError}
    (failed : (s.write H store m).answer = .error e) : (s.write H store m).LeavesTwins s store := by
  unfold write writable at failed ⊢
  cases there : s.opened with
  | none => exact refuse_leaves (.refl s) (.refl store) _
  | some o =>
    rw [there] at failed
    dsimp only at failed ⊢
    split_ifs at failed ⊢
    · exact refuse_leaves (.refl s) (.refl store) _
    · dsimp only at failed ⊢
      cases registered : s.registry.lookup m.stream with
      | none => exact refuse_leaves (.refl s) (.refl store) _
      | some state =>
        rw [registered] at failed
        dsimp only at failed ⊢
        obtain ⟨ready, prepared⟩ := o.prepare_cases store
        rcases made : o.prepare store with ⟨store', e' | o'⟩ <;> rw [made] at ready prepared failed
        · exact refuse_leaves (.refl s) ready e'
        · -- whatever fails from here on, the store was made ready
          obtain ⟨_, h⟩ | h := prepared <;> cases h
          refine append_leaves ⟨rfl, rfl, ?_⟩ ready failed
          rw [there]
          exact .some o.twin_prepared

/-- What a failed change leaves are twins of what was before. -/
theorem leavesTwins_of_error {c : SessionCall} {e : SessionError} (change : c.IsChange)
    (failed : (s.call H store c).answer = .error e) :
    (s.call H store c).LeavesTwins s store := by
  cases c with
  | create d => exact (create_leaves (Except.map_eq_error_iff.1 failed)).map _
  | write m => exact (write_leaves (Except.map_eq_error_iff.1 failed)).map _
  | _ => exact change.elim

/-- A record that the store refuses is not written, but the store was made ready for it. -/
theorem write_of_refused {seen store' : Store} {o o' : OpenState}
    {m : Message} {state : StreamState} {digest : Digest} {e : StoreError}
    (writable : s.writable = .ok o) (registered : s.registry.lookup m.stream = some state)
    (prepared : o.prepare store = (seen, .ok o'))
    (linked : recordDigest H state.tip (m.link state.id) = .ok digest)
    (refused : seen.insertRecord state.id m.timestamp m.payload digest = (store', .error e)) :
    s.call H store (.write m) = {
      session := { s with opened := some o' }
      store := store'
      answer := .error (.backend (.write m.stream) e) } := by
  show (s.write H store m).map _ = _
  unfold write
  rw [writable, registered]
  dsimp only
  rw [prepared]
  dsimp only
  unfold append
  rw [linked]
  dsimp only
  rw [refused]
  rfl

end Session

end SealedLog
