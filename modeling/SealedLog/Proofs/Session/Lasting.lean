import SealedLog.Proofs.Session.Call
import SealedLog.Proofs.Store.Statements

/-!
# What lasts through every call

A session asks four kinds of operations of its store: to make ready for records, to insert a stream
or a record, and to look at what is there. What each of them keeps, every call keeps.

* `Session.setting`: how an open session was opened;
* `Session.call_lasts`: a call keeps what lasts, and leaves the session open as it was;
* `Session.call_of_reading`: a session that only reads does no more than look.
-/

namespace SealedLog

variable {H : HashFunction}

/-- How an open session was opened: its mode, its directory and its files. -/
def Session.setting (s : Session) : Option (AccessMode × Option Path × List String) :=
  s.opened.map fun o => (o.mode, o.uri, o.files)

/-- The session is still open as it was, and what lasts holds of the store. -/
structure Outcome.Lasts {α : Type} (P : Store → Prop) (o : Outcome α) (s : Session) : Prop where
  store : P o.store
  config : o.session.config = s.config
  setting : o.session.setting = s.setting

theorem Outcome.Lasts.map {α β : Type} {P : Store → Prop} {o : Outcome α} {s : Session}
    (lasts : o.Lasts P s) (f : α → β) : (o.map f).Lasts P s :=
  ⟨lasts.store, lasts.config, lasts.setting⟩

namespace Session

variable {P : Store → Prop} {s : Session} {store : Store}

theorem setting_of_opened {o o' : OpenState} (there : s.opened = some o)
    (same : (o'.mode, o'.uri, o'.files) = (o.mode, o.uri, o.files)) :
    { s with opened := some o' }.setting = s.setting := by
  rw [setting, setting, there]
  exact congrArg some same

theorem cursor_visit_lasting (viewed : Store.Viewed P) (cursor : ReadCursor) (h : P store) :
    P (cursor.visit store) := by
  unfold ReadCursor.visit
  split_ifs
  · exact viewed.visit .page h
  · exact h

theorem visitMetadata_lasting (viewed : Store.Viewed P) (h : P store) :
    P store.visitMetadata := by
  unfold Store.visitMetadata
  split
  · exact viewed.visit .statistics h
  · exact viewed.visit .size (viewed.visit .statistics h)

theorem create_lasts (lasting : Store.Lasting P) (d : StreamDescriptor) (h : P store) :
    (s.create H store d).Lasts P s := by
  unfold create
  cases s.writable with
  | error e => exact ⟨h, rfl, rfl⟩
  | ok o =>
    dsimp only
    unfold StreamRegistry.create
    cases s.registry.lookup d.name with
    | some state => exact ⟨h, rfl, rfl⟩
    | none =>
      dsimp only
      cases s.registry.anchor H d with
      | error e => exact ⟨h, rfl, rfl⟩
      | ok made =>
        have after := lasting.insertStream d s.registry.nonce made.1 h
        dsimp only
        rcases hi : store.insertStream d s.registry.nonce made.1 with ⟨store', e | id⟩ <;>
          rw [hi] at after <;> exact ⟨after, rfl, rfl⟩

theorem append_lasts (lasting : Store.Lasting P) {t : Session} {state : StreamState} (m : Message)
    (h : P store) : (t.append H store state m).Lasts P t := by
  unfold append
  cases recordDigest H state.tip (m.link state.id) with
  | error e => exact ⟨h, rfl, rfl⟩
  | ok digest =>
    have after := lasting.insertRecord state.id m.timestamp m.payload digest h
    dsimp only
    rcases hi : store.insertRecord state.id m.timestamp m.payload digest with ⟨store', e | _⟩ <;>
      rw [hi] at after <;> exact ⟨after, rfl, rfl⟩

theorem write_lasts (lasting : Store.Lasting P) (m : Message) (h : P store) :
    (s.write H store m).Lasts P s := by
  unfold write writable
  cases ho : s.opened with
  | none => exact ⟨h, rfl, rfl⟩
  | some o =>
    dsimp only
    split_ifs
    · exact ⟨h, rfl, rfl⟩
    · dsimp only
      cases s.registry.lookup m.stream with
      | none => exact ⟨h, rfl, rfl⟩
      | some state =>
        have ready : P (o.prepare store).1 := by
          unfold OpenState.prepare
          split_ifs
          · exact h
          · exact lasting.prepare h
        have same : ∀ o', (o.prepare store).2 = .ok o' →
            (o'.mode, o'.uri, o'.files) = (o.mode, o.uri, o.files) := by
          intro o' made
          unfold OpenState.prepare at made
          split_ifs at made
          · cases made
            rfl
          · obtain ⟨_, _, rfl⟩ := Except.map_eq_ok_iff.1 made
            rfl
        dsimp only
        rcases hp : o.prepare store with ⟨store', e | o'⟩ <;> rw [hp] at ready same
        · exact ⟨ready, rfl, rfl⟩
        · have lasts : (({ s with opened := some o' } : Session).append H store' state m).Lasts P
              { s with opened := some o' } := append_lasts lasting m ready
          exact ⟨lasts.store, lasts.config,
            lasts.setting.trans (setting_of_opened ho (same o' rfl))⟩

theorem hasNext_lasts (viewed : Store.Viewed P) (h : P store) :
    (s.hasNext store).Lasts P s := by
  unfold hasNext
  cases ho : s.opened with
  | none => exact ⟨h, rfl, rfl⟩
  | some o =>
    have seen := cursor_visit_lasting viewed o.cursor h
    dsimp only
    cases o.cursor.ready store s.config.batch with
    | error e => exact ⟨seen, rfl, rfl⟩
    | ok cursor => exact ⟨seen, rfl, setting_of_opened ho rfl⟩

theorem readNext_lasts (viewed : Store.Viewed P) (h : P store) :
    (s.readNext store).Lasts P s := by
  unfold readNext
  cases ho : s.opened with
  | none => exact ⟨h, rfl, rfl⟩
  | some o =>
    have seen := cursor_visit_lasting viewed o.cursor h
    dsimp only
    cases o.cursor.ready store s.config.batch with
    | error e => exact ⟨seen, rfl, rfl⟩
    | ok cursor =>
      dsimp only
      cases cursor.buffer <;> exact ⟨seen, rfl, setting_of_opened ho rfl⟩

theorem readMany_lasts (viewed : Store.Viewed P) (n : Nat) (h : P store) :
    (s.readMany store n).Lasts P s := by
  induction n generalizing s store with
  | zero => exact ⟨h, rfl, rfl⟩
  | succ n ih =>
    have next := readNext_lasts (s := s) viewed h
    unfold readMany
    split <;> rename_i read <;> rw [read] at next
    · exact ⟨next.store, next.config, next.setting⟩
    · exact ⟨next.store, next.config, next.setting⟩
    · rename_i s' store' _ _
      have rest := ih (s := s') next.store
      exact ⟨rest.store, rest.config.trans next.config, rest.setting.trans next.setting⟩

theorem streams_lasts (viewed : Store.Viewed P) (h : P store) :
    (s.streams store).Lasts P s := by
  unfold streams
  cases ho : s.opened with
  | none => exact ⟨h, rfl, rfl⟩
  | some o =>
    dsimp only
    cases o.streamCache with
    | some streams => exact ⟨h, rfl, rfl⟩
    | none =>
      have seen := viewed.visit .streams h
      dsimp only
      cases store.streams with
      | error e => exact ⟨seen, rfl, rfl⟩
      | ok streams => exact ⟨seen, rfl, setting_of_opened ho rfl⟩

theorem metadata_lasts (viewed : Store.Viewed P) (h : P store) :
    (s.metadata store).Lasts P s := by
  unfold metadata
  cases s.opened with
  | none => exact ⟨h, rfl, rfl⟩
  | some o => exact ⟨visitMetadata_lasting viewed h, rfl, rfl⟩

/-- **What lasts is kept by every call**, and the session stays open as it was. -/
theorem call_lasts (lasting : Store.Lasting P) (c : SessionCall) (h : P store) :
    (s.call H store c).Lasts P s := by
  cases c with
  | create d => exact (create_lasts lasting d h).map _
  | write m => exact (write_lasts lasting m h).map _
  | hasNext => exact (hasNext_lasts lasting.toViewed h).map _
  | readNext => exact (readNext_lasts lasting.toViewed h).map _
  | readAll => exact (readMany_lasts lasting.toViewed _ h).map _
  | remove d => exact ⟨h, rfl, rfl⟩
  | streams => exact (streams_lasts lasting.toViewed h).map _
  | metadata => exact (metadata_lasts lasting.toViewed h).map _

theorem writable_of_reading (reads : s.mode = some .readOnly) : s.writable = .error .readOnly := by
  obtain ⟨o, there, mode⟩ := Option.map_eq_some_iff.1 reads
  rw [writable, there]
  dsimp only
  rw [mode]
  rfl

/-- **What lasts when a store is looked at is kept by every call of a session that only reads.** -/
theorem call_of_reading (reads : s.mode = some .readOnly) (viewed : Store.Viewed P)
    (c : SessionCall) (h : P store) : (s.call H store c).Lasts P s := by
  have refused := writable_of_reading reads
  cases c with
  | create d =>
    refine Outcome.Lasts.map ?_ _
    rw [create, refused]
    exact ⟨h, rfl, rfl⟩
  | write m =>
    refine Outcome.Lasts.map ?_ _
    rw [write, refused]
    exact ⟨h, rfl, rfl⟩
  | hasNext => exact (hasNext_lasts viewed h).map _
  | readNext => exact (readNext_lasts viewed h).map _
  | readAll => exact (readMany_lasts viewed _ h).map _
  | remove d => exact ⟨h, rfl, rfl⟩
  | streams => exact (streams_lasts viewed h).map _
  | metadata => exact (metadata_lasts viewed h).map _

end Session

end SealedLog
