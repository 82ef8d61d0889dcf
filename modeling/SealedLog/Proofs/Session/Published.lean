import SealedLog.Proofs.Session.Run

/-!
# What the ledger is told

Along a run of a session the ledger is told of exactly the rows that come into the store, in the
order in which they come. So the chain of every stream can be replayed from what was told.

* `Turn.inserted`: the rows that a call puts into the store;
* `Row.IsToldBy`: an event tells of a row;
* `Session.Chronicle`, `Session.Run.chronicle`: the invariant of runs;
* `Session.published_history`: events and rows, and the replay of every stream.
-/

namespace SealedLog

variable {H : HashFunction} {root : Nonce} {rows : Rows}

namespace Row

/-- The event tells of the row: of a stream its digest and descriptor; of a record its digest, time
and payload with the name and the digest of its stream. -/
def IsToldBy (t : Tables) : Row → LedgerEvent → Prop
  | .stream row, .streamCreated a => a.digest.bytes = row.digest ∧ a.descriptor = row.descriptor
  | .record row, .checkpoint c =>
    c.digest.bytes = row.digest ∧ c.message.timestamp = row.timestamp ∧
      c.message.payload = row.payload ∧
      ∃ s ∈ t.streams, s.id = row.stream ∧ s.descriptor.name = c.message.stream ∧
        s.digest = c.nonce.bytes
  | _, _ => False

theorem IsToldBy.mono {t t' : Tables} {row : Row} {e : LedgerEvent} (h : row.IsToldBy t e)
    (grown : ∀ s ∈ t.streams, s ∈ t'.streams) : row.IsToldBy t' e := by
  cases row <;> cases e
  · exact h
  · exact h
  · exact h
  · obtain ⟨digest, timestamp, payload, s, hs, owner⟩ := h
    exact ⟨digest, timestamp, payload, s, grown s hs, owner⟩

end Row

namespace Turn

/-- The rows that a call put into the store. -/
def inserted (t : Turn) : List Row := t.before.tables.added t.outcome.store.tables

/-- The digest that a call to write to this stream answered. -/
def written? (name : String) (t : Turn) : Option Digest :=
  match t.call, t.outcome.answer with
  | .write m, .ok (.written digest) => if m.stream = name then some digest else none
  | _, _ => none

end Turn

/-- The events about a stream. -/
def LedgerEvent.about (name : String) (events : List LedgerEvent) : List LedgerEvent :=
  events.filter fun e => e.stream == name

namespace LedgerEvent

variable {name : String}

@[simp] theorem about_append (name : String) (before after : List LedgerEvent) :
    about name (before ++ after) = about name before ++ about name after := by simp [about]

theorem about_of_eq {events : List LedgerEvent} {e : LedgerEvent} (one : events = [e])
    (h : e.stream = name) : about name events = [e] := by
  simp [about, one, h]

theorem about_of_ne {events : List LedgerEvent} {e : LedgerEvent} (one : events = [e])
    (h : e.stream ≠ name) : about name events = [] := by
  simp [about, one, h]

end LedgerEvent

open LedgerEvent

namespace Session

variable {s s₀ s₁ : Session} {store store₁ : Store} {turns : List Turn}

/-- What the ledger is told in some turns. -/
def told (turns : List Turn) : List LedgerEvent := turns.flatMap fun t => t.outcome.events

/-- The digests that were answered to calls that write to a stream. -/
def answered (name : String) (turns : List Turn) : List Digest :=
  turns.filterMap (Turn.written? name)

/-- What the ledger is to be told of a stream of these rows. -/
def story (rows : Rows) (a : StreamAnchor) : List LedgerEvent :=
  .streamCreated a.announcement :: (rows.chain a.id).map fun r => .checkpoint (r.checkpoint a)

/-- The turns tell the rows: all of them, in order, and stream by stream. -/
structure Chronicle (rows : Rows) (turns : List Turn) : Prop where
  told : List.Forall₂ (Row.IsToldBy rows.tables) (turns.flatMap Turn.inserted) (told turns)
  streams : (turns.flatMap Turn.inserted).filterMap Row.stream? = rows.tables.streams
  records : (turns.flatMap Turn.inserted).filterMap Row.record? = rows.tables.records
  stories : ∀ a ∈ rows.anchors, about a.descriptor.name (Session.told turns) = story rows a
  answers : ∀ a ∈ rows.anchors,
    answered a.descriptor.name turns = (rows.chain a.id).map Record.digest
  /-- Nothing is told of streams that are not there. -/
  silence : ∀ name, (∀ a ∈ rows.anchors, a.descriptor.name ≠ name) →
    about name (Session.told turns) = [] ∧ answered name turns = []

/-! ### Turns one by one -/

@[simp] theorem told_concat (turns : List Turn) (t : Turn) :
    told (turns ++ [t]) = told turns ++ t.outcome.events := by simp [told]

@[simp] theorem answered_concat (name : String) (turns : List Turn) (t : Turn) :
    answered name (turns ++ [t]) = answered name turns ++ (t.written? name).toList := by
  cases h : t.written? name <;> simp [answered, h]

theorem inserted_concat (turns : List Turn) (t : Turn) :
    (turns ++ [t]).flatMap Turn.inserted = turns.flatMap Turn.inserted ++ t.inserted := by simp

theorem written?_eq_none {o : Outcome SessionAnswer} {c : SessionCall} {name : String}
    (unwritten : ∀ digest, o.answer ≠ .ok (.written digest)) :
    Turn.written? name ⟨c, store, o⟩ = none := by
  unfold Turn.written?
  split
  · rename_i answered
    exact absurd answered (unwritten _)
  · rfl

theorem written?_of_write {o : Outcome SessionAnswer} {m : Message} {digest : Digest}
    {name : String} (answer : o.answer = .ok (.written digest)) :
    Turn.written? name ⟨.write m, store, o⟩ =
      if m.stream = name then some digest else none := by
  unfold Turn.written?
  rw [answer]

theorem story_withRecord_of_eq {a : StreamAnchor} {r : Record} {n : Int64}
    (owner : r.stream = a.id) :
    story (rows.withRecord n r) a = story rows a ++ [.checkpoint (r.checkpoint a)] := by
  rw [story, story, Rows.chain_withRecord_of_eq owner, List.map_append, List.cons_append]
  rfl

theorem story_withRecord_of_ne {a : StreamAnchor} {r : Record} {n : Int64}
    (other : r.stream ≠ a.id) :
    story (rows.withRecord n r) a = story rows a := by
  rw [story, story, Rows.chain_withRecord_of_ne other]

namespace Chronicle

theorem empty : Chronicle {} [] :=
  ⟨.nil, rfl, rfl, fun _ h => (nomatch h), fun _ h => (nomatch h), fun _ _ => ⟨rfl, rfl⟩⟩

variable {t : Turn} {a : StreamAnchor} {r : Record} {n : Int64}

/-- What has to be shown of one more turn: the rows that it adds are told, and what is told and
answered of each stream goes on with what the turn told and answered of it. -/
theorem concat (h : Chronicle rows turns) {rows' : Rows}
    (kept : ∀ b ∈ rows.anchors, b ∈ rows'.anchors)
    (newTold : List.Forall₂ (Row.IsToldBy rows'.tables) t.inserted t.outcome.events)
    (newStreams : rows.tables.streams ++ t.inserted.filterMap Row.stream? = rows'.tables.streams)
    (newRecords : rows.tables.records ++ t.inserted.filterMap Row.record? = rows'.tables.records)
    (newStories : ∀ b ∈ rows'.anchors, about b.descriptor.name (Session.told turns) ++
      about b.descriptor.name t.outcome.events = story rows' b)
    (newAnswers : ∀ b ∈ rows'.anchors, answered b.descriptor.name turns ++
      (t.written? b.descriptor.name).toList = (rows'.chain b.id).map Record.digest)
    (newSilence : ∀ name, (∀ b ∈ rows'.anchors, b.descriptor.name ≠ name) →
      about name t.outcome.events = [] ∧ t.written? name = none) :
    Chronicle rows' (turns ++ [t]) where
  told := by
    rw [inserted_concat, told_concat]
    have grown : ∀ s ∈ rows.tables.streams, s ∈ rows'.tables.streams := by
      intro s hs
      obtain ⟨b, hb, rfl⟩ := List.mem_map.1 hs
      exact List.mem_map_of_mem (kept b hb)
    exact List.rel_append (h.told.imp fun _ _ told => told.mono grown) newTold
  streams := by rw [inserted_concat, List.filterMap_append, h.streams, newStreams]
  records := by rw [inserted_concat, List.filterMap_append, h.records, newRecords]
  stories b hb := by rw [told_concat, about_append, newStories b hb]
  answers b hb := by rw [answered_concat, newAnswers b hb]
  silence name unused := by
    obtain ⟨quiet, none⟩ := h.silence name fun b hb => unused b (kept b hb)
    obtain ⟨stillQuiet, stillNone⟩ := newSilence name unused
    rw [told_concat, about_append, answered_concat, quiet, none, stillQuiet, stillNone]
    exact ⟨rfl, rfl⟩

theorem still (h : Chronicle rows turns) (inserted : t.inserted = [])
    (events : t.outcome.events = []) (unwritten : ∀ name, t.written? name = none) :
    Chronicle rows (turns ++ [t]) := by
  refine h.concat (fun b hb => hb) ?_ ?_ ?_ ?_ ?_ ?_
  · rw [inserted, events]
    exact .nil
  · rw [inserted]
    exact List.append_nil _
  · rw [inserted]
    exact List.append_nil _
  · intro b hb
    rw [events]
    exact (List.append_nil _).trans (h.stories b hb)
  · intro b hb
    rw [unwritten]
    exact (List.append_nil _).trans (h.answers b hb)
  · intro name _
    rw [events]
    exact ⟨rfl, unwritten name⟩

theorem created (h : Chronicle rows turns)
    (fresh : ∀ b ∈ rows.anchors, b.descriptor.name ≠ a.descriptor.name)
    (bare : rows.chain a.id = []) (inserted : t.inserted = [.stream a.row])
    (events : t.outcome.events = [.streamCreated a.announcement])
    (unwritten : ∀ name, t.written? name = none) :
    Chronicle (rows.withAnchor a) (turns ++ [t]) := by
  -- nothing was told of the name before
  obtain ⟨quiet, unanswered⟩ := h.silence a.descriptor.name fresh
  refine h.concat (fun b hb => List.mem_append_left _ hb) ?_ ?_ ?_ ?_ ?_ ?_
  · rw [inserted, events]
    exact .cons ⟨rfl, rfl⟩ .nil
  · rw [inserted, Rows.tables_withAnchor]
    rfl
  · rw [inserted, Rows.tables_withAnchor]
    exact List.append_nil _
  · intro b hb
    rcases List.mem_append.1 hb with old | new
    · rw [h.stories b old, about_of_ne events (fresh b old).symm, List.append_nil]
      rfl
    · obtain rfl := List.mem_singleton.1 new
      have told : about b.descriptor.name t.outcome.events = _ := about_of_eq events rfl
      rw [quiet, told, story, Rows.chain_withAnchor, bare]
      rfl
  · intro b hb
    rw [unwritten, Rows.chain_withAnchor]
    refine (List.append_nil _).trans ?_
    rcases List.mem_append.1 hb with old | new
    · exact h.answers b old
    · obtain rfl := List.mem_singleton.1 new
      rw [unanswered, bare]
      rfl
  · intro name unused
    have ne := unused a (List.mem_append_right _ (List.mem_singleton.2 rfl))
    exact ⟨about_of_ne events ne, unwritten name⟩

theorem written (h : Chronicle rows turns) (sound : rows.Sound H) (ha : a ∈ rows.anchors)
    (owner : r.stream = a.id) (inserted : t.inserted = [.record (r.row n)])
    (events : t.outcome.events = [.checkpoint (r.checkpoint a)])
    (written : ∀ name, t.written? name = if a.descriptor.name = name then some r.digest else none) :
    Chronicle (rows.withRecord n r) (turns ++ [t]) := by
  -- neither the number nor the name of the stream is one of another stream
  have apart : ∀ b ∈ rows.anchors, b ≠ a →
      r.stream ≠ b.id ∧ a.descriptor.name ≠ b.descriptor.name := by
    intro b hb ne
    refine ⟨fun same => ne ?_, fun same => ne (sound.eq_of_name hb ha same.symm)⟩
    exact sound.eq_of_id hb ha (same.symm.trans owner)
  refine h.concat (fun b hb => hb) ?_ ?_ ?_ ?_ ?_ ?_
  · rw [inserted, events]
    exact .cons ⟨rfl, rfl, rfl, a.row, List.mem_map_of_mem ha, owner.symm, rfl, rfl⟩ .nil
  · rw [inserted, Rows.tables_withRecord]
    exact List.append_nil _
  · rw [inserted, Rows.tables_withRecord]
    rfl
  · intro b hb
    rw [h.stories b hb]
    by_cases same : b = a
    · subst same
      have told : about b.descriptor.name t.outcome.events = _ := about_of_eq events rfl
      rw [told, story_withRecord_of_eq owner]
    · obtain ⟨stream, name⟩ := apart b hb same
      rw [about_of_ne events name, List.append_nil, story_withRecord_of_ne stream]
  · intro b hb
    rw [h.answers b hb, written]
    by_cases same : b = a
    · subst same
      rw [if_pos rfl, Rows.chain_withRecord_of_eq owner, List.map_append]
      rfl
    · obtain ⟨stream, name⟩ := apart b hb same
      rw [if_neg name, Rows.chain_withRecord_of_ne stream]
      exact List.append_nil _
  · intro name unused
    have ne := unused a ha
    exact ⟨about_of_ne events ne, (written name).trans (if_neg ne)⟩

/-- A call tells the rows that it puts into the store. -/
theorem call {c : SessionCall} {o : Outcome SessionAnswer} {rows' : Rows} {own : List StreamAnchor}
    (h : Chronicle rows turns) (sound : rows.Sound H) (holds : store.Holds rows)
    (progress : Progress H s rows rows.anchors c o rows' own) (holds' : o.store.Holds rows') :
    Chronicle rows' (turns ++ [⟨c, store, o⟩]) := by
  have inserted : Turn.inserted ⟨c, store, o⟩ = rows.tables.added rows'.tables := by
    rw [Turn.inserted, holds, holds']
  cases progress with
  | still _ events unwritten =>
    exact h.still (by rw [inserted, Tables.added_self]) events fun _ => written?_eq_none unwritten
  | created _ fresh unused _ events answer =>
    refine h.created fresh (sound.chain_eq_nil unused) ?_ events fun _ => rfl
    rw [inserted, Rows.tables_withAnchor, Tables.added_withStream]
  | written ha owner _ events answer =>
    refine h.written sound ha owner ?_ events fun _ => written?_of_write answer
    rw [inserted, Rows.tables_withRecord, Tables.added_withRecord]

end Chronicle

/-! ### Runs -/

/-- Along a run the turns tell the rows. -/
theorem Run.chronicle (run : Run H s₁ store₁ turns s store) (start : Keeps H root s₁ store₁ {}) :
    ∃ rows, Keeps H root s store rows ∧ Chronicle rows turns := by
  induction run with
  | start => exact ⟨{}, start, .empty⟩
  | turn _ c ih =>
    obtain ⟨rows, keeps, chronicle⟩ := ih
    obtain ⟨rows', progress, keeps'⟩ := keeps.call c
    exact ⟨rows', keeps', chronicle.call keeps.sound keeps.holds progress keeps'.holds⟩
  | disturb _ kept ih =>
    obtain ⟨rows, keeps, chronicle⟩ := ih
    exact ⟨rows, keeps.disturb kept, chronicle⟩

/-- The chain of a stream can be replayed from the checkpoints of it that were told. -/
structure Retold (H : HashFunction) (store : Store) (rows : Rows) (turns : List Turn)
    (a : StreamAnchor) (checkpoints : List Checkpoint) : Prop where
  /-- The stream was announced, then its checkpoints were told, and nothing else. -/
  events : about a.descriptor.name (told turns) =
    .streamCreated ⟨a.digest, a.descriptor⟩ :: checkpoints.map .checkpoint
  replayed : replay H a.digest (checkpoints.map fun c => c.message.link a.id) =
    .ok (checkpoints.map Checkpoint.digest)
  stored : (rows.chain a.id).map Record.digest = checkpoints.map Checkpoint.digest
  answers : answered a.descriptor.name turns = checkpoints.map Checkpoint.digest
  /-- The tip of an audit is the digest that was told last. -/
  tip : store.AnswersAudit → ∃ report, store.audit H = .ok report ∧
    report.tip a.descriptor.name =
      (about a.descriptor.name (told turns)).getLast?.map LedgerEvent.digest

theorem digest_of_last_story (rows : Rows) (a : StreamAnchor) :
    (story rows a).getLast?.map LedgerEvent.digest =
      some (endDigest a.digest (rows.chain a.id)) := by
  rw [story, List.getLast?_cons, List.getLast?_map, endDigest]
  cases (rows.chain a.id).getLast? <;> rfl

theorem Chronicle.retold (chronicle : Chronicle rows turns) (keeps : Keeps H root s store rows)
    {a : StreamAnchor} (ha : a ∈ rows.anchors) :
    Retold H store rows turns a ((rows.chain a.id).map fun r => r.checkpoint a) where
  events := by
    rw [chronicle.stories a ha, story, List.map_map]
    rfl
  replayed := by
    have links : ((rows.chain a.id).map fun r => r.checkpoint a).map
        (fun c => c.message.link a.id) = (rows.chain a.id).map Record.link := by
      rw [List.map_map]
      refine List.map_congr_left fun r hr => ?_
      have owner : r.stream = a.id := by simpa using (List.mem_filter.1 hr).2
      rw [Record.link, owner]
      rfl
    rw [links, List.map_map]
    exact keeps.sound.chains a ha
  stored := by rw [List.map_map]; rfl
  answers := by rw [chronicle.answers a ha, List.map_map]; rfl
  tip answers := by
    refine ⟨_, Store.audit_of_sound keeps.holds keeps.sound keeps.threads answers, ?_⟩
    rw [Store.tip_of_sound keeps.sound ha, chronicle.stories a ha, digest_of_last_story]

/-- **The ledger is told of exactly the rows that a session puts into a store**, in the order in
which it does, and from what was told of a stream its chain can be replayed. -/
theorem published_history (fresh : s₀.registry.streams = []) (enters : s₀.Enters s₁ store₁)
    (vacant : store₁.tables.streams = []) (referential : store₁.tables.Referential)
    (run : Run H s₁ store₁ turns s store) :
    List.Forall₂ (Row.IsToldBy store.tables) (turns.flatMap Turn.inserted) (told turns) ∧
      (turns.flatMap Turn.inserted).filterMap Row.stream? = store.tables.streams ∧
      (turns.flatMap Turn.inserted).filterMap Row.record? = store.tables.records ∧
      ∃ rows, store.Holds rows ∧
        ∀ a ∈ rows.anchors, ∃ checkpoints, Retold H store rows turns a checkpoints := by
  rw [← enters.registry] at fresh
  obtain ⟨rows, keeps, chronicle⟩ :=
    run.chronicle (.of_empty fresh (Store.holds_empty vacant referential))
  have tables : store.tables = rows.tables := keeps.holds
  rw [tables]
  exact ⟨chronicle.told, chronicle.streams, chronicle.records, rows, keeps.holds,
    fun a ha => ⟨_, chronicle.retold keeps ha⟩⟩

/-- A session on a new store in memory that writes before and after it creates the stream. -/
theorem published_history_of_writes :
    let s₀ := ofNonce (Nonce.fill 1) {}
    let H : HashFunction := fun _ => default
    let entered := s₀.attach .inMemory 0 .readWrite
    let refused := entered.session.call H entered.store (.write ⟨"trades", 7, [1, 2]⟩)
    let created := refused.session.call H refused.store (.create ⟨"trades", "Trade", "json"⟩)
    let written := created.session.call H created.store (.write ⟨"trades", 7, [1, 2]⟩)
    let turns := [⟨.write ⟨"trades", 7, [1, 2]⟩, entered.store, refused⟩,
      ⟨.create ⟨"trades", "Trade", "json"⟩, refused.store, created⟩,
      ⟨.write ⟨"trades", 7, [1, 2]⟩, created.store, written⟩]
    entered.answer = .ok () ∧ entered.store.tables.streams = [] ∧
      entered.store.tables.Referential ∧ Run H entered.session entered.store turns
        written.session written.store ∧
      ∃ rows, written.store.Holds rows ∧
        ∀ a ∈ rows.anchors, ∃ checkpoints, Retold H written.store rows turns a checkpoints := by
  intro s₀ H entered refused created written turns
  have enters : s₀.Enters entered.session entered.store := .attach rfl
  have referential : entered.store.tables.Referential := fun r h => (List.not_mem_nil h).elim
  have run : Run H entered.session entered.store turns written.session written.store :=
    .turn (.turn (.turn .start _) _) _
  exact ⟨rfl, rfl, referential, run, (published_history rfl enters rfl referential run).2.2.2⟩

end Session

end SealedLog
