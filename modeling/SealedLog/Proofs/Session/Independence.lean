import SealedLog.Proofs.Registry
import SealedLog.Proofs.Session.Published
import SealedLog.Proofs.Session.Rest
import SealedLog.Proofs.Store.Alike

/-!
# Streams do not depend on one another

A session that has its store for itself leaves in it what its root nonce, the streams in the order
of their creation, and the records of each stream determine. How the records of different streams
and the creations were interleaved only shows where a reading comes to records of one time.

* `Session.Solo`: what one session was asked that had its store for itself;
* `Session.Filed`: the rows that it leaves, and `Solo.filed`;
* `Store.IsRead`: what is read of a store, from its first record to the end;
* `Session.Matches`, `Session.independence`: two sessions leave the same.
-/

namespace SealedLog

variable {H : HashFunction} {root nonce : Nonce} {rows rows' : Rows} {store store' : Store}

/-- The record that an event tells of. -/
def LedgerEvent.message? : LedgerEvent → Option Message
  | .streamCreated _ => none
  | .checkpoint c => some c.message

open LedgerEvent in
/-- The records that are told of a stream are those of its name. -/
theorem LedgerEvent.messages_about (name : String) (events : List LedgerEvent) :
    (about name events).filterMap message? =
      (events.filterMap message?).filter fun m => m.stream == name := by
  induction events with
  | nil => rfl
  | cons e events ih =>
    rw [about] at ih ⊢
    cases e with
    | streamCreated a =>
      rw [List.filterMap_cons_none (f := message?) rfl, ← ih, List.filter_cons]
      split_ifs <;> rfl
    | checkpoint c =>
      rw [List.filterMap_cons_some (f := message?) rfl, List.filter_cons, List.filter_cons, ← ih]
      by_cases same : (c.message.stream == name) = true
      · rw [if_pos same]
        exact congrArg (List.filterMap message?) (if_pos same)
      · rw [if_neg same]
        exact congrArg (List.filterMap message?) (if_neg same)

/-- Streams that count from one have the same numbers if there are as many. -/
theorem Rows.Sound.ids_eq (sound : rows.Sound H) (sound' : rows'.Sound H)
    (count : rows.anchors.length = rows'.anchors.length) :
    rows.anchors.map StreamAnchor.id = rows'.anchors.map StreamAnchor.id := by
  refine List.ext_getElem (by simpa using count) fun k here there => ?_
  rw [List.getElem_map, List.getElem_map]
  rw [List.length_map] at here there
  have number := sound.number_eq (List.getElem?_eq_getElem here)
  have number' := sound'.number_eq (List.getElem?_eq_getElem there)
  generalize rows.anchors[k].id = id at number ⊢
  generalize rows'.anchors[k].id = id' at number' ⊢
  cases id
  cases id'
  rw [StreamId.mk.injEq]
  exact Int64.toInt_inj.1 (number.trans number'.symm)

namespace Session

variable {s s' s₀ s₁ : Session} {store₀ store₁ : Store} {turns turns' : List Turn}

/-- A session without streams opened a store without streams for writing and was asked these things
since, while nobody else changed the rows of the store. -/
inductive Solo (H : HashFunction) (root : Nonce) (turns : List Turn) (s : Session) (store : Store) :
    Prop
  | run {s₀ s₁ : Session} {store₁ : Store} (fresh : s₀.registry.streams = [])
      (first : s₀.registry.nonce = root) (enters : s₀.Enters s₁ store₁)
      (vacant : store₁.tables.streams = []) (referential : store₁.tables.Referential)
      (run : Run H s₁ store₁ turns s store) : Solo H root turns s store

/-! ### What a session leaves -/

/-- The ledger is told of the records that were written. -/
theorem Run.told_written (run : Run H s₀ store₀ turns s store) :
    (told turns).filterMap LedgerEvent.message? = written turns := by
  induction run with
  | start => rfl
  | @turn turns s store _ c ih =>
    rw [told_concat, List.filterMap_append, written_concat, ih]
    congr 1
    have effect := call_effect H s store c
    generalize s.call H store c = o at effect ⊢
    cases effect with
    | still still unwritten =>
      rw [still.events, message?_eq_none unwritten]
      rfl
    | created _ _ _ _ _ _ _ events _ =>
      rw [events]
      rfl
    | written _ _ _ _ _ _ _ events answer =>
      rw [events]
      simp [LedgerEvent.message?, Turn.message?, answer]
  | disturb _ _ ih => exact ih

theorem Keeps.lineage (keeps : Keeps H root s store rows) :
    Lineage H root rows.anchors s.registry.nonce :=
  ⟨keeps.threads, keeps.sound.digests⟩

/-- The rows that a session leaves, and how they come of what it was asked: the descriptors in the
order of their creation, and of each stream what was written to it. -/
structure Filed (H : HashFunction) (root : Nonce) (turns : List Turn) (s : Session) (store : Store)
    (rows : Rows) : Prop where
  keeps : Keeps H root s store rows
  accounts : Accounts store.tables turns
  descriptors : rows.anchors.map StreamAnchor.descriptor = created turns
  messages : ∀ a ∈ rows.anchors, (rows.chain a.id).map (fun r => r.message a) =
    (written turns).filter fun m => m.stream == a.descriptor.name
  answers : ∀ a ∈ rows.anchors,
    answered a.descriptor.name turns = (rows.chain a.id).map Record.digest
  silence : ∀ name, (∀ a ∈ rows.anchors, a.descriptor.name ≠ name) → answered name turns = []

theorem Solo.filed (solo : Solo H root turns s store) :
    ∃ rows, Filed H root turns s store rows := by
  obtain @⟨s₀, s₁, store₁, fresh, rfl, enters, vacant, referential, run⟩ := solo
  rw [← enters.registry] at fresh ⊢
  have start : Keeps H s₁.registry.nonce s₁ store₁ {} :=
    .of_empty fresh (Store.holds_empty vacant referential)
  obtain ⟨rows, keeps, chronicle⟩ := run.chronicle start
  have accounts := run.accounted start
  refine ⟨rows, keeps, accounts, ?_, fun a ha => ?_, chronicle.answers,
    fun name unused => (chronicle.silence name unused).2⟩
  · rw [← accounts.streams, keeps.holds, Tables.streamList, Rows.tables_streams, List.map_map]
    rfl
  · rw [← run.told_written, ← LedgerEvent.messages_about, chronicle.stories a ha, story,
      List.filterMap_cons_none rfl, List.filterMap_map]
    exact (congrFun (List.filterMap_eq_map (f := fun r : Record => r.message a)) _).symm

/-! ### The same rows -/

/-- The links of a chain are those of its records under the number of the stream. -/
theorem links_chain (rows : Rows) (a : StreamAnchor) :
    (rows.chain a.id).map Record.link =
      ((rows.chain a.id).map fun r => r.message a).map fun m => m.link a.id := by
  rw [List.map_map]
  refine List.map_congr_left fun r hr => ?_
  have owner : r.stream = a.id := by simpa using (List.mem_filter.1 hr).2
  rw [Record.link, owner]
  rfl

namespace Filed

/-- Root, creations and the records of each stream determine the rows and the nonce. -/
theorem same_rows (filed : Filed H root turns s store rows)
    (filed' : Filed H root turns' s' store' rows') (creations : created turns = created turns')
    (writes : ∀ name, (written turns).filter (fun m => m.stream == name) =
      (written turns').filter fun m => m.stream == name) :
    rows.anchors = rows'.anchors ∧ s.registry.nonce = s'.registry.nonce ∧
      ∀ id, rows.chain id = rows'.chain id := by
  have descriptors : rows.anchors.map StreamAnchor.descriptor =
      rows'.anchors.map StreamAnchor.descriptor := by
    rw [filed.descriptors, filed'.descriptors, creations]
  have count : rows.anchors.length = rows'.anchors.length := by
    simpa using congrArg List.length descriptors
  have ids := filed.keeps.sound.ids_eq filed'.keeps.sound count
  obtain ⟨anchors, nonce⟩ := filed.keeps.lineage.unique filed'.keeps.lineage ids descriptors
  refine ⟨anchors, nonce, fun id => ?_⟩
  by_cases used : ∃ a ∈ rows.anchors, a.id = id
  · obtain ⟨a, ha, rfl⟩ := used
    have ha' : a ∈ rows'.anchors := anchors ▸ ha
    refine (filed.keeps.sound.chains a ha).unique (filed'.keeps.sound.chains a ha') ?_
    rw [links_chain, links_chain, filed.messages a ha, filed'.messages a ha', writes]
  · have unused : ∀ a ∈ rows.anchors, a.id ≠ id := fun a ha same => used ⟨a, ha, same⟩
    have unused' : ∀ a ∈ rows'.anchors, a.id ≠ id := anchors ▸ unused
    rw [filed.keeps.sound.chain_eq_nil unused, filed'.keeps.sound.chain_eq_nil unused']

/-- A registry says of its streams what is in the rows. -/
theorem same_streams (filed : Filed H root turns s store rows)
    (filed' : Filed H root turns' s' store' rows') (anchors : rows.anchors = rows'.anchors)
    (chains : ∀ id, rows.chain id = rows'.chain id) :
    s.registry.streams = s'.registry.streams := by
  rw [filed.keeps.follows.streams, filed'.keeps.follows.streams, anchors]
  refine List.map_congr_left fun a _ => ?_
  rw [Rows.entry, Rows.entry, chains]

theorem same_answers (filed : Filed H root turns s store rows)
    (filed' : Filed H root turns' s' store' rows') (anchors : rows.anchors = rows'.anchors)
    (chains : ∀ id, rows.chain id = rows'.chain id) (name : String) :
    answered name turns = answered name turns' := by
  by_cases used : ∃ a ∈ rows.anchors, a.descriptor.name = name
  · obtain ⟨a, ha, rfl⟩ := used
    rw [filed.answers a ha, filed'.answers a (anchors ▸ ha), chains]
  · have unused : ∀ a ∈ rows.anchors, a.descriptor.name ≠ name :=
      fun a ha same => used ⟨a, ha, same⟩
    rw [filed.silence name unused, filed'.silence name (anchors ▸ unused)]

end Filed

end Session

/-! ### Reading -/

/-- These records are read of a store to which nobody writes: by a session that has read nothing
before, and that has come to the end. -/
def Store.IsRead (H : HashFunction) (store : Store) (ms : List Message) : Prop :=
  ∃ s log s' after, s.cursor? = some {} ∧ Session.Reads H s store log s' after ∧
    (∀ m, ReadEvent.inserted m ∉ log) ∧ ReadEvent.ended ∈ log ∧ ReadEvent.messages log = ms

/-- All records are read, in the order of time. -/
theorem Store.IsRead.sorted {ms : List Message} (read : store.IsRead H ms)
    (ordered : store.tables.Ordered) :
    ms.Perm (store.tables.messages.map StoredMessage.message) ∧
      ms.Pairwise fun m m' => m.timestamp ≤ m'.timestamp := by
  obtain ⟨s, log, s', after, fresh, run, alone, ended, rfl⟩ := read
  obtain ⟨-, ordered', c, -, reading⟩ := run.reading fresh ordered
  have records : ReadEvent.records log = after.tables.reading :=
    reading.records_eq ordered' ended fun _ m came => absurd (came.subset (by simp)) (alone m)
  obtain ⟨read, fetched, delivered⟩ := reading.fetched
  rw [(reading.ended ended).2, List.append_nil, records] at fetched
  rw [delivered, ← fetched]
  -- nothing came in, so that the records are those of before
  have kept : after.tables.messages.Perm store.tables.messages := by
    refine (List.perm_ext_iff_of_nodup (.of_map _ ordered'.messages_distinct)
      (.of_map _ ordered.messages_distinct)).2 fun m => ?_
    rw [reading.origin m, or_iff_left (alone m)]
  refine ⟨(after.tables.reading_perm.trans kept).map _, ?_⟩
  refine List.pairwise_map.2 (ordered'.reading_ascending.imp fun {m m'} before => ?_)
  rw [Int64.le_iff_toInt_le]
  obtain earlier | ⟨together, -⟩ := ReadPosition.before_iff.1 before
  · exact Int.le_of_lt earlier
  · exact Int.le_of_eq together

namespace Session

variable {r r₀ : Session} {log : List ReadEvent} {t : Tables} {rest : List StoredMessage}

/-- A session that asks for a page delivers nothing by that. -/
theorem asked_quiet (r : Session) (store : Store) :
    (∀ m, ReadEvent.inserted m ∉ r.asked store) ∧ ReadEvent.messages (r.asked store) = [] := by
  unfold asked
  cases r.opened with
  | none => simp [ReadEvent.messages]
  | some o =>
    dsimp only
    split_ifs
    · cases store.page o.cursor.position r.config.batch <;>
        simp [ReadEvent.messages, ReadEvent.message?]
    · simp [ReadEvent.messages]

/-- A session can go on to the end, and delivers what was left to read. -/
theorem Reads.to_end (run : Reads H r₀ store₀ log r store) (browses : r.Browses t rest)
    (offers : store.Offers t) (ordered : t.Ordered) (alone : ∀ m, ReadEvent.inserted m ∉ log) :
    ∃ log' r' store', Reads H r₀ store₀ log' r' store' ∧ (∀ m, ReadEvent.inserted m ∉ log') ∧
      ReadEvent.ended ∈ log' ∧
      ReadEvent.messages log' = ReadEvent.messages log ++ rest.map StoredMessage.message := by
  induction rest generalizing log r store with
  | nil =>
    obtain ⟨-, -, answer⟩ := browses.readNext offers ordered
    obtain ⟨quiet, none⟩ := r.asked_quiet store
    refine ⟨_, _, _, run.readNext, fun m => ?_, ?_, ?_⟩
    · simp [answer, saidRead, alone m, quiet m]
    · simp [answer, saidRead]
    · rw [ReadEvent.messages_append, ReadEvent.messages_append, none, answer, List.append_nil]
      rfl
  | cons next rest ih =>
    obtain ⟨browses', offers', answer⟩ := browses.readNext offers ordered
    obtain ⟨quiet, none⟩ := r.asked_quiet store
    obtain ⟨log', r', store', run', alone', ended, delivered⟩ := ih run.readNext browses' offers'
      fun m => by simp [answer, saidRead, alone m, quiet m]
    refine ⟨log', r', store', run', alone', ended, ?_⟩
    rw [delivered, ReadEvent.messages_append, ReadEvent.messages_append, none, answer,
      List.append_nil, List.append_assoc]
    rfl

end Session

/-- What a store offers is read in the order of reading. -/
theorem Store.Offers.isRead {t : Tables} (offers : store.Offers t) (ordered : t.Ordered) :
    store.IsRead H (t.reading.map StoredMessage.message) := by
  -- a session that has just opened the store for reading
  let s : Session :=
    { registry := { nonce := default }, opened := some { store := 0, mode := .readOnly } }
  have browses : s.Browses t t.reading :=
    ⟨⟨_, rfl, ReadCursor.rest_start ordered⟩, fun o h streams cached => by
      cases Option.mem_some_iff.1 h
      cases cached⟩
  obtain ⟨log, s', after, run, alone, ended, delivered⟩ :=
    (Session.Reads.start (H := H)).to_end browses offers ordered fun _ h => nomatch h
  exact ⟨s, log, s', after, rfl, run, alone, ended, delivered⟩

namespace Session

variable {s s' : Session} {turns turns' : List Turn}

/-- What was written is the same up to its order if it is the same stream by stream. -/
theorem perm_of_streams {ms ms' : List Message}
    (same : ∀ name, ms.filter (fun m => m.stream == name) = ms'.filter fun m => m.stream == name) :
    ms.Perm ms' := by
  refine List.perm_iff_count.2 fun m => ?_
  have own : ∀ l : List Message,
      (l.filter fun m' => m'.stream == m.stream).count m = l.count m :=
    fun l => List.count_filter (beq_self_eq_true m.stream)
  rw [← own ms, ← own ms', same]

/-- What two sessions have left in their stores, and have been answered, that were asked the same of
each stream. -/
structure Matches (H : HashFunction) (turns : List Turn) (s : Session) (store : Store)
    (turns' : List Turn) (s' : Session) (store' : Store) : Prop where
  /-- The streams are the same, and so is the chain of each. -/
  rows : ∃ rows rows', store.Holds rows ∧ store'.Holds rows' ∧ rows.anchors = rows'.anchors ∧
    ∀ id, rows.chain id = rows'.chain id
  /-- The registries have the same streams with the same tips. -/
  streams : s.registry.streams = s'.registry.streams
  nonce : s.registry.nonce = s'.registry.nonce
  /-- The writes to a stream were answered the same digests. -/
  answers : ∀ name, answered name turns = answered name turns'
  /-- What is read differs at most in the order of records of one time. -/
  reads : ∀ ms ms', store.IsRead H ms → store'.IsRead H ms' →
    ms.Perm ms' ∧ ms.map Message.timestamp = ms'.map Message.timestamp

/-- **Streams do not depend on one another.** Two sessions with one root nonce, each with a store
for itself, that created the same streams in the same order and wrote the same to each of them, in
whatever order, leave the same. -/
theorem independence (solo : Solo H root turns s store) (solo' : Solo H root turns' s' store')
    (creations : created turns = created turns')
    (writes : ∀ name, (written turns).filter (fun m => m.stream == name) =
      (written turns').filter fun m => m.stream == name) :
    Matches H turns s store turns' s' store' := by
  obtain ⟨rows, filed⟩ := solo.filed
  obtain ⟨rows', filed'⟩ := solo'.filed
  obtain ⟨anchors, nonce, chains⟩ := filed.same_rows filed' creations writes
  refine ⟨⟨rows, rows', filed.keeps.holds, filed'.keeps.holds, anchors, chains⟩,
    filed.same_streams filed' anchors chains, nonce,
    filed.same_answers filed' anchors chains, fun ms ms' read read' => ?_⟩
  obtain ⟨perm, sorted⟩ := read.sorted filed.accounts.ordered
  obtain ⟨perm', sorted'⟩ := read'.sorted filed'.accounts.ordered
  rw [filed.accounts.messages] at perm
  rw [filed'.accounts.messages] at perm'
  have same : ms.Perm ms' := perm.trans ((perm_of_streams writes).trans perm'.symm)
  refine ⟨same, ?_⟩
  exact List.Perm.eq_of_pairwise (fun _ _ _ _ => Int64.le_antisymm) (List.pairwise_map.2 sorted)
    (List.pairwise_map.2 sorted') (same.map _)

/-- A session that writes to a stream before it creates another one, and a session that creates
both first. -/
theorem independence_of_late_stream :
    let H : HashFunction := fun _ => default
    let trades : StreamDescriptor := ⟨"trades", "Trade", "json"⟩
    let quotes : StreamDescriptor := ⟨"quotes", "Quote", "json"⟩
    let m : Message := ⟨"trades", 7, [1, 2]⟩
    let s₀ := ofNonce (Nonce.fill 1) {}
    let entered := s₀.attach .inMemory 0 .readWrite
    let first := entered.session.call H entered.store (.create trades)
    let written := first.session.call H first.store (.write m)
    let last := written.session.call H written.store (.create quotes)
    let turns := [⟨.create trades, entered.store, first⟩, ⟨.write m, first.store, written⟩,
      ⟨.create quotes, written.store, last⟩]
    let second' := first.session.call H first.store (.create quotes)
    let last' := second'.session.call H second'.store (.write m)
    let turns' := [⟨.create trades, entered.store, first⟩, ⟨.create quotes, first.store, second'⟩,
      ⟨.write m, second'.store, last'⟩]
    Solo H (Nonce.fill 1) turns last.session last.store ∧
      Solo H (Nonce.fill 1) turns' last'.session last'.store ∧
      created turns = [trades, quotes] ∧ created turns' = [trades, quotes] ∧
      Session.written turns = [m] ∧ Session.written turns' = [m] ∧
      Matches H turns last.session last.store turns' last'.session last'.store := by
  intro H trades quotes m s₀ entered first written last turns second' last' turns'
  let a : StreamAnchor := ⟨⟨1⟩, trades, Nonce.fill 1, default⟩
  let b : StreamAnchor := ⟨⟨2⟩, quotes, Nonce.fill 0, default⟩
  let row : Int64 × Record := (1, ⟨7, ⟨1⟩, [1, 2], default⟩)
  let held (anchors : List StreamAnchor) (records : List (Int64 × Record)) (n : Int64) : Store :=
    ⟨.memory ⟨anchors, records, true, n⟩, FaultPlan.none⟩
  let registry (streams : List (String × StreamState)) : StreamRegistry :=
    ⟨Nonce.fill 0, streams, .immutableChain⟩
  let o : OpenState := { store := 0, mode := .readWrite }
  let o' : OpenState := { o with prepared := true }
  have anchored {r : StreamRegistry} : ∀ d ∈ [trades, quotes],
      r.anchor H d = .ok (default, Nonce.fill 0) := fun d mem =>
    have valid : ∀ d ∈ [trades, quotes], d.validate = .ok () := by decide
    StreamRegistry.anchor_const default (valid d mem)
  -- the first record of a store gets the number one, whichever streams there are
  have wrote {anchors : List StreamAnchor} {streams : List (String × StreamState)} (n : Int64)
      (known : (anchors.find? fun a => a.id == ⟨1⟩).isSome)
      (registered : (registry streams).lookup "trades" = some ⟨⟨1⟩, default, Nonce.fill 0⟩) :
      Session.call H ⟨registry streams, {}, some o⟩ (held anchors [] n) (.write m) = {
        session := ⟨(registry streams).advance "trades" default, {}, some o'⟩
        store := held anchors [row] 1
        events := [.checkpoint ⟨default, Nonce.fill 0, m⟩]
        answer := .ok (.written default) } :=
    have there : (MemoryStore.streamName? ⟨anchors, [], true, n⟩ ⟨1⟩).isSome := by
      simpa [MemoryStore.streamName?] using known
    have next : (if (0 : Int64) < Int64.maxValue then .ok (0 + 1) else .error (.database .full) :
      Except StoreError Int64) = .ok 1 := rfl
    write_of_inserted (s := ⟨registry streams, {}, some o⟩) (m := m) rfl registered
      (show o.prepare (held anchors [] n) = (held anchors [] n, .ok o') from rfl)
      (recordDigest_const default rfl)
      (Store.insertRecord_of_memory rfl rfl (MemoryStore.insertRecord_of_next rfl there next))
  have first_eq : first = ⟨⟨registry [("trades", ⟨⟨1⟩, default, Nonce.fill 0⟩)], {}, some o⟩,
      held [a] [] 1, [.streamCreated ⟨default, trades⟩], .ok (.created ⟨1⟩)⟩ :=
    create_of_inserted rfl rfl (anchored trades (by simp)) rfl
  have written_eq : written = _ :=
    (congrArg (fun o => o.session.call H o.store (.write m)) first_eq).trans (wrote 1 rfl rfl)
  have last_eq : last = _ :=
    (congrArg (fun o => o.session.call H o.store (.create quotes)) written_eq).trans
      (create_of_inserted rfl rfl (anchored quotes (by simp))
        (show (held [a] [row] 1).insertStream quotes (Nonce.fill 0) default =
          (held [a, b] [row] 2, .ok ⟨2⟩) from rfl))
  have second_eq' : second' = _ :=
    (congrArg (fun o => o.session.call H o.store (.create quotes)) first_eq).trans
      (create_of_inserted rfl rfl (anchored quotes (by simp))
        (show (held [a] [] 1).insertStream quotes (Nonce.fill 0) default =
          (held [a, b] [] 2, .ok ⟨2⟩) from rfl))
  have last_eq' : last' = _ :=
    (congrArg (fun o => o.session.call H o.store (.write m)) second_eq').trans (wrote 2 rfl rfl)
  have enters : s₀.Enters entered.session entered.store := .attach rfl
  have referential : entered.store.tables.Referential := fun r h => (List.not_mem_nil h).elim
  have solo : Solo H (Nonce.fill 1) turns last.session last.store :=
    .run rfl rfl enters rfl referential (.turn (.turn (.turn .start _) _) _)
  have solo' : Solo H (Nonce.fill 1) turns' last'.session last'.store :=
    .run rfl rfl enters rfl referential (.turn (.turn (.turn .start _) _) _)
  have atFirst : first.answer = .ok (.created ⟨1⟩) := congrArg Outcome.answer first_eq
  have atWritten : written.answer = .ok (.written default) := congrArg Outcome.answer written_eq
  have atLast : last.answer = .ok (.created ⟨2⟩) := congrArg Outcome.answer last_eq
  have atSecond' : second'.answer = .ok (.created ⟨2⟩) := congrArg Outcome.answer second_eq'
  have atLast' : last'.answer = .ok (.written default) := congrArg Outcome.answer last_eq'
  -- what was created and written is seen from the answers alone
  clear_value first written last second' last'
  have creations : created turns = [trades, quotes] ∧ created turns' = [trades, quotes] := by
    simp [created, withCreated, turns, turns', List.filterMap_cons, Turn.descriptor?, atFirst,
      atLast, atSecond', trades, quotes]
  have writes : Session.written turns = [m] ∧ Session.written turns' = [m] := by
    simp [Session.written, turns, turns', List.filterMap_cons, Turn.message?, atWritten, atLast']
  exact ⟨solo, solo', creations.1, creations.2, writes.1, writes.2,
    independence solo solo' (creations.1.trans creations.2.symm) fun name => by
      rw [writes.1, writes.2]⟩

end Session

end SealedLog
