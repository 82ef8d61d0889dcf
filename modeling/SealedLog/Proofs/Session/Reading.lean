import Mathlib.Data.List.Perm.Subperm
import SealedLog.Proofs.Session.Call
import SealedLog.Proofs.Store.Pages

/-!
# Reading while records come in

A session reads page by page, and between its reads records may come in from anywhere and pages may
fail to be answered. What it gets goes upwards in the order of reading and leaves out nothing that
was there in time.

* `ReadEvent`: what is noted of a session that reads;
* `Session.Reads`: a session reads while records come in;
* `IsDue`: a record was there when the first page was fetched, or came in behind the last record
  fetched before the last page was;
* `Reading`: how far the reading has got, the invariant of such runs;
* `Session.delivery`: what is delivered.
-/

namespace SealedLog

variable {H : HashFunction}

/-- What is noted of a session that reads while records come in. -/
inductive ReadEvent
  /-- A page was asked for and answered. -/
  | fetched (page : List StoredMessage)
  /-- A page was asked for and not answered. -/
  | failed (error : StoreError)
  /-- A record was read. -/
  | delivered (message : Message)
  /-- It was answered that there is no more to read. -/
  | ended
  /-- A record came into the store. -/
  | inserted (message : StoredMessage)

namespace ReadEvent

def page? : ReadEvent → Option (List StoredMessage)
  | .fetched page => some page
  | _ => none

def message? : ReadEvent → Option Message
  | .delivered message => some message
  | _ => none

/-- The pages that were fetched. -/
def pages (log : List ReadEvent) : List (List StoredMessage) := log.filterMap page?

/-- The records that were fetched. -/
def records (log : List ReadEvent) : List StoredMessage := (pages log).flatten

/-- The records that were read. -/
def messages (log : List ReadEvent) : List Message := log.filterMap message?

@[simp] theorem pages_append (log log' : List ReadEvent) :
    pages (log ++ log') = pages log ++ pages log' := List.filterMap_append

@[simp] theorem records_append (log log' : List ReadEvent) :
    records (log ++ log') = records log ++ records log' := by simp [records]

@[simp] theorem messages_append (log log' : List ReadEvent) :
    messages (log ++ log') = messages log ++ messages log' := List.filterMap_append

end ReadEvent

open ReadEvent

/-- The records that came into the tables. -/
def Tables.arrivals (before after : Tables) : List ReadEvent :=
  (after.messages.drop before.messages.length).map ReadEvent.inserted

namespace Session

/-- What comes of the page that the session asks for before it reads, if it asks for one. -/
def asked (s : Session) (store : Store) : List ReadEvent :=
  match s.opened with
  | none => []
  | some o =>
    if o.cursor.isSpent then
      match store.page o.cursor.position s.config.batch with
      | .ok page => [.fetched page]
      | .error e => [.failed e]
    else []

/-- What the answer of `hasNext` says. -/
def saidNext : Except SessionError Bool → List ReadEvent
  | .ok false => [.ended]
  | _ => []

/-- What the answer of `readNext` says. -/
def saidRead : Except SessionError Message → List ReadEvent
  | .ok message => [.delivered message]
  | .error .endOfStream => [.ended]
  | _ => []

/-- A session reads while records come in: it looks for another record, reads one, or is asked
something else, and between its calls others may add a row. They may do anything else to the store
that keeps its rows, so that any of its operations may fail at any time. -/
inductive Reads (H : HashFunction) (s₀ : Session) (store₀ : Store) :
    List ReadEvent → Session → Store → Prop
  | start : Reads H s₀ store₀ [] s₀ store₀
  | hasNext {log : List ReadEvent} {s : Session} {store : Store}
      (run : Reads H s₀ store₀ log s store) :
      Reads H s₀ store₀ (log ++ s.asked store ++ saidNext (s.hasNext store).answer)
        (s.hasNext store).session (s.hasNext store).store
  | readNext {log : List ReadEvent} {s : Session} {store : Store}
      (run : Reads H s₀ store₀ log s store) :
      Reads H s₀ store₀ (log ++ s.asked store ++ saidRead (s.readNext store).answer)
        (s.readNext store).session (s.readNext store).store
  | call {log : List ReadEvent} {s : Session} {store : Store}
      (run : Reads H s₀ store₀ log s store) (c : SessionCall)
      (other : c ≠ .hasNext ∧ c ≠ .readNext ∧ c ≠ .readAll) :
      Reads H s₀ store₀ (log ++ store.tables.arrivals (s.call H store c).store.tables)
        (s.call H store c).session (s.call H store c).store
  | others {log : List ReadEvent} {s : Session} {store store' : Store}
      (run : Reads H s₀ store₀ log s store) (grows : store.tables.Grows store'.tables) :
      Reads H s₀ store₀ (log ++ store.tables.arrivals store'.tables) s store'

end Session

/-- The record came in when no page shorter than `batch` had been fetched, and behind the last
record fetched. -/
def CameInTime (batch : Nat) (log : List ReadEvent) (m : StoredMessage) : Prop :=
  ∃ before, before ++ [.inserted m] <+: log ∧ (∀ page ∈ pages before, ¬ page.length < batch) ∧
    ∀ last ∈ (records before).getLast?, last.position.before m.position = true

/-- The record was there when the first page was fetched. -/
def WasThere (initial : List StoredMessage) (log : List ReadEvent) (m : StoredMessage) : Prop :=
  m ∈ initial ∨ ∃ before, before ++ [.inserted m] <+: log ∧ pages before = []

/-- The record is to be delivered: it was there at the start, or came in time. -/
def IsDue (batch : Nat) (initial : List StoredMessage) (log : List ReadEvent) (m : StoredMessage) :
    Prop :=
  m ∈ initial ∨ CameInTime batch log m

/-! ### What is due -/

section

variable {batch : Nat} {initial : List StoredMessage} {log : List ReadEvent} {m : StoredMessage}

/-- Only its own coming in makes a record due. -/
theorem isDue_concat_of_ne {e : ReadEvent} (other : e ≠ .inserted m) :
    IsDue batch initial (log ++ [e]) m ↔ IsDue batch initial log m := by
  have same : ∀ before,
      before ++ [.inserted m] <+: log ++ [e] ↔ before ++ [.inserted m] <+: log := by
    intro before
    rw [List.prefix_concat_iff, or_iff_right]
    intro same
    exact other (List.singleton_inj.1 (List.append_inj' same rfl).2).symm
  simp only [IsDue, CameInTime, same]

/-- A new record is due unless it comes too late. -/
theorem isDue_concat_self (new : m ∉ initial) (once : .inserted m ∉ log) :
    IsDue batch initial (log ++ [.inserted m]) m ↔
      (∀ page ∈ pages log, ¬ page.length < batch) ∧
        ∀ last ∈ (records log).getLast?, last.position.before m.position = true := by
  have here : ∀ before, before ++ [.inserted m] <+: log ++ [.inserted m] ↔ before = log := by
    intro before
    rw [List.prefix_concat_iff, or_iff_left, List.append_left_inj]
    intro earlier
    exact once (earlier.subset (by simp))
  simp only [IsDue, CameInTime, here, new, false_or, exists_eq_left]

/-- What came in before the first page was fetched came in time. -/
theorem isDue_iff : IsDue batch initial log m ↔
    WasThere initial log m ∨ CameInTime batch log m := by
  constructor
  · exact fun h => h.imp_left .inl
  · rintro ((there | ⟨before, came, none⟩) | inTime)
    · exact .inl there
    · refine .inr ⟨before, came, fun page h => ?_, fun last h => ?_⟩
      · rw [none] at h
        cases h
      · rw [records, none] at h
        cases h
    · exact .inr inTime

end

/-! ### How far the reading has got -/

/-- The reading of a session whose store has these tables has come to this cursor. -/
structure Reading (batch : Nat) (initial : List StoredMessage) (log : List ReadEvent) (t : Tables)
    (c : ReadCursor) : Prop where
  /-- What was fetched was delivered, or is still to be. -/
  fetched : ∃ read, records log = read ++ c.buffer ∧ messages log = read.map StoredMessage.message
  ascending : (records log).Pairwise fun m m' => m.position.before m'.position = true
  position : c.position = ReadPosition.start.past (records log)
  exhausted : c.exhausted = true ↔ ∃ page ∈ pages log, page.length < batch
  stored : ∀ m ∈ records log, m ∈ t.messages
  origin : ∀ m, m ∈ t.messages ↔ m ∈ initial ∨ .inserted m ∈ log
  /-- What was fetched or is behind the cursor is what is due. -/
  due : ∀ m ∈ t.messages, (m ∈ records log ∨
    c.exhausted = false ∧ c.position.before m.position = true) ↔ IsDue batch initial log m
  ended : .ended ∈ log → c.exhausted = true ∧ c.buffer = []

namespace Reading

variable {batch : Nat} {initial : List StoredMessage} {log : List ReadEvent} {t t' : Tables}
  {c c' : ReadCursor} {e : ReadEvent}

theorem start (ordered : t.Ordered) : Reading batch t.messages [] t {} where
  fetched := ⟨[], rfl, rfl⟩
  ascending := .nil
  position := rfl
  exhausted := by simp [pages]
  stored _ h := nomatch h
  origin m := (or_iff_left List.not_mem_nil).symm
  due m hm := by
    have behind : ReadPosition.start.before m.position = true :=
      ReadPosition.start_before (ordered.positive_of_mem hm)
    exact iff_of_true (.inr ⟨rfl, behind⟩) (.inl hm)
  ended h := nomatch h

/-- An event that neither brings a page nor a record moves nothing but what is delivered. -/
theorem quiet (r : Reading batch initial log t c) (noPage : e.page? = none)
    (noRecord : ∀ m, e ≠ .inserted m) (position : c'.position = c.position)
    (exhausted : c'.exhausted = c.exhausted)
    (fetched : ∃ read, records log = read ++ c'.buffer ∧
      messages (log ++ [e]) = read.map StoredMessage.message)
    (ended : .ended ∈ log ++ [e] → c'.exhausted = true ∧ c'.buffer = []) :
    Reading batch initial (log ++ [e]) t c' := by
  have samePages : pages (log ++ [e]) = pages log := by simp [pages, noPage]
  have sameRecords : records (log ++ [e]) = records log := by rw [records, samePages, records]
  constructor
  case fetched =>
    rwa [sameRecords]
  case ascending =>
    rw [sameRecords]
    exact r.ascending
  case position =>
    rw [sameRecords, position]
    exact r.position
  case exhausted =>
    rw [samePages, exhausted]
    exact r.exhausted
  case stored =>
    rw [sameRecords]
    exact r.stored
  case origin =>
    intro m
    have other : .inserted m ∉ [e] := fun h => noRecord m (List.mem_singleton.1 h).symm
    rw [List.mem_append, or_iff_left other]
    exact r.origin m
  case due =>
    intro m hm
    rw [sameRecords, position, exhausted, isDue_concat_of_ne (noRecord m)]
    exact r.due m hm
  case ended => exact ended

theorem fail (r : Reading batch initial log t c) (error : StoreError) :
    Reading batch initial (log ++ [.failed error]) t c := by
  refine r.quiet rfl (fun _ h => nomatch h) rfl rfl ?_ fun h => ?_
  · rw [messages_append]
    exact (List.append_nil _).symm ▸ r.fetched
  · exact r.ended ((List.mem_append.1 h).resolve_right (by simp))

theorem deliver (r : Reading batch initial log t c) {next : StoredMessage}
    {rest : List StoredMessage} (buffer : c.buffer = next :: rest) :
    Reading batch initial (log ++ [.delivered next.message]) t { c with buffer := rest } := by
  refine r.quiet rfl (fun _ h => nomatch h) rfl rfl ?_ fun h => ?_
  · obtain ⟨read, fetched, delivered⟩ := r.fetched
    refine ⟨read ++ [next], ?_, ?_⟩
    · rw [fetched, buffer, List.append_assoc]
      rfl
    · rw [messages_append, delivered, List.map_append]
      rfl
  · have finished := (r.ended ((List.mem_append.1 h).resolve_right (by simp))).2
    rw [buffer] at finished
    cases finished

theorem finish (r : Reading batch initial log t c) (exhausted : c.exhausted = true)
    (buffer : c.buffer = []) : Reading batch initial (log ++ [.ended]) t c := by
  refine r.quiet rfl (fun _ h => nomatch h) rfl rfl ?_ fun _ => ⟨exhausted, buffer⟩
  rw [messages_append]
  exact (List.append_nil _).symm ▸ r.fetched

/-- A page continues the reading where it was. -/
theorem fetch (r : Reading batch initial log t c) (ordered : t.Ordered) (spent : c.isSpent = true) :
    Reading batch initial (log ++ [.fetched (t.page c.position batch)]) t
      (c.extend batch (t.page c.position batch)) := by
  obtain ⟨buffer, unfinished⟩ : c.buffer = [] ∧ c.exhausted = false := by
    simpa [ReadCursor.isSpent] using spent
  have splits := fun m (hm : m ∈ t.messages) =>
    ordered.before_iff_page c.position batch hm
  have behind := fun m (hm : m ∈ t.page c.position batch) => ordered.mem_of_mem_page hm
  have ascending := ordered.page_ascending c.position batch
  generalize t.page c.position batch = page at splits behind ascending ⊢
  have newPages : pages (log ++ [.fetched page]) = pages log ++ [page] := pages_append ..
  have newRecords : records (log ++ [.fetched page]) = records log ++ page := by
    rw [records, newPages, List.flatten_concat, records]
  have newExhausted : (c.extend batch page).exhausted = decide (page.length < batch) := by
    rw [ReadCursor.extend, unfinished, Bool.false_or]
  have newPosition : (c.extend batch page).position = c.position.past page := rfl
  constructor
  case fetched =>
    obtain ⟨read, fetched, delivered⟩ := r.fetched
    refine ⟨read, ?_, ?_⟩
    · rw [newRecords, fetched, ReadCursor.extend, List.append_assoc]
    · rw [messages_append, delivered]
      exact List.append_nil _
  case ascending =>
    rw [newRecords]
    refine List.pairwise_append.2 ⟨r.ascending, ascending, fun m hm m' hm' => ?_⟩
    refine ReadPosition.before_of_upTo_of_before ?_ (behind m' hm').2
    rw [r.position]
    exact ReadPosition.upTo_past r.ascending hm
  case position =>
    rw [newRecords, newPosition, r.position, ReadPosition.past_append]
  case exhausted =>
    have before : ∀ page ∈ pages log, ¬ page.length < batch := fun page hp short => by
      rw [r.exhausted.2 ⟨page, hp, short⟩] at unfinished
      cases unfinished
    rw [newExhausted, newPages, decide_eq_true_eq]
    constructor
    · exact fun short => ⟨page, by simp, short⟩
    · rintro ⟨page', hp, short⟩
      rcases List.mem_append.1 hp with old | new
      · exact absurd short (before page' old)
      · exact List.mem_singleton.1 new ▸ short
  case stored =>
    rw [newRecords]
    intro m hm
    exact (List.mem_append.1 hm).elim (r.stored m) fun h => (behind m h).1
  case origin =>
    intro m
    have other : .inserted m ∉ [ReadEvent.fetched page] := by simp
    rw [List.mem_append, or_iff_left other]
    exact r.origin m
  case due =>
    intro m hm
    rw [isDue_concat_of_ne (by simp), ← r.due m hm, newRecords, List.mem_append, newExhausted,
      newPosition, splits m hm, decide_eq_false_iff_not, Nat.not_lt, or_assoc]
    simp [unfinished]
  case ended =>
    intro h
    have finished := (r.ended ((List.mem_append.1 h).resolve_right (by simp))).1
    rw [unfinished] at finished
    cases finished

/-- Only the messages of the tables matter. -/
theorem of_messages_eq (r : Reading batch initial log t c) (same : t'.messages = t.messages) :
    Reading batch initial log t' c where
  fetched := r.fetched
  ascending := r.ascending
  position := r.position
  exhausted := r.exhausted
  stored m hm := same ▸ r.stored m hm
  origin m := same ▸ r.origin m
  due m hm := r.due m (same ▸ hm)
  ended := r.ended

/-- A record that comes in is due if it is behind the cursor before the last page was fetched. -/
theorem insert (r : Reading batch initial log t c) {m : StoredMessage}
    (messages : t'.messages = t.messages ++ [m]) (new : m ∉ t.messages) (positive : 0 < m.id) :
    Reading batch initial (log ++ [.inserted m]) t' c := by
  have samePages : pages (log ++ [.inserted m]) = pages log := by simp [pages, page?]
  have sameRecords : records (log ++ [.inserted m]) = records log := by
    rw [records, samePages, records]
  have old : ∀ m' ∈ t.messages, m' ∈ t'.messages := fun m' h => by
    rw [messages]
    exact List.mem_append_left _ h
  constructor
  case fetched =>
    rw [sameRecords, messages_append]
    exact (List.append_nil _).symm ▸ r.fetched
  case ascending =>
    rw [sameRecords]
    exact r.ascending
  case position =>
    rw [sameRecords]
    exact r.position
  case exhausted =>
    rw [samePages]
    exact r.exhausted
  case stored =>
    rw [sameRecords]
    exact fun m' h => old m' (r.stored m' h)
  case origin =>
    intro m'
    rw [messages, List.mem_append, r.origin m', List.mem_append, or_assoc, List.mem_singleton,
      List.mem_singleton, ReadEvent.inserted.injEq]
  case due =>
    intro m' hm'
    rw [messages] at hm'
    rw [sameRecords]
    rcases List.mem_append.1 hm' with before | now
    · have other : ReadEvent.inserted m ≠ .inserted m' := by
        intro same
        rw [ReadEvent.inserted.inj same] at new
        exact new before
      rw [isDue_concat_of_ne other]
      exact r.due m' before
    · obtain rfl := List.mem_singleton.1 now
      have unread : m' ∉ records log := fun h => new (r.stored m' h)
      have first : ReadPosition.start.before m'.position = true :=
        ReadPosition.start_before positive
      rw [isDue_concat_self (fun h => new ((r.origin m').2 (.inl h)))
        (fun h => new ((r.origin m').2 (.inr h))), or_iff_right unread, r.position,
        ReadPosition.past_before_iff first, ← Bool.not_eq_true, r.exhausted]
      simp only [not_exists, not_and]
  case ended =>
    intro h
    exact r.ended ((List.mem_append.1 h).resolve_right (by simp))

/-- Whatever row is added, the reading goes on. -/
theorem grow (r : Reading batch initial log t c) (ordered : t.Ordered) (grows : t.Grows t') :
    Reading batch initial (log ++ t.arrivals t') t' c := by
  have none : ∀ {t'' : Tables}, t''.messages = t.messages → t.arrivals t'' = [] := by
    intro t'' same
    rw [Tables.arrivals, same, List.drop_length]
    rfl
  cases grows with
  | same => rwa [none rfl, List.append_nil]
  | stream next =>
    have same := ordered.messages_withStream next
    rw [none same, List.append_nil]
    exact r.of_messages_eq same
  | @record row behind known =>
    obtain ⟨s, hs, owner⟩ := known
    have messages := ordered.messages_withRecord behind hs owner
    have one : t.arrivals (t.withRecord row) = [.inserted (Tables.message (row, s))] := by
      rw [Tables.arrivals, messages, List.drop_left]
      rfl
    rw [one]
    refine r.insert messages (fun h => ?_) (behind ordered).1
    obtain ⟨old, hold, _, -, same⟩ := ordered.exists_of_mem_messages h
    have below := (behind ordered).2 old hold
    have number : row.id = old.id := congrArg StoredMessage.id same
    rw [← number] at below
    exact Int64.lt_irrefl below

end Reading

/-! ### Calls -/

/-- A cursor gets ready unless a page that it asks for fails. -/
theorem ReadCursor.ready_eq_error {c : ReadCursor} {store : Store} {batch : Nat} {e : SessionError}
    (h : c.ready store batch = .error e) : c.isSpent = true ∧
      ∃ e', store.page c.position batch = .error e' ∧ e = .backend .readRecords e' := by
  unfold ready refill at h
  split_ifs at h with spent
  refine ⟨spent, ?_⟩
  cases hp : store.page c.position batch with
  | ok page =>
    rw [hp] at h
    cases h
  | error e' =>
    rw [hp] at h
    cases h
    exact ⟨e', rfl, rfl⟩

theorem CallEffect.grows {s : Session} {store : Store} {c : SessionCall}
    {o : Outcome SessionAnswer} (effect : CallEffect H s store c o) :
    store.tables.Grows o.store.tables := by
  cases effect with
  | still still => exact still.tables ▸ .same
  | created _ _ _ _ isNext _ tables => exact tables ▸ .stream isNext
  | written _ _ _ known isBehind _ tables => exact tables ▸ .record isBehind known

namespace Session

variable {s s₀ : Session} {store store₀ : Store} {log : List ReadEvent} {o : OpenState}

/-- The cursor of an open session. -/
def cursor? (s : Session) : Option ReadCursor := s.opened.map OpenState.cursor

theorem cursor_openState_prepare {o' : OpenState} {store' : Store}
    (h : o.prepare store = (store', .ok o')) : o'.cursor = o.cursor := by
  unfold OpenState.prepare at h
  split_ifs at h
  · cases h
    rfl
  · obtain ⟨_, made⟩ := Prod.mk.inj h
    obtain ⟨_, _, rfl⟩ := Except.map_eq_ok_iff.1 made
    rfl

theorem opened_append (s : Session) (store : Store) (state : StreamState) (m : Message) :
    (s.append H store state m).session.config = s.config ∧
      (s.append H store state m).session.opened = s.opened := by
  unfold append
  split
  · exact ⟨rfl, rfl⟩
  · split <;> exact ⟨rfl, rfl⟩

theorem opened_of_writable (h : s.writable = .ok o) : s.opened = some o := by
  unfold writable at h
  split at h
  · cases h
  · rename_i o' opened
    split_ifs at h
    cases h
    exact opened

/-- A call that does not read leaves the cursor where it is. -/
theorem cursor?_call (s : Session) (store : Store) (c : SessionCall)
    (other : c ≠ .hasNext ∧ c ≠ .readNext ∧ c ≠ .readAll) :
    (s.call H store c).session.config = s.config ∧
      (s.call H store c).session.cursor? = s.cursor? := by
  cases c with
  | hasNext => exact absurd rfl other.1
  | readNext => exact absurd rfl other.2.1
  | readAll => exact absurd rfl other.2.2
  | remove d => exact ⟨rfl, rfl⟩
  | metadata =>
    show (s.metadata store).session.config = s.config ∧ (s.metadata store).session.cursor? = _
    unfold metadata
    split <;> exact ⟨rfl, rfl⟩
  | streams =>
    show (s.streams store).session.config = s.config ∧ (s.streams store).session.cursor? = _
    unfold streams
    cases ho : s.opened with
    | none => exact ⟨rfl, rfl⟩
    | some o =>
      dsimp only
      split
      · exact ⟨rfl, rfl⟩
      · split
        · exact ⟨rfl, rfl⟩
        · exact ⟨rfl, by simp [cursor?, ho]⟩
  | create d =>
    show (s.create H store d).session.config = s.config ∧ (s.create H store d).session.cursor? = _
    unfold create
    split
    · exact ⟨rfl, rfl⟩
    · split <;> exact ⟨rfl, rfl⟩
  | write m =>
    show (s.write H store m).session.config = s.config ∧ (s.write H store m).session.cursor? = _
    unfold write
    cases hw : s.writable with
    | error e => exact ⟨rfl, rfl⟩
    | ok o =>
      dsimp only
      split
      · exact ⟨rfl, rfl⟩
      · split
        · exact ⟨rfl, rfl⟩
        · rename_i store' o' prepared
          obtain ⟨config, opened⟩ := opened_append (H := H) { s with opened := some o' } store' _ m
          refine ⟨config, ?_⟩
          rw [cursor?, cursor?, opened, opened_of_writable hw]
          exact congrArg some (cursor_openState_prepare prepared)

/-- A page is asked for as the cursor needs it. -/
theorem asked_eq (opened : s.opened = some o) :
    s.asked store =
      if o.cursor.isSpent then
        match store.page o.cursor.position s.config.batch with
        | .ok page => [.fetched page]
        | .error e => [.failed e]
      else [] := by
  rw [asked, opened]

end Session

namespace Reading

variable {batch : Nat} {initial : List StoredMessage} {log : List ReadEvent} {s : Session}
  {store : Store} {o : OpenState}

/-- A failed page leaves the reading where it was. -/
theorem ready_error (r : Reading s.config.batch initial log store.tables o.cursor)
    (opened : s.opened = some o) {e : SessionError}
    (h : o.cursor.ready store s.config.batch = .error e) :
    Reading s.config.batch initial (log ++ s.asked store) store.tables o.cursor := by
  obtain ⟨spent, e', failed, -⟩ := ReadCursor.ready_eq_error h
  rw [Session.asked_eq opened, if_pos spent, failed]
  exact r.fail e'

/-- Once a session is ready to read, it is at its end if it has nothing to deliver. -/
theorem ready_ok (r : Reading s.config.batch initial log store.tables o.cursor)
    (ordered : store.tables.Ordered) (opened : s.opened = some o) {c : ReadCursor}
    (h : o.cursor.ready store s.config.batch = .ok c) :
    Reading s.config.batch initial (log ++ s.asked store) store.tables c ∧
      (c.buffer = [] → c.exhausted = true) := by
  unfold ReadCursor.ready ReadCursor.refill at h
  rw [Session.asked_eq opened]
  split_ifs at h ⊢ with spent
  · cases hp : store.page o.cursor.position s.config.batch with
    | error e' =>
      rw [hp] at h
      cases h
    | ok page =>
      rw [hp] at h
      cases h
      obtain rfl := Store.page_eq_ok ordered hp
      -- an empty page is short, since every page is asked to have a record
      refine ⟨r.fetch ordered spent, fun empty => ?_⟩
      have none := (List.append_eq_nil_iff.1 empty).2
      rw [ReadCursor.extend, none, Bool.or_eq_true, decide_eq_true_eq]
      exact .inr (Nat.le_max_right _ _)
  · cases h
    rw [List.append_nil]
    refine ⟨r, fun empty => ?_⟩
    simpa [ReadCursor.isSpent, empty] using spent

end Reading

namespace Session

variable {s s₀ : Session} {store store₀ : Store} {log : List ReadEvent} {o : OpenState}
  {initial : List StoredMessage}

theorem cursor?_eq (opened : s.opened = some o) : s.cursor? = some o.cursor := by
  rw [cursor?, opened]
  rfl

theorem hasNext_of_error (opened : s.opened = some o) {e : SessionError}
    (h : o.cursor.ready store s.config.batch = .error e) :
    s.hasNext store = s.refuse (o.cursor.visit store) e := by
  rw [hasNext, opened]
  simp only [h]

theorem readNext_of_error (opened : s.opened = some o) {e : SessionError}
    (h : o.cursor.ready store s.config.batch = .error e) :
    s.readNext store = s.refuse (o.cursor.visit store) e := by
  rw [readNext, opened]
  simp only [h]

theorem hasNext_reading (r : Reading s.config.batch initial log store.tables o.cursor)
    (ordered : store.tables.Ordered) (opened : s.opened = some o) :
    (s.hasNext store).session.config = s.config ∧
      ∃ c, (s.hasNext store).session.cursor? = some c ∧
        Reading s.config.batch initial
          (log ++ s.asked store ++ saidNext (s.hasNext store).answer) store.tables c := by
  cases h : o.cursor.ready store s.config.batch with
  | error e =>
    rw [hasNext_of_error opened h]
    refine ⟨rfl, o.cursor, cursor?_eq opened, ?_⟩
    exact (List.append_nil _).symm ▸ r.ready_error opened h
  | ok c =>
    obtain ⟨reading, atEnd⟩ := r.ready_ok ordered opened h
    have next : s.hasNext store =
        { session := { s with opened := some { o with cursor := c } }
          store := o.cursor.visit store
          answer := .ok !c.buffer.isEmpty } := by
      rw [hasNext, opened]
      simp only [h]
    rw [next]
    refine ⟨rfl, c, rfl, ?_⟩
    cases hb : c.buffer with
    | nil => exact reading.finish (atEnd hb) hb
    | cons next rest => exact (List.append_nil _).symm ▸ reading

theorem readNext_reading (r : Reading s.config.batch initial log store.tables o.cursor)
    (ordered : store.tables.Ordered) (opened : s.opened = some o) :
    (s.readNext store).session.config = s.config ∧
      ∃ c, (s.readNext store).session.cursor? = some c ∧
        Reading s.config.batch initial
          (log ++ s.asked store ++ saidRead (s.readNext store).answer) store.tables c := by
  cases h : o.cursor.ready store s.config.batch with
  | error e =>
    rw [readNext_of_error opened h]
    refine ⟨rfl, o.cursor, cursor?_eq opened, ?_⟩
    obtain ⟨-, e', -, rfl⟩ := ReadCursor.ready_eq_error h
    exact (List.append_nil _).symm ▸ r.ready_error opened h
  | ok c =>
    obtain ⟨reading, atEnd⟩ := r.ready_ok ordered opened h
    rw [readNext, opened]
    simp only [h]
    cases hb : c.buffer with
    | nil => exact ⟨rfl, c, rfl, reading.finish (atEnd hb) hb⟩
    | cons next rest => exact ⟨rfl, _, rfl, reading.deliver hb⟩

/-- **A run keeps the reading in order.** -/
theorem Reads.reading (run : Reads H s₀ store₀ log s store) (fresh : s₀.cursor? = some {})
    (ordered : store₀.tables.Ordered) :
    s.config = s₀.config ∧ store.tables.Ordered ∧ ∃ c, s.cursor? = some c ∧
      Reading s₀.config.batch store₀.tables.messages log store.tables c := by
  induction run with
  | start => exact ⟨rfl, ordered, {}, fresh, .start ordered⟩
  | @hasNext log s store _ ih =>
    obtain ⟨config, ordered, c, cursor, reading⟩ := ih
    obtain ⟨o, opened, rfl⟩ := Option.map_eq_some_iff.1 cursor
    rw [← config] at reading ⊢
    obtain ⟨same, c', cursor', reading'⟩ := hasNext_reading reading ordered opened
    rw [(s.hasNext_still store).tables]
    exact ⟨same, ordered, c', cursor', reading'⟩
  | @readNext log s store _ ih =>
    obtain ⟨config, ordered, c, cursor, reading⟩ := ih
    obtain ⟨o, opened, rfl⟩ := Option.map_eq_some_iff.1 cursor
    rw [← config] at reading ⊢
    obtain ⟨same, c', cursor', reading'⟩ := readNext_reading reading ordered opened
    rw [(s.readNext_still store).tables]
    exact ⟨same, ordered, c', cursor', reading'⟩
  | @call log s store _ c other ih =>
    obtain ⟨config, ordered, cursor, same, reading⟩ := ih
    have grows := (call_effect H s store c).grows
    obtain ⟨kept, cursor'⟩ := cursor?_call (H := H) s store c other
    exact ⟨kept.trans config, grows.ordered ordered, cursor, cursor'.trans same,
      reading.grow ordered grows⟩
  | others _ grows ih =>
    obtain ⟨config, ordered, cursor, same, reading⟩ := ih
    exact ⟨config, grows.ordered ordered, cursor, same, reading.grow ordered grows⟩

/-! ### What is delivered -/

/-- What a session delivers that reads while records come in: these records of the store. -/
structure Delivers (batch : Nat) (initial : List StoredMessage) (log : List ReadEvent) (s : Session)
    (store : Store) (read : List StoredMessage) : Prop where
  messages : ReadEvent.messages log = read.map StoredMessage.message
  /-- Each record is there, and none twice. -/
  stored : ∀ m ∈ read, m ∈ store.tables.messages
  ascending : read.Pairwise fun m m' => m.position.before m'.position = true
  /-- So the end comes, once every record was delivered. -/
  few : read.length ≤ store.tables.messages.length
  /-- At the end, what was there in time was delivered, and nothing else. -/
  complete : .ended ∈ log → ∀ m ∈ store.tables.messages,
    m ∈ read ↔ WasThere initial log m ∨ CameInTime batch log m
  /-- The end is the end, whatever comes in. -/
  finished : .ended ∈ log → ∀ store', (s.hasNext store').answer = .ok false ∧
    (s.readNext store').answer = .error .endOfStream
  /-- If nothing comes in once a page was fetched, all records are delivered, in the order of
  insertion stably sorted by time. -/
  sorted : .ended ∈ log →
    (∀ before m, before ++ [.inserted m] <+: log → pages before = []) →
    read = store.tables.messages.mergeSort
      fun a b => decide (a.message.timestamp ≤ b.message.timestamp)
  /-- Only a page that fails makes a call fail, and it leaves the session as it is. -/
  untouched : ∀ store' e,
    (s.hasNext store').answer = .error e ∨
      (s.readNext store').answer = .error e ∧ e ≠ .endOfStream →
    (s.hasNext store').session = s ∧ (s.readNext store').session = s ∧
      ∃ place e', store'.page place batch = .error e' ∧ e = .backend .readRecords e'

end Session

/-- Of records that go upwards none is there twice. -/
theorem nodup_of_ascending {read : List StoredMessage}
    (ascending : read.Pairwise fun m m' => m.position.before m'.position = true) :
    read.Nodup := by
  refine List.Pairwise.imp (fun before same => ?_) ascending
  rw [same] at before
  exact ReadPosition.before_irrefl before

namespace Reading

variable {batch : Nat} {initial : List StoredMessage} {log : List ReadEvent} {t : Tables}
  {c : ReadCursor}

/-- A reading that came to its end has fetched what was there in time. -/
theorem mem_records_of_ended (r : Reading batch initial log t c) (ended : .ended ∈ log)
    {m : StoredMessage} (stored : m ∈ t.messages) :
    m ∈ records log ↔ WasThere initial log m ∨ CameInTime batch log m := by
  have exhausted := (r.ended ended).1
  rw [← isDue_iff, ← r.due m stored, exhausted]
  simp

theorem wasThere (r : Reading batch initial log t c)
    (early : ∀ before m, before ++ [.inserted m] <+: log → pages before = [])
    {m : StoredMessage} (stored : m ∈ t.messages) : WasThere initial log m := by
  refine ((r.origin m).1 stored).imp_right fun came => ?_
  obtain ⟨before, after, split⟩ := List.append_of_mem came
  have first : before ++ [.inserted m] <+: log := ⟨after, by simp [split]⟩
  exact ⟨before, first, early before m first⟩

/-- If nothing comes in late, the whole store is read. -/
theorem records_eq (r : Reading batch initial log t c) (ordered : t.Ordered)
    (ended : .ended ∈ log)
    (early : ∀ before m, before ++ [.inserted m] <+: log → pages before = []) :
    records log = t.reading := by
  have upwards : ∀ xs : List StoredMessage,
      (xs.Pairwise fun m m' => m.position.before m'.position = true) →
      xs.Pairwise fun m m' => m.position.upTo m'.position = true :=
    fun xs ascending => ascending.imp fun before => ReadPosition.upTo_iff.2 fun back =>
      ReadPosition.before_irrefl (ReadPosition.before_trans before back)
  refine ordered.eq_of_perm r.stored ?_ (upwards _ r.ascending)
    (upwards _ ordered.reading_ascending)
  refine (List.perm_ext_iff_of_nodup (nodup_of_ascending r.ascending)
    (nodup_of_ascending ordered.reading_ascending)).2 fun m => ?_
  rw [Tables.mem_reading]
  constructor
  · exact r.stored m
  · exact fun stored => (r.mem_records_of_ended ended stored).2 (.inl (r.wasThere early stored))

end Reading

namespace Session

variable {s s₀ : Session} {store store₀ : Store} {log : List ReadEvent} {o : OpenState}
  {initial : List StoredMessage}

/-- **What is delivered while records come in.** A session was just opened on a store, and reads
while records come in and pages fail. -/
theorem delivery (fresh : s₀.cursor? = some {}) (ordered : store₀.tables.Ordered)
    (run : Reads H s₀ store₀ log s store) :
    ∃ read, Delivers s₀.config.batch store₀.tables.messages log s store read := by
  obtain ⟨config, ordered, c, cursor, reading⟩ := run.reading fresh ordered
  obtain ⟨o, opened, rfl⟩ := Option.map_eq_some_iff.1 cursor
  obtain ⟨read, fetched, delivered⟩ := reading.fetched
  have all : .ended ∈ log → read = records log := fun ended => by
    rw [fetched, (reading.ended ended).2, List.append_nil]
  have ascending := reading.ascending
  rw [fetched, List.pairwise_append] at ascending
  have stored : ∀ m ∈ read, m ∈ store.tables.messages := fun m hm =>
    reading.stored m (fetched ▸ List.mem_append_left _ hm)
  refine ⟨read, delivered, stored, ascending.1, ?_, fun ended m hm => ?_, fun ended store' => ?_,
    fun ended early => ?_, fun store' e failed => ?_⟩
  · exact ((nodup_of_ascending ascending.1).subperm stored).length_le
  · rw [all ended]
    exact reading.mem_records_of_ended ended hm
  · obtain ⟨exhausted, buffer⟩ := reading.ended ended
    have ready : o.cursor.ready store' s.config.batch = .ok o.cursor := by
      simp [ReadCursor.ready, ReadCursor.isSpent, exhausted]
    constructor
    · simp [hasNext, opened, ready, buffer]
    · simp [readNext, opened, ready, buffer, refuse]
  · rw [all ended, reading.records_eq ordered ended early]
    exact ordered.reading_eq_stable
  · cases h : o.cursor.ready store' s.config.batch with
    | error e' =>
      rw [hasNext_of_error opened h, readNext_of_error opened h] at *
      obtain ⟨-, e'', failing, rfl⟩ := ReadCursor.ready_eq_error h
      refine ⟨rfl, rfl, o.cursor.position, e'', config ▸ failing, ?_⟩
      rcases failed with failed | ⟨failed, -⟩ <;> exact (Except.error.inj failed).symm
    | ok c =>
      -- a cursor that is ready gives an answer, if only that there is no more
      rcases failed with failed | ⟨failed, notEnd⟩
      · simp [hasNext, opened, h] at failed
      · cases hb : c.buffer with
        | nil =>
          simp only [readNext, opened, h, hb] at failed
          exact absurd (Except.error.inj failed).symm notEnd
        | cons next rest => simp [readNext, opened, h, hb] at failed

/-- A session that asks for single records writes one, reads it, writes one that is late, and reads
on to the end. -/
theorem delivery_of_late_record :
    let s₀ := ofNonce (Nonce.fill 1) { readBatchSize := 1 }
    let entered := s₀.attach .inMemory 0 .readWrite
    let created := entered.session.call (fun _ => default) entered.store
      (.create ⟨"trades", "Trade", "json"⟩)
    let written := created.session.call (fun _ => default) created.store
      (.write ⟨"trades", 7, [1]⟩)
    let first := written.session.readNext written.store
    let late := first.session.call (fun _ => default) first.store (.write ⟨"trades", 3, [2]⟩)
    let last := late.session.hasNext late.store
    entered.session.cursor? = some {} ∧ entered.store.tables.Ordered ∧
      ∃ log read, Reads (fun _ => default) entered.session entered.store log last.session
          last.store ∧
        Delivers 1 entered.store.tables.messages log last.session last.store read := by
  intro s₀ entered created written first late last
  have ordered : entered.store.tables.Ordered := .empty
  have run : Reads (fun _ => default) entered.session entered.store _ last.session last.store :=
    .hasNext (.call (.readNext (.call (.call .start (.create _) (by simp)) (.write _) (by simp)))
      (.write _) (by simp))
  obtain ⟨read, delivers⟩ := delivery rfl ordered run
  exact ⟨rfl, ordered, _, read, run, delivers⟩

end Session

end SealedLog
