import SealedLog.Proofs.Session.Written
import SealedLog.Proofs.Store.Reached

/-!
# Reading to the end

A session that reads a store to which nobody writes has, at every time, a rest of the records left
to read. What it delivers is taken off that rest, so in the end it has delivered all of it.

* `ReadCursor.rest`: the records that a cursor has left to read;
* `Session.Browses`: a session has this left to read, and has got the streams right;
* `Browses.readAll`, `streams_offered`, `metadata_of_answers`: what it is answered;
* `Browses.call`: what a call delivers and what it leaves to read are what was left before.
-/

namespace SealedLog

namespace ReadCursor

variable {c : ReadCursor} {store : Store} {t : Tables} {batch : Nat}

/-- The records that are still to be read. -/
def rest (c : ReadCursor) (t : Tables) : List StoredMessage :=
  c.buffer ++ if c.exhausted then [] else t.reading.filter fun m => c.position.before m.position

/-- A cursor that has read nothing has all records before it. -/
theorem rest_start (ordered : t.Ordered) : ({} : ReadCursor).rest t = t.reading := by
  refine List.filter_eq_self.2 fun m h => ?_
  exact ReadPosition.start_before (ordered.positive_of_mem (Tables.mem_reading.1 h))

theorem visit_offers (offers : store.Offers t) (c : ReadCursor) : (c.visit store).Offers t := by
  unfold visit
  split_ifs
  · exact offers.visit .page
  · exact offers

/-- A page moves records into the buffer, and leaves the buffer empty only at the end. -/
theorem rest_extend (ordered : t.Ordered) (positive : 0 < batch) (spent : c.isSpent = true) :
    (c.extend batch (t.page c.position batch)).rest t = c.rest t ∧
      ((c.extend batch (t.page c.position batch)).buffer = [] → c.rest t = []) := by
  obtain ⟨buffer, unfinished⟩ : c.buffer = [] ∧ c.exhausted = false := by
    simpa [isSpent] using spent
  have before : c.rest t = t.reading.filter fun m => c.position.before m.position := by
    rw [rest, buffer, unfinished]
    rfl
  have after := ordered.reading_past_page c.position batch
  have page := ordered.page_eq c.position batch
  have position : (c.extend batch (t.page c.position batch)).position =
      c.position.past (t.page c.position batch) := rfl
  have exhausted : (c.extend batch (t.page c.position batch)).exhausted =
      decide ((t.page c.position batch).length < batch) := by
    rw [extend, unfinished, Bool.false_or]
  have filled : (c.extend batch (t.page c.position batch)).buffer = t.page c.position batch := by
    rw [extend, buffer, List.nil_append]
  rw [before, rest, filled, exhausted, position, after, page]
  generalize t.reading.filter (fun m => c.position.before m.position) = all
  by_cases short : (all.take batch).length < batch
  · rw [decide_eq_true short, if_pos rfl, List.append_nil]
    have few : all.length ≤ batch := by
      rw [List.length_take] at short
      omega
    rw [List.take_of_length_le few]
    exact ⟨rfl, id⟩
  · rw [decide_eq_false short, if_neg Bool.false_ne_true, List.take_append_drop]
    refine ⟨rfl, fun none => ?_⟩
    rw [none] at short
    exact absurd positive short

/-- On a store that offers its tables a cursor gets ready to read what is left, if anything is. -/
theorem ready_of_offers (offers : store.Offers t) (ordered : t.Ordered) (positive : 0 < batch)
    (c : ReadCursor) : ∃ c', c.ready store batch = .ok c' ∧ c'.rest t = c.rest t ∧
      (c'.buffer = [] → c.rest t = []) := by
  unfold ready
  split_ifs with spent
  · obtain ⟨same, finished⟩ := rest_extend ordered positive spent
    refine ⟨_, ?_, same, finished⟩
    rw [refill, offers.page ordered]
    rfl
  · refine ⟨c, rfl, rfl, fun none => ?_⟩
    have exhausted : c.exhausted = true := by simpa [isSpent, none] using spent
    rw [rest, none, exhausted]
    rfl

end ReadCursor

theorem SessionConfig.batch_pos (config : SessionConfig) : 0 < config.batch :=
  Nat.lt_of_lt_of_le Nat.one_pos (Nat.le_max_right _ _)

namespace Turn

/-- The records that a call delivered. -/
def delivered (turn : Turn) : List Message :=
  match turn.outcome.answer with
  | .ok (.message m) => [m]
  | .ok (.messages ms) => ms
  | _ => []

end Turn

namespace Session

variable {H : HashFunction} {s : Session} {store : Store} {t : Tables} {rest : List StoredMessage}

/-- A session that reads these tables has this left to read. -/
structure Browses (s : Session) (t : Tables) (rest : List StoredMessage) : Prop where
  cursor : ∃ o, s.opened = some o ∧ o.cursor.rest t = rest
  streams : ∀ o ∈ s.opened, ∀ streams ∈ o.streamCache, streams = t.streamList

/-- The metadata are those of the statistics and the size. -/
theorem metadata_of_answers {o : OpenState} (opened : s.opened = some o)
    {statistics : List StreamStatistics} {octets : UInt64}
    (said : store.statistics = .ok statistics) (size : store.size = .ok octets) :
    (s.metadata store).session = s ∧
      (s.metadata store).answer = .ok (.ofStatistics o.files statistics octets) := by
  unfold Session.metadata
  rw [opened]
  refine ⟨rfl, ?_⟩
  dsimp only
  rw [OpenState.metadata, said, size]
  rfl

/-- The metadata are those of the tables. -/
theorem metadata_of_presents {o : OpenState} (opened : s.opened = some o)
    (presents : store.Presents t) : (s.metadata store).session = s ∧
      ∃ octets, (s.metadata store).answer = .ok (.ofStatistics o.files t.statistics octets) := by
  obtain ⟨octets, size⟩ := presents.size
  obtain ⟨same, answer⟩ := metadata_of_answers opened presents.statistics size
  exact ⟨same, octets, answer⟩

namespace Browses

theorem withCursor {o : OpenState} (opened : s.opened = some o) (browses : s.Browses t rest)
    {cursor : ReadCursor} {rest' : List StoredMessage} (left : cursor.rest t = rest') :
    Browses { s with opened := some { o with cursor := cursor } } t rest' where
  cursor := ⟨_, rfl, left⟩
  streams o' h := by
    cases Option.mem_some_iff.1 h
    exact browses.streams o opened

theorem hasNext (browses : s.Browses t rest) (offers : store.Offers t) (ordered : t.Ordered) :
    (s.hasNext store).session.Browses t rest ∧
      (s.hasNext store).answer = .ok !rest.isEmpty := by
  obtain ⟨o, opened, left⟩ := browses.cursor
  obtain ⟨cursor, ready, same, finished⟩ :=
    ReadCursor.ready_of_offers offers ordered s.config.batch_pos o.cursor
  unfold Session.hasNext
  rw [opened]
  dsimp only
  rw [ready]
  dsimp only
  rw [left] at same finished
  refine ⟨browses.withCursor opened same, ?_⟩
  cases h : cursor.buffer with
  | nil => rw [finished h]
  | cons next buffer =>
    rw [← same, ReadCursor.rest, h]
    rfl

/-- The next of what is left is read. -/
theorem readNext (browses : s.Browses t rest) (offers : store.Offers t) (ordered : t.Ordered) :
    (s.readNext store).session.Browses t rest.tail ∧ (s.readNext store).store.Offers t ∧
      (s.readNext store).answer =
        rest.head?.elim (.error .endOfStream) fun m => .ok m.message := by
  obtain ⟨o, opened, left⟩ := browses.cursor
  obtain ⟨cursor, ready, same, finished⟩ :=
    ReadCursor.ready_of_offers offers ordered s.config.batch_pos o.cursor
  have seen := ReadCursor.visit_offers offers o.cursor
  rw [left] at same finished
  unfold Session.readNext
  rw [opened]
  dsimp only
  rw [ready]
  dsimp only
  cases h : cursor.buffer with
  | nil =>
    rw [finished h] at same ⊢
    exact ⟨browses.withCursor opened same, seen, rfl⟩
  | cons next buffer =>
    have split : rest = next :: ({ cursor with buffer := buffer } : ReadCursor).rest t := by
      rw [← same, ReadCursor.rest, h]
      rfl
    rw [split]
    exact ⟨browses.withCursor opened rfl, seen, rfl⟩

theorem readMany (n : Nat) (browses : s.Browses t rest) (offers : store.Offers t)
    (ordered : t.Ordered) :
    (s.readMany store n).session.Browses t (rest.drop n) ∧
      (s.readMany store n).answer = .ok ((rest.take n).map StoredMessage.message) := by
  induction n generalizing s store rest with
  | zero => exact ⟨browses, rfl⟩
  | succ n ih =>
    obtain ⟨next, seen, answer⟩ := browses.readNext offers ordered
    unfold Session.readMany
    rcases made : s.readNext store with ⟨s', store', events, answer'⟩
    rw [made] at next seen answer
    dsimp only at next seen answer
    cases rest with
    | nil =>
      obtain rfl : answer' = .error .endOfStream := answer
      exact ⟨next, rfl⟩
    | cons m rest =>
      obtain rfl : answer' = .ok m.message := answer
      obtain ⟨left, read⟩ := ih next seen
      refine ⟨left, ?_⟩
      dsimp only
      rw [read]
      rfl

/-- Reading to the end delivers all that is left. -/
theorem readAll (browses : s.Browses t rest) (offers : store.Offers t) (ordered : t.Ordered) :
    (s.readAll store).session.Browses t [] ∧
      (s.readAll store).answer = .ok (rest.map StoredMessage.message) := by
  have enough : rest.length ≤ s.unread store + 1 := by
    obtain ⟨o, opened, left⟩ := browses.cursor
    have behind := List.length_filter_le (fun m => o.cursor.position.before m.position) t.reading
    have few := ordered.length_messages_le
    rw [t.reading_perm.length_eq] at behind
    rw [unread, opened, ← left, ReadCursor.rest, List.length_append, offers.recordCount]
    split_ifs <;> simp only [List.length_nil] <;> omega
  have all := browses.readMany (s.unread store + 1) offers ordered
  rwa [List.drop_of_length_le enough, List.take_of_length_le enough] at all

theorem streams_offered (browses : s.Browses t rest) (offers : store.Offers t) :
    (s.streams store).session.Browses t rest ∧ (s.streams store).answer = .ok t.streamList := by
  obtain ⟨o, opened, left⟩ := browses.cursor
  unfold Session.streams
  rw [opened]
  dsimp only
  cases cached : o.streamCache with
  | some streams =>
    refine ⟨browses, ?_⟩
    rw [browses.streams o opened streams cached]
  | none =>
    rw [offers.streams]
    refine ⟨⟨⟨_, rfl, left⟩, fun o' h streams cached' => ?_⟩, rfl⟩
    cases Option.mem_some_iff.1 h
    exact (Option.mem_some_iff.1 cached').symm

/-- **What a session that reads delivers is what it had left to read**, and it refuses to write. -/
theorem call (browses : s.Browses t rest) (offers : store.Offers t) (ordered : t.Ordered)
    (reads : s.mode = some .readOnly) (c : SessionCall) :
    ∃ rest', (s.call H store c).session.Browses t rest' ∧
      Turn.delivered ⟨c, store, s.call H store c⟩ ++ rest'.map StoredMessage.message =
        rest.map StoredMessage.message := by
  have refused : s.writable = .error .readOnly := by
    obtain ⟨o, opened, -⟩ := browses.cursor
    rw [Session.mode, opened] at reads
    rw [writable, opened]
    exact if_pos (Option.some.inj reads ▸ rfl)
  cases c with
  | create d =>
    refine ⟨rest, ?_, ?_⟩ <;> rw [Session.call, create, refused]
    · exact browses
    · rfl
  | write m =>
    refine ⟨rest, ?_, ?_⟩ <;> rw [Session.call, write, refused]
    · exact browses
    · rfl
  | remove d =>
    refine ⟨rest, browses, ?_⟩
    rw [Session.call, Turn.delivered]
    cases s.remove d <;> rfl
  | hasNext =>
    obtain ⟨left, answer⟩ := browses.hasNext offers ordered
    refine ⟨rest, left, ?_⟩
    rw [Session.call, Turn.delivered, Outcome.map, answer]
    rfl
  | readNext =>
    obtain ⟨left, -, answer⟩ := browses.readNext offers ordered
    refine ⟨rest.tail, left, ?_⟩
    rw [Session.call, Turn.delivered, Outcome.map, answer]
    cases rest <;> rfl
  | readAll =>
    obtain ⟨left, answer⟩ := browses.readAll offers ordered
    refine ⟨[], left, ?_⟩
    rw [Session.call, Turn.delivered, Outcome.map, answer]
    exact List.append_nil _
  | streams =>
    obtain ⟨left, answer⟩ := browses.streams_offered offers
    refine ⟨rest, left, ?_⟩
    rw [Session.call, Turn.delivered, Outcome.map, answer]
    rfl
  | metadata =>
    obtain ⟨o, opened, -⟩ := browses.cursor
    obtain ⟨octets, size⟩ := offers.size
    obtain ⟨same, answer⟩ := metadata_of_answers opened (offers.statistics ordered.numbered) size
    refine ⟨rest, ?_, ?_⟩
    · show (s.metadata store).session.Browses t rest
      rw [same]
      exact browses
    · rw [Session.call, Turn.delivered, Outcome.map, answer]
      rfl

end Browses

end Session

end SealedLog
