import SealedLog.Proofs.Audit
import SealedLog.Proofs.Session.Fleet
import SealedLog.Proofs.Session.Run

/-!
# A store that sessions share

Nothing keeps several sessions from opening one store for writing. Still every stream belongs to the
attachment that created it, and nobody else appends to it; so all digests of the store are right,
and only where two sessions create streams in turn does a stream not follow the one before it.

* `Fleet.Shares`: the invariant of the shared store;
* `Fleet.Shares.step`: every step keeps it;
* `Fleet.Accounts`, `Fleet.accounts`: what is then known of the rows and of an audit.
-/

namespace SealedLog

variable {H : HashFunction} {shared : StoreKey} {rows : Rows}

namespace Fleet

variable {f f' : Fleet} {i : Nat} {s : Session}

/-- An entry about a record comes behind the one about the creation of its stream, by the same
session in the same attachment. -/
def Owned (shared : StoreKey) (earlier : List Entry) (e : Entry) : Prop :=
  ∀ m, e = .appended m → m.place = shared → .created m ∈ earlier

/-- A stream that was created right behind another one, by the session that created that one and
nothing since, follows it. -/
def Anchored (H : HashFunction) (shared : StoreKey) (rows : Rows) (earlier : List Entry)
    (e : Entry) : Prop :=
  ∀ m before q a after, e = .created m → m.place = shared →
    rows.anchors = before ++ q :: a :: after → m.stream = a.id →
    lastCreated m.session earlier = some (shared, q.id) →
    nextNonce H q.digest q.descriptor = .ok a.nonce

/-- A session follows some streams of the shared store that it created in this attachment. -/
def FollowsOwn (f : Fleet) (shared : StoreKey) (i : Nat) (s : Session) (rows : Rows) : Prop :=
  ∃ own, s.registry.Follows own rows ∧
    ∀ a ∈ own, .created ⟨i, f.attachments i, shared, a.id⟩ ∈ f.chronicle

theorem followsOwn_of_nil (none : s.registry.streams = []) : f.FollowsOwn shared i s rows :=
  ⟨[], ⟨fun _ h => (nomatch h), none⟩, fun _ h => (nomatch h)⟩

/-- What holds of the shared store and its sessions at any time. -/
structure Shares (H : HashFunction) (shared : StoreKey) (f : Fleet) (rows : Rows) : Prop where
  holds : (f.stores shared).Holds rows
  sound : rows.Sound H
  follows : ∀ i s, f.sessions i = some s → s.place = some shared → f.FollowsOwn shared i s rows
  closed : ∀ i s, f.sessions i = some s → s.opened = none → s.registry.streams = []
  /-- Every row was written down, in order. -/
  creations : f.chronicle.filterMap (Entry.createdIn shared) = rows.anchors.map StreamAnchor.id
  appends : f.chronicle.filterMap (Entry.appendedIn shared) =
    rows.records.map fun r => r.2.stream
  /-- The nonce of a session is the one behind the stream that it created last. -/
  nonces : ∀ i s q, f.sessions i = some s → q ∈ rows.anchors →
    lastCreated i f.chronicle = some (shared, q.id) →
    nextNonce H q.digest q.descriptor = .ok s.registry.nonce
  owned : Along (Owned shared) f.chronicle
  anchored : Along (Anchored H shared rows) f.chronicle

/-- When the state of one session changes, a session is in that state or in the one that it had. -/
theorem sessions_cases {s' t : Session} {j : Nat}
    (sessions : f'.sessions = Function.update f.sessions i (some s'))
    (there : f'.sessions j = some t) : j = i ∧ t = s' ∨ j ≠ i ∧ f.sessions j = some t := by
  rw [sessions] at there
  by_cases same : j = i
  · subst same
    rw [Function.update_self] at there
    exact .inl ⟨rfl, (Option.some.inj there).symm⟩
  · rw [Function.update_of_ne same] at there
    exact .inr ⟨same, there⟩

namespace Shares

/-- The streams that were created are there. -/
theorem mem_of_created (h : Shares H shared f rows) {m : Mark} (created : .created m ∈ f.chronicle)
    (place : m.place = shared) : ∃ a ∈ rows.anchors, a.id = m.stream := by
  have mem : m.stream ∈ f.chronicle.filterMap (Entry.createdIn shared) :=
    List.mem_filterMap.2 ⟨_, created, if_pos place⟩
  rw [h.creations] at mem
  exact List.mem_map.1 mem

theorem mem_of_lastCreated (h : Shares H shared f rows) {id : StreamId}
    (last : lastCreated i f.chronicle = some (shared, id)) : ∃ a ∈ rows.anchors, a.id = id := by
  obtain ⟨m, created, place, rfl⟩ := exists_of_lastCreated last
  exact h.mem_of_created created place

/-! ### Steps that put nothing into the shared store -/

/-- Sessions that have no streams, or the streams and the place that they had, keep the invariant,
as long as the rows of the shared store stay and nothing is written down. -/
theorem quiet (h : Shares H shared f rows) (chronicle : f'.chronicle = f.chronicle)
    (tables : (f'.stores shared).tables = (f.stores shared).tables)
    (sessions : ∀ i s', f'.sessions i = some s' → ∃ s, f.sessions i = some s ∧
      s'.registry.nonce = s.registry.nonce ∧
      (s'.registry.streams = [] ∨ s'.registry = s.registry ∧ s'.place = s.place ∧
        f'.attachments i = f.attachments i)) :
    Shares H shared f' rows where
  holds := tables.trans h.holds
  sound := h.sound
  follows i s' there place := by
    obtain ⟨s, was, -, none | ⟨registry, same, count⟩⟩ := sessions i s' there
    · exact followsOwn_of_nil none
    · rw [FollowsOwn, chronicle, count, registry]
      exact h.follows i s was (same.symm.trans place)
  closed i s' there shut := by
    obtain ⟨s, was, -, none | ⟨registry, same, -⟩⟩ := sessions i s' there
    · exact none
    · -- the session was closed before, since it has the place that it had
      have shutBefore := same.symm.trans (Session.place_of_closed shut)
      rw [registry]
      exact h.closed i s was (Option.map_eq_none_iff.1 shutBefore)
  creations := chronicle ▸ h.creations
  appends := chronicle ▸ h.appends
  nonces i s' q there hq last := by
    obtain ⟨s, was, nonce, -⟩ := sessions i s' there
    rw [nonce]
    exact h.nonces i s q was hq (chronicle ▸ last)
  owned := chronicle ▸ h.owned
  anchored := chronicle ▸ h.anchored

/-- The same when the state of one session changes. -/
theorem quiet_update (h : Shares H shared f rows) (there : f.sessions i = some s) {s' : Session}
    (chronicle : f'.chronicle = f.chronicle)
    (tables : (f'.stores shared).tables = (f.stores shared).tables)
    (sessions : f'.sessions = Function.update f.sessions i (some s'))
    (others : ∀ j, j ≠ i → f'.attachments j = f.attachments j)
    (nonce : s'.registry.nonce = s.registry.nonce)
    (kept : s'.registry.streams = [] ∨ s'.registry = s.registry ∧ s'.place = s.place ∧
      f'.attachments i = f.attachments i) :
    Shares H shared f' rows := by
  refine h.quiet chronicle tables fun j t ht => ?_
  obtain ⟨rfl, rfl⟩ | ⟨ne, was⟩ := sessions_cases sessions ht
  · exact ⟨s, there, nonce, kept⟩
  · exact ⟨t, was, rfl, .inr ⟨rfl, rfl, others j ne⟩⟩

/-- A session that is refused, or opens a store when it had none, has the streams that it had: in
the second case none, so that its new attachment follows nothing. -/
theorem entering (h : Shares H shared f rows) (there : f.sessions i = some s) {α : Type}
    {answer : Except SessionError α} {s' : Session} (chronicle : f'.chronicle = f.chronicle)
    (tables : (f'.stores shared).tables = (f.stores shared).tables)
    (sessions : f'.sessions = Function.update f.sessions i (some s'))
    (attachments : f'.attachments = f.counts i answer)
    (cases : (∃ e, answer = .error e ∧ s' = s) ∨
      (∃ a, answer = .ok a) ∧ s.opened = none ∧ s'.registry = s.registry) :
    Shares H shared f' rows := by
  obtain ⟨e, refused, rfl⟩ | ⟨⟨a, done⟩, shut, registry⟩ := cases
  · have count : f'.attachments = f.attachments := by
      rw [attachments, refused]
      rfl
    exact h.quiet_update there chronicle tables sessions (fun j _ => congrFun count j) rfl
      (.inr ⟨rfl, rfl, congrFun count i⟩)
  · have count : f'.attachments = Function.update f.attachments i (f.attachments i + 1) := by
      rw [attachments, done]
      rfl
    have none : s'.registry.streams = [] := by
      rw [registry]
      exact h.closed i s there shut
    refine h.quiet_update there chronicle tables sessions (fun j ne => ?_) ?_ (.inl none)
    · rw [count, Function.update_of_ne ne]
    · rw [registry]

theorem attach (h : Shares H shared f rows) (there : f.sessions i = some s) (key : StoreKey)
    (mode : AccessMode) : Shares H shared (f.attach i s key mode) rows := by
  obtain ⟨kept, cases⟩ := s.attach_cases (f.stores key) key mode
  have tables : ((f.attach i s key mode).stores shared).tables = (f.stores shared).tables := by
    show (Function.update f.stores key _ shared).tables = _
    by_cases same : shared = key
    · rw [same, Function.update_self]
      exact kept
    · rw [Function.update_of_ne same]
  refine h.entering there rfl tables rfl rfl (cases.imp_right ?_)
  rintro ⟨done, shut, opened⟩
  exact ⟨⟨(), done⟩, shut, by rw [opened]⟩

theorem openAt (h : Shares H shared f rows) (there : f.sessions i = some s) (fs : FileSystem)
    {key : StoreKey} (elsewhere : key ≠ shared) (opening : Opening) :
    Shares H shared (f.openAt i s fs key opening) rows := by
  have tables : ((f.openAt i s fs key opening).stores shared).tables =
      (f.stores shared).tables := by
    unfold Fleet.openAt
    dsimp only
    cases (s.openAt fs key opening).answer with
    | error e => rfl
    | ok attached =>
      dsimp only
      rw [Function.update_of_ne elsewhere.symm]
  refine h.entering there rfl tables rfl rfl ((s.openAt_cases fs key opening).imp_right ?_)
  rintro ⟨shut, attached, o, done, -, opened⟩
  exact ⟨⟨attached, done⟩, shut, by rw [opened]⟩

theorem close (h : Shares H shared f rows) (there : f.sessions i = some s) (fs : FileSystem)
    (attached : Attached) :
    Shares H shared (f.withSession i (some (s.close fs attached).session)) rows := by
  obtain ⟨-, same⟩ | released := s.close_cases fs attached
  · refine h.quiet_update there rfl rfl rfl (fun _ _ => rfl) ?_ (.inr ⟨?_, ?_, rfl⟩) <;> rw [same]
  · refine h.quiet_update there rfl rfl rfl (fun _ _ => rfl) ?_ (.inl ?_)
    · rw [released]
      rfl
    · rw [released]
      rfl

theorem drop (h : Shares H shared f rows) (i : Nat) :
    Shares H shared (f.withSession i none) rows := by
  refine h.quiet rfl rfl fun j t ht => ⟨t, ?_, rfl, .inr ⟨rfl, rfl, rfl⟩⟩
  change Function.update f.sessions i none j = some t at ht
  by_cases same : j = i
  · rw [same, Function.update_self] at ht
    cases ht
  · rwa [Function.update_of_ne same] at ht

/-! ### Steps that put a row into a store -/

/-- What has to be shown when a session puts a row into a store. -/
theorem loud (h : Shares H shared f rows) {s' : Session} {key : StoreKey} {e : Entry} {rows' : Rows}
    (recorded : Recorded f i s' e f') (place : s'.place = some key)
    (holds : (f'.stores shared).Holds rows') (sound : rows'.Sound H)
    (own : key = shared → f'.FollowsOwn shared i s' rows')
    (others : ∀ j t, j ≠ i → f.FollowsOwn shared j t rows → f'.FollowsOwn shared j t rows')
    (creations : f'.chronicle.filterMap (Entry.createdIn shared) =
      rows'.anchors.map StreamAnchor.id)
    (appends : f'.chronicle.filterMap (Entry.appendedIn shared) =
      rows'.records.map fun r => r.2.stream)
    (author : ∀ j, j ≠ i → e.createdBy j = none)
    (nonce : ∀ q ∈ rows'.anchors, lastCreated i (f.chronicle ++ [e]) = some (shared, q.id) →
      nextNonce H q.digest q.descriptor = .ok s'.registry.nonce)
    (old : ∀ q ∈ rows'.anchors, ∀ a ∈ rows.anchors, a.id = q.id → a = q)
    (owned : Owned shared f.chronicle e) (anchored : Along (Anchored H shared rows') f.chronicle)
    (last : Anchored H shared rows' f.chronicle e) : Shares H shared f' rows' where
  holds := holds
  sound := sound
  follows j t there at_ := by
    obtain ⟨rfl, rfl⟩ | ⟨ne, was⟩ := sessions_cases recorded.sessions there
    · exact own (Option.some.inj (place.symm.trans at_))
    · exact others j t ne (h.follows j t was at_)
  closed j t there shut := by
    obtain ⟨rfl, rfl⟩ | ⟨ne, was⟩ := sessions_cases recorded.sessions there
    · rw [Session.place_of_closed shut] at place
      cases place
    · exact h.closed j t was shut
  creations := creations
  appends := appends
  nonces j t q there hq made := by
    rw [recorded.chronicle] at made
    obtain ⟨rfl, rfl⟩ | ⟨ne, was⟩ := sessions_cases recorded.sessions there
    · exact nonce q hq made
    · -- what another session created last was there before
      rw [lastCreated_concat_of_none (author j ne)] at made
      obtain ⟨a, ha, id⟩ := h.mem_of_lastCreated made
      rw [← old q hq a ha id] at made ⊢
      exact h.nonces j t a was ha made
  owned := by
    rw [recorded.chronicle]
    exact h.owned.concat owned
  anchored := by
    rw [recorded.chronicle]
    exact anchored.concat last

/-- A session keeps following its streams when more is written down. -/
theorem followsOwn_of_recorded {t s' : Session} {j : Nat} {e : Entry}
    (recorded : Recorded f i s' e f')
    (follows : ∀ own, t.registry.Follows own rows → t.registry.Follows own rows')
    (h : f.FollowsOwn shared j t rows) : f'.FollowsOwn shared j t rows' := by
  obtain ⟨own, known, marked⟩ := h
  refine ⟨own, follows own known, fun a ha => ?_⟩
  rw [recorded.attachments]
  exact recorded.mem_of_mem (marked a ha)

/-- A row in another store does not concern the shared one. -/
theorem loud_elsewhere (h : Shares H shared f rows) (there : f.sessions i = some s) {s' : Session}
    {m : Mark} {e : Entry}
    (kind : e = .created m ∨ e = .appended m ∧ s'.registry.nonce = s.registry.nonce)
    (author : m.session = i) (away : m.place ≠ shared) (recorded : Recorded f i s' e f')
    (place : s'.place = some m.place) (stores : f'.stores shared = f.stores shared) :
    Shares H shared f' rows := by
  have noCreation : e.createdIn shared = none := by
    obtain rfl | ⟨rfl, -⟩ := kind
    · exact if_neg away
    · rfl
  have noRecord : e.appendedIn shared = none := by
    obtain rfl | ⟨rfl, -⟩ := kind
    · rfl
    · exact if_neg away
  refine h.loud recorded place (stores ▸ h.holds) h.sound (absurd · away)
    (fun j t _ => followsOwn_of_recorded recorded fun _ => id) ?_ ?_ ?_ ?_ ?_ ?_ h.anchored ?_
  · rw [recorded.chronicle, List.filterMap_append, List.filterMap_cons, noCreation]
    exact (List.append_nil _).trans h.creations
  · rw [recorded.chronicle, List.filterMap_append, List.filterMap_cons, noRecord]
    exact (List.append_nil _).trans h.appends
  · intro j ne
    obtain rfl | ⟨rfl, -⟩ := kind
    · exact if_neg fun same => ne (same.symm.trans author)
    · rfl
  · intro q hq last
    obtain rfl | ⟨rfl, nonce⟩ := kind
    · rw [← author, lastCreated_created] at last
      exact absurd (Prod.mk.inj (Option.some.inj last)).1 away
    · rw [lastCreated_concat_of_none rfl] at last
      rw [nonce]
      exact h.nonces i s q there hq last
  · intro q hq a ha same
    exact h.sound.eq_of_id ha hq same
  · rintro m' rfl here
    obtain same | ⟨same, -⟩ := kind <;> cases same
    exact absurd here away
  · rintro m' _ _ _ _ rfl here
    obtain same | ⟨same, -⟩ := kind <;> cases same
    exact absurd here away

theorem call_elsewhere (h : Shares H shared f rows) (there : f.sessions i = some s) {key : StoreKey}
    (place : s.place = some key) (away : key ≠ shared) (c : SessionCall) :
    Shares H shared (f.call H i s key c) rows := by
  have stores : (f.call H i s key c).stores shared = f.stores shared :=
    Function.update_of_ne away.symm _ _
  cases Session.call_effect H s (f.stores key) c with
  | still still =>
    refine h.quiet_update there (chronicle_call_of_still still.tables) (congrArg _ stores) rfl
      (fun _ _ => rfl) ?_ (.inr ⟨still.registry, still.place, rfl⟩)
    rw [still.registry]
  | created place' _ _ _ _ _ put =>
    exact h.loud_elsewhere there (.inl rfl) rfl away (recorded_call_of_stream put)
      (place'.trans place) stores
  | written place' _ _ _ _ registry put =>
    have nonce := congrArg StreamRegistry.nonce registry
    exact h.loud_elsewhere there (.inr ⟨rfl, nonce⟩) rfl away (recorded_call_of_record put)
      (place'.trans place) stores

/-- Neighbours in a longer list are its last two members, or neighbours in the shorter one. -/
theorem neighbours_concat {α : Type} {xs before after : List α} {x q a : α}
    (h : xs ++ [x] = before ++ q :: a :: after) :
    xs = before ++ [q] ∧ a = x ∨ ∃ rest, xs = before ++ q :: a :: rest := by
  obtain ⟨-, -, none⟩ | ⟨rest, front, back⟩ := split_concat h
  · cases none
  · cases rest with
    | nil =>
      obtain ⟨rfl, -⟩ := List.cons.inj back
      exact .inl ⟨front, rfl⟩
    | cons b rest =>
      obtain ⟨rfl, -⟩ := List.cons.inj back
      exact .inr ⟨rest, front⟩

/-- A stream behind all others does not come between two of them. -/
theorem anchored_withAnchor (h : Shares H shared f rows) {b : StreamAnchor}
    (unused : ∀ a ∈ rows.anchors, a.id ≠ b.id) :
    Along (Anchored H shared (rows.withAnchor b)) f.chronicle := by
  refine h.anchored.imp fun earlier e he was => ?_
  -- a stream that was created before is not the new one, so that its neighbours are old
  rintro m before q a after rfl here split owner last
  obtain ⟨-, rfl⟩ | ⟨rest, split⟩ := neighbours_concat split
  · obtain ⟨c, hc, made⟩ := h.mem_of_created he here
    exact absurd (made.trans owner) (unused c hc)
  · exact was m before q a rest rfl here split owner last

/-- A session that creates a stream follows it, and its nonce is the one behind it. -/
theorem created_here (h : Shares H shared f rows) (there : f.sessions i = some s) {s' : Session}
    {own : List StreamAnchor} {a : StreamAnchor}
    (marked : ∀ b ∈ own, .created ⟨i, f.attachments i, shared, b.id⟩ ∈ f.chronicle)
    (nonce : a.nonce = s.registry.nonce) (unused : ∀ b ∈ rows.anchors, b.id ≠ a.id)
    (next : nextNonce H a.digest a.descriptor = .ok s'.registry.nonce)
    (recorded : Recorded f i s' (.created ⟨i, f.attachments i, shared, a.id⟩) f')
    (place : s'.place = some shared) (holds : (f'.stores shared).Holds (rows.withAnchor a))
    (sound : (rows.withAnchor a).Sound H)
    (follows : s'.registry.Follows (own ++ [a]) (rows.withAnchor a)) :
    Shares H shared f' (rows.withAnchor a) := by
  have isNew : a ∈ (rows.withAnchor a).anchors :=
    List.mem_append_right _ (List.mem_singleton.2 rfl)
  refine h.loud recorded place holds sound (fun _ => ⟨own ++ [a], follows, ?_⟩)
    (fun j t _ => followsOwn_of_recorded recorded fun _ known => known.withAnchor a)
    ?_ ?_ ?_ ?_ ?_ ?_ (h.anchored_withAnchor unused) ?_
  · intro b hb
    rw [recorded.attachments]
    rcases List.mem_append.1 hb with old | new
    · exact recorded.mem_of_mem (marked b old)
    · rw [List.mem_singleton.1 new]
      exact recorded.mem_self
  · rw [recorded.chronicle, List.filterMap_append, h.creations, Rows.withAnchor, List.map_append]
    exact congrArg _ (List.filterMap_cons_some (if_pos rfl))
  · rw [recorded.chronicle, List.filterMap_append, h.appends]
    exact List.append_nil _
  · intro j ne
    exact if_neg ne.symm
  · -- what this session created last is the new stream
    intro q hq last
    rw [lastCreated_created f.chronicle ⟨i, f.attachments i, shared, a.id⟩] at last
    obtain rfl := sound.eq_of_id isNew hq (Prod.mk.inj (Option.some.inj last)).2
    exact next
  · intro q hq b hb same
    exact sound.eq_of_id (List.mem_append_left _ hb) hq same
  · intro m same
    cases same
  · rintro m before q b after ⟨⟩ - split owner last
    obtain ⟨front, rfl⟩ | ⟨rest, split⟩ := neighbours_concat split
    · -- the stream before it was the last one, and the session that created both has its nonce
      rw [nonce]
      refine h.nonces i s q there ?_ last
      rw [front]
      exact List.mem_append_right _ (List.mem_singleton.2 rfl)
    · have old : b ∈ rows.anchors := by
        rw [split]
        exact List.mem_append_right _ (List.mem_cons_of_mem _ List.mem_cons_self)
      exact absurd owner.symm (unused b old)

/-- A stream was created once. -/
theorem eq_of_created (h : Shares H shared f rows) {m m' : Mark} (made : .created m ∈ f.chronicle)
    (made' : .created m' ∈ f.chronicle) (here : m.place = shared) (here' : m'.place = shared)
    (same : m.stream = m'.stream) : m = m' := by
  have nodup : (f.chronicle.filterMap (Entry.createdIn shared)).Nodup := by
    rw [h.creations]
    exact h.sound.nodup_ids
  have ofM : Entry.createdIn shared (.created m) = some m.stream := if_pos here
  have ofM' : Entry.createdIn shared (.created m') = some m.stream := by
    rw [same]
    exact if_pos here'
  exact Entry.created.inj (eq_of_nodup_filterMap nodup made made' ofM ofM')

/-- A session that writes to a stream of its own writes to none of another session. -/
theorem written_here (h : Shares H shared f rows) (there : f.sessions i = some s) {s' : Session}
    {own : List StreamAnchor} {a : StreamAnchor} {r : Record} {n : Int64} (ha : a ∈ own)
    (owner : r.stream = a.id)
    (marked : ∀ b ∈ own, .created ⟨i, f.attachments i, shared, b.id⟩ ∈ f.chronicle)
    (nonce : s'.registry.nonce = s.registry.nonce)
    (recorded : Recorded f i s' (.appended ⟨i, f.attachments i, shared, r.stream⟩) f')
    (place : s'.place = some shared) (holds : (f'.stores shared).Holds (rows.withRecord n r))
    (sound : (rows.withRecord n r).Sound H)
    (follows : s'.registry.Follows own (rows.withRecord n r)) :
    Shares H shared f' (rows.withRecord n r) := by
  refine h.loud recorded place holds sound (fun _ => ⟨own, follows, ?_⟩) ?_ ?_ ?_ ?_ ?_ ?_ ?_
    h.anchored ?_
  · intro b hb
    rw [recorded.attachments]
    exact recorded.mem_of_mem (marked b hb)
  · rintro j t ne ⟨others, known, theirs⟩
    refine ⟨others, known.withRecord_of_ne fun b hb same => ?_, fun b hb => ?_⟩
    · -- the stream would have been created twice, by two sessions
      have twice := h.eq_of_created (theirs b hb) (marked a ha) rfl rfl (same.symm.trans owner)
      exact ne (congrArg Mark.session twice)
    · rw [recorded.attachments]
      exact recorded.mem_of_mem (theirs b hb)
  · rw [recorded.chronicle, List.filterMap_append, h.creations]
    exact List.append_nil _
  · rw [recorded.chronicle, List.filterMap_append, h.appends, Rows.withRecord, List.map_append]
    exact congrArg _ (List.filterMap_cons_some (if_pos rfl))
  · intro j _
    rfl
  · intro q hq last
    rw [lastCreated_concat_of_none rfl] at last
    rw [nonce]
    exact h.nonces i s q there hq last
  · intro q hq b hb same
    exact h.sound.eq_of_id hb hq same
  · rintro m ⟨⟩ -
    rw [owner]
    exact marked a ha
  · intro m _ _ _ _ same
    cases same

theorem call_here (h : Shares H shared f rows) (there : f.sessions i = some s)
    (place : s.place = some shared) (c : SessionCall) :
    ∃ rows', Shares H shared (f.call H i s shared c) rows' := by
  obtain ⟨own, follows, marked⟩ := h.follows i s there place
  obtain ⟨rows', own', progress, holds', sound', follows', place'⟩ :=
    s.call_progress h.holds h.sound follows c
  have stores : (f.call H i s shared c).stores shared =
      (s.call H (f.stores shared) c).store := Function.update_self _ _ _
  have holds : ((f.call H i s shared c).stores shared).Holds rows' := stores ▸ holds'
  have before : (f.stores shared).tables = rows.tables := h.holds
  have after : (s.call H (f.stores shared) c).store.tables = rows'.tables := holds'
  refine ⟨rows', ?_⟩
  cases progress with
  | still registry =>
    have kept := after.trans before.symm
    refine h.quiet_update there (chronicle_call_of_still kept) (stores ▸ kept) rfl (fun _ _ => rfl)
      ?_ (.inr ⟨registry, place', rfl⟩)
    rw [registry]
  | @created _ a anchored _ unused next =>
    rw [rows.tables_withAnchor a, ← before] at after
    exact h.created_here there marked anchored unused next (recorded_call_of_stream after)
      (place'.trans place) holds sound' follows'
  | @written _ a r n ha owner nonce =>
    rw [rows.tables_withRecord n r, ← before] at after
    exact h.written_here there ha owner marked nonce (recorded_call_of_record after)
      (place'.trans place) holds sound' follows'

/-! ### Any number of steps -/

/-- Sessions without streams share a store without rows. -/
theorem of_empty (fresh : ∀ i s, f.sessions i = some s → s.registry.streams = [])
    (unwritten : f.chronicle = []) (empty : (f.stores shared).Holds {}) :
    Shares H shared f {} where
  holds := empty
  sound := .empty H
  follows i s there _ := followsOwn_of_nil (fresh i s there)
  closed i s there _ := fresh i s there
  creations := by rw [unwritten]; rfl
  appends := by rw [unwritten]; rfl
  nonces _ _ _ _ h := nomatch h
  owned := by
    rw [unwritten]
    exact .nil
  anchored := by
    rw [unwritten]
    exact .nil

/-- **Every step keeps the invariant of the shared store.** -/
theorem step (h : Shares H shared f rows) (step : Step H shared f f') :
    ∃ rows', Shares H shared f' rows' := by
  cases step with
  | attach there key mode => exact ⟨rows, h.attach there key mode⟩
  | openAt there fs away opening => exact ⟨rows, h.openAt there fs away opening⟩
  | @call i s there key place c =>
    by_cases here : key = shared
    · subst here
      exact h.call_here there place c
    · exact ⟨rows, h.call_elsewhere there place here c⟩
  | refuse there closed store c =>
    refine ⟨rows, h.quiet_update there rfl rfl rfl (fun _ _ => rfl) ?_ (.inr ⟨?_, ?_, rfl⟩)⟩ <;>
      rw [Session.call_of_closed closed]
  | close there fs attached => exact ⟨rows, h.close there fs attached⟩
  | drop i => exact ⟨rows, h.drop i⟩
  | disturb kept =>
    exact ⟨rows, h.quiet rfl kept fun i s there => ⟨s, there, rfl, .inr ⟨rfl, rfl, rfl⟩⟩⟩

theorem run (h : Shares H shared f rows) (run : Relation.ReflTransGen (Step H shared) f f') :
    ∃ rows', Shares H shared f' rows' := by
  induction run with
  | refl => exact ⟨rows, h⟩
  | tail _ step ih =>
    obtain ⟨rows', h'⟩ := ih
    exact h'.step step

/-- A stream that does not follow the one before it was created by a session that had created
something else since, or never created that one. -/
theorem lastCreated_ne (h : Shares H shared f rows) {before after : List StreamAnchor}
    {q a : StreamAnchor} (split : rows.anchors = before ++ q :: a :: after)
    (differs : nextNonce H q.digest q.descriptor ≠ .ok a.nonce) :
    ∃ earlier m later, f.chronicle = earlier ++ .created m :: later ∧ m.place = shared ∧
      m.stream = a.id ∧ lastCreated m.session earlier ≠ some (shared, q.id) := by
  have mem : a.id ∈ f.chronicle.filterMap (Entry.createdIn shared) := by
    rw [h.creations, split]
    exact List.mem_map_of_mem (List.mem_append_right _ (by simp))
  obtain ⟨e, he, made⟩ := List.mem_filterMap.1 mem
  obtain ⟨earlier, later, chronicle⟩ := List.append_of_mem he
  cases e with
  | appended m => cases made
  | created m =>
    rw [Entry.createdIn] at made
    split_ifs at made with here
    obtain owner : m.stream = a.id := Option.some.inj made
    refine ⟨earlier, m, later, chronicle, here, owner, fun last => differs ?_⟩
    exact h.anchored earlier _ later chronicle m before q a after rfl here split owner last

end Shares

/-- What is known of the rows of a shared store, and of an audit of it. -/
structure Accounts (H : HashFunction) (shared : StoreKey) (f : Fleet) (rows : Rows) : Prop where
  holds : (f.stores shared).Holds rows
  /-- Streams have names and numbers of their own. -/
  names : (rows.anchors.map fun a => a.descriptor.name).Nodup
  numbers : (rows.anchors.map StreamAnchor.id).Nodup
  /-- The rows are those that sessions put there, in order. -/
  creations : f.chronicle.filterMap (Entry.createdIn shared) = rows.anchors.map StreamAnchor.id
  appends : f.chronicle.filterMap (Entry.appendedIn shared) =
    rows.records.map fun r => r.2.stream
  /-- Records are appended by the session that created their stream, in the same attachment. -/
  owned : ∀ earlier m later, f.chronicle = earlier ++ .appended m :: later → m.place = shared →
    .created m ∈ earlier
  /-- An audit finds no wrong digest; it finds a break only where the session that created a stream
  had not created the one before it, or something else since. -/
  audit : ∀ report, (f.stores shared).audit H = .ok report → ∀ v ∈ report.violations,
    v.kind = .anchorBreak ∧ ∃ before q a after, rows.anchors = before ++ q :: a :: after ∧
      v.stream = a.descriptor.name ∧ ∃ earlier m later,
        f.chronicle = earlier ++ .created m :: later ∧ m.place = shared ∧ m.stream = a.id ∧
          lastCreated m.session earlier ≠ some (shared, q.id)

/-- **Sessions that share a store keep its digests right**, in whatever order they take turns. No
session appends to a stream that it did not create in the same attachment. -/
theorem accounts {f₀ : Fleet} (fresh : ∀ i s, f₀.sessions i = some s → s.registry.streams = [])
    (unwritten : f₀.chronicle = []) (vacant : (f₀.stores shared).tables.streams = [])
    (referential : (f₀.stores shared).tables.Referential)
    (run : Relation.ReflTransGen (Step H shared) f₀ f) : ∃ rows, Accounts H shared f rows := by
  obtain ⟨rows, h⟩ :=
    (Shares.of_empty fresh unwritten (Store.holds_empty vacant referential)).run run
  refine ⟨rows, h.holds, h.sound.distinct, h.sound.nodup_ids, h.creations, h.appends, ?_, ?_⟩
  · exact fun earlier m later split here => h.owned earlier _ later split m rfl here
  · intro report audit v hv
    obtain ⟨kind, before, q, a, after, split, stream, differs⟩ :=
      Store.anchorBreak_of_sound h.holds h.sound audit hv
    exact ⟨kind, before, q, a, after, split, stream, h.lastCreated_ne split differs⟩

/-- Two sessions attach one store in memory, and each creates a stream. -/
theorem accounts_of_two_sessions :
    let H : HashFunction := fun _ => default
    let session (n : UInt8) := Session.ofNonce (Nonce.fill n) {}
    let f₀ : Fleet := ⟨fun _ => .inMemory, fun i => some (session (UInt8.ofNat i)), fun _ => 0, []⟩
    let attached (n : UInt8) := { session n with opened := some { store := 0, mode := .readWrite } }
    let f₂ := (f₀.attach 0 (session 0) 0 .readWrite).attach 1 (session 1) 0 .readWrite
    let f₃ := f₂.call H 0 (attached 0) 0 (.create ⟨"trades", "Trade", "json"⟩)
    let f₄ := f₃.call H 1 (attached 1) 0 (.create ⟨"quotes", "Quote", "json"⟩)
    Relation.ReflTransGen (Step H 0) f₀ f₄ ∧ ∃ rows, Accounts H 0 f₄ rows := by
  intro H session f₀ attached f₂ f₃ f₄
  have run : Relation.ReflTransGen (Step H 0) f₀ f₄ :=
    (((Relation.ReflTransGen.refl.tail (.attach rfl 0 .readWrite)).tail
      (.attach rfl 0 .readWrite)).tail (.call rfl rfl _)).tail (.call rfl rfl _)
  refine ⟨run, accounts (fun i s h => ?_) rfl rfl (fun r h => (List.not_mem_nil h).elim) run⟩
  cases h
  rfl

end Fleet

end SealedLog
