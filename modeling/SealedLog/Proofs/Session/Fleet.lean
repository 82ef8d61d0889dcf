import Mathlib.Logic.Function.Basic
import Mathlib.Logic.Relation
import SealedLog.Proofs.Session.Opening
import SealedLog.Proofs.Session.Progress

/-!
# Sessions side by side

Any number of sessions take turns on stores that they may share. Each opens and closes stores as it
likes, and what comes into a store is written down with the session that put it there.

* `Fleet`: stores, sessions, and the chronicle of all rows that came into the stores;
* `Fleet.Step`: what may happen next, in any order and with anything failing;
* `Fleet.Recorded`: a session got into a state and one entry was written down;
* `lastCreated`: the stream that a session created last;
* `Along`: a property of each entry of a chronicle and of those before it.
-/

namespace SealedLog

/-- A stream of a store, with the session that put a row there and which of its attachments, by
their count, it was. -/
structure Mark where
  session : Nat
  attachment : Nat
  place : StoreKey
  stream : StreamId
  deriving DecidableEq

/-- A row came into a store. -/
inductive Entry
  | created (mark : Mark)
  | appended (mark : Mark)
  deriving DecidableEq

namespace Entry

/-- What is written down of a row. -/
def ofRow (session attachment : Nat) (place : StoreKey) : Row → Entry
  | .stream row => .created ⟨session, attachment, place, row.id⟩
  | .record row => .appended ⟨session, attachment, place, row.stream⟩

/-- The stream that was created, if it was in this store. -/
def createdIn (place : StoreKey) : Entry → Option StreamId
  | .created m => if m.place = place then some m.stream else none
  | .appended _ => none

/-- The stream that got a record, if it was in this store. -/
def appendedIn (place : StoreKey) : Entry → Option StreamId
  | .created _ => none
  | .appended m => if m.place = place then some m.stream else none

/-- The stream that was created, if it was by this session, with its store. -/
def createdBy (session : Nat) : Entry → Option (StoreKey × StreamId)
  | .created m => if m.session = session then some (m.place, m.stream) else none
  | .appended _ => none

end Entry

/-- The stream that a session created last, in any store. -/
def lastCreated (session : Nat) (chronicle : List Entry) : Option (StoreKey × StreamId) :=
  (chronicle.filterMap (Entry.createdBy session)).getLast?

/-- Stores, and sessions by their numbers. -/
structure Fleet where
  stores : StoreKey → Store
  /-- A session that was dropped is no more. -/
  sessions : Nat → Option Session
  /-- How often a session was opened. -/
  attachments : Nat → Nat
  chronicle : List Entry := []

namespace Fleet

variable (H : HashFunction) (f : Fleet) (i : Nat) (s : Session)

/-- The fleet with another state of a session. -/
def withSession (s : Option Session) : Fleet :=
  { f with sessions := Function.update f.sessions i s }

/-- The counts of attachments after an answer to a session that wanted one. -/
def counts {α : Type} (answer : Except SessionError α) : Nat → Nat :=
  match answer with
  | .ok _ => Function.update f.attachments i (f.attachments i + 1)
  | .error _ => f.attachments

/-- A session attaches a store. -/
def attach (key : StoreKey) (mode : AccessMode) : Fleet :=
  let o := s.attach (f.stores key) key mode
  { f.withSession i (some o.session) with
    stores := Function.update f.stores key o.store
    attachments := f.counts i o.answer }

/-- A session opens a directory; the store gets the key. -/
def openAt (fs : FileSystem) (key : StoreKey) (opening : Opening) : Fleet :=
  let o := s.openAt fs key opening
  { f.withSession i (some o.session) with
    stores :=
      match o.answer with
      | .ok attached => Function.update f.stores key (attached.load o.files)
      | .error _ => f.stores
    attachments := f.counts i o.answer }

/-- A session is asked something while it has the store open. -/
def call (key : StoreKey) (c : SessionCall) : Fleet :=
  let o := s.call H (f.stores key) c
  { f.withSession i (some o.session) with
    stores := Function.update f.stores key o.store
    chronicle := f.chronicle ++
      ((f.stores key).tables.added o.store.tables).map (Entry.ofRow i (f.attachments i) key) }

/-- What may happen next, among sessions of which none opens the shared store by way of a directory.
The other stores are of no concern, and may be replaced at any time; the shared one keeps its rows
unless a session changes them. -/
inductive Step (H : HashFunction) (shared : StoreKey) : Fleet → Fleet → Prop
  | attach {f : Fleet} {i : Nat} {s : Session} (there : f.sessions i = some s) (key : StoreKey)
      (mode : AccessMode) : Step H shared f (f.attach i s key mode)
  | openAt {f : Fleet} {i : Nat} {s : Session} (there : f.sessions i = some s) (fs : FileSystem)
      {key : StoreKey} (elsewhere : key ≠ shared) (opening : Opening) :
      Step H shared f (f.openAt i s fs key opening)
  | call {f : Fleet} {i : Nat} {s : Session} (there : f.sessions i = some s) {key : StoreKey}
      (place : s.place = some key) (c : SessionCall) : Step H shared f (f.call H i s key c)
  /-- A closed session refuses everything. -/
  | refuse {f : Fleet} {i : Nat} {s : Session} (there : f.sessions i = some s)
      (closed : s.opened = none) (store : Store) (c : SessionCall) :
      Step H shared f (f.withSession i (some (s.call H store c).session))
  | close {f : Fleet} {i : Nat} {s : Session} (there : f.sessions i = some s) (fs : FileSystem)
      (attached : Attached) : Step H shared f (f.withSession i (some (s.close fs attached).session))
  | drop {f : Fleet} (i : Nat) : Step H shared f (f.withSession i none)
  | disturb {f : Fleet} {stores : StoreKey → Store}
      (kept : (stores shared).tables = (f.stores shared).tables) :
      Step H shared f { f with stores := stores }

end Fleet

namespace Fleet

variable {H : HashFunction} {f : Fleet} {i : Nat} {s : Session} {key : StoreKey} {c : SessionCall}

/-! ### What is written down of a call -/

/-- A session got into this state and an entry was written down; other sessions and all counts of
attachments are as they were. -/
structure Recorded (f : Fleet) (i : Nat) (s' : Session) (e : Entry) (f' : Fleet) : Prop where
  sessions : f'.sessions = Function.update f.sessions i (some s')
  attachments : f'.attachments = f.attachments
  chronicle : f'.chronicle = f.chronicle ++ [e]

namespace Recorded

variable {f f' : Fleet} {i : Nat} {s' : Session} {e e' : Entry}

theorem mem_of_mem (h : Recorded f i s' e f') (mem : e' ∈ f.chronicle) : e' ∈ f'.chronicle := by
  rw [h.chronicle]
  exact List.mem_append_left _ mem

theorem mem_self (h : Recorded f i s' e f') : e ∈ f'.chronicle := by
  rw [h.chronicle]
  exact List.mem_append_right _ (List.mem_singleton.2 rfl)

end Recorded

theorem chronicle_call_of_still
    (kept : (s.call H (f.stores key) c).store.tables = (f.stores key).tables) :
    (f.call H i s key c).chronicle = f.chronicle := by
  unfold call
  dsimp only
  rw [kept, Tables.added_self]
  exact List.append_nil _

theorem recorded_call_of_stream {row : StreamRow}
    (put : (s.call H (f.stores key) c).store.tables = (f.stores key).tables.withStream row) :
    Recorded f i (s.call H (f.stores key) c).session (.created ⟨i, f.attachments i, key, row.id⟩)
      (f.call H i s key c) where
  sessions := rfl
  attachments := rfl
  chronicle := by
    unfold call
    dsimp only
    rw [put, Tables.added_withStream]
    rfl

theorem recorded_call_of_record {row : RecordRow}
    (put : (s.call H (f.stores key) c).store.tables = (f.stores key).tables.withRecord row) :
    Recorded f i (s.call H (f.stores key) c).session
      (.appended ⟨i, f.attachments i, key, row.stream⟩) (f.call H i s key c) where
  sessions := rfl
  attachments := rfl
  chronicle := by
    unfold call
    dsimp only
    rw [put, Tables.added_withRecord]
    rfl

end Fleet

/-! ### Chronicles -/

/-- A place in a longer list is its last one, or a place in the shorter list. -/
theorem split_concat {α : Type} {xs before after : List α} {x y : α}
    (h : xs ++ [x] = before ++ y :: after) :
    xs = before ∧ x = y ∧ after = [] ∨ ∃ rest, xs = before ++ y :: rest ∧ after = rest ++ [x] := by
  rcases List.eq_nil_or_concat after with rfl | ⟨rest, z, rfl⟩
  · obtain ⟨front, same⟩ := List.append_inj' h rfl
    exact .inl ⟨front, List.singleton_inj.1 same, rfl⟩
  · rw [List.concat_eq_append, ← List.cons_append, ← List.append_assoc] at h
    obtain ⟨front, same⟩ := List.append_inj' h rfl
    obtain rfl := List.singleton_inj.1 same
    exact .inr ⟨rest, front, List.concat_eq_append⟩

/-- The property holds of each entry and those before it. -/
def Along (P : List Entry → Entry → Prop) (chronicle : List Entry) : Prop :=
  ∀ earlier e later, chronicle = earlier ++ e :: later → P earlier e

namespace Along

variable {P Q : List Entry → Entry → Prop} {chronicle : List Entry} {e : Entry}

theorem nil : Along P [] := fun _ _ _ h => absurd h (by simp)

theorem imp (h : Along P chronicle) (of : ∀ earlier, ∀ e ∈ chronicle, P earlier e → Q earlier e) :
    Along Q chronicle := by
  intro earlier e later split
  refine of earlier e ?_ (h earlier e later split)
  rw [split]
  exact List.mem_append_right _ List.mem_cons_self

theorem concat (h : Along P chronicle) (last : P chronicle e) : Along P (chronicle ++ [e]) := by
  intro earlier x later split
  -- an earlier entry has the same entries before it as it had
  obtain ⟨rfl, rfl, -⟩ | ⟨rest, split, -⟩ := split_concat split
  · exact last
  · exact h earlier x rest split

end Along

section

variable {i : Nat} {m : Mark} {chronicle : List Entry}

theorem lastCreated_concat_of_none {e : Entry} (other : e.createdBy i = none) :
    lastCreated i (chronicle ++ [e]) = lastCreated i chronicle := by
  simp [lastCreated, other]

theorem lastCreated_created (chronicle : List Entry) (m : Mark) :
    lastCreated m.session (chronicle ++ [.created m]) = some (m.place, m.stream) := by
  simp [lastCreated, Entry.createdBy]

/-- What a session created last was created. -/
theorem exists_of_lastCreated {place : StoreKey} {stream : StreamId}
    (h : lastCreated i chronicle = some (place, stream)) :
    ∃ m, .created m ∈ chronicle ∧ m.place = place ∧ m.stream = stream := by
  obtain ⟨e, he, made⟩ := List.mem_filterMap.1 (List.mem_of_getLast? h)
  cases e with
  | created m =>
    rw [Entry.createdBy] at made
    split_ifs at made
    cases made
    exact ⟨m, he, rfl, rfl⟩
  | appended m => cases made

end

/-- What stands behind a list without repetitions stands there once. -/
theorem eq_of_nodup_filterMap {α β : Type} {g : α → Option β} {xs : List α} {x y : α} {b : β}
    (h : (xs.filterMap g).Nodup) (hx : x ∈ xs) (hy : y ∈ xs) (ofX : g x = some b)
    (ofY : g y = some b) : x = y := by
  induction xs with
  | nil => cases hx
  | cons z xs ih =>
    have behind : ∀ w ∈ xs, g w = some b → b ∈ xs.filterMap g :=
      fun w hw of => List.mem_filterMap.2 ⟨w, hw, of⟩
    rcases List.mem_cons.1 hx with rfl | hx' <;> rcases List.mem_cons.1 hy with rfl | hy'
    · rfl
    · rw [List.filterMap_cons_some ofX] at h
      exact absurd (behind y hy' ofY) (List.nodup_cons.1 h).1
    · rw [List.filterMap_cons_some ofY] at h
      exact absurd (behind x hx' ofX) (List.nodup_cons.1 h).1
    · refine ih ?_ hx' hy'
      exact h.sublist (List.Sublist.filterMap g (List.sublist_cons_self z xs))

namespace Session

/-- A closed session refuses everything and stays as it is. -/
theorem call_of_closed {H : HashFunction} {s : Session} (closed : s.opened = none) (store : Store)
    (c : SessionCall) : (s.call H store c).session = s := by
  cases c with
  | create d => simp [call, create, writable, closed, refuse, Outcome.map]
  | write m => simp [call, write, writable, closed, refuse, Outcome.map]
  | hasNext => simp [call, hasNext, closed, refuse, Outcome.map]
  | readNext => simp [call, readNext, closed, refuse, Outcome.map]
  | readAll => simp [call, readAll, readMany, readNext, closed, refuse, Outcome.map]
  | remove d => rfl
  | streams => simp [call, streams, closed, refuse, Outcome.map]
  | metadata => simp [call, metadata, closed, refuse, Outcome.map]

end Session

end SealedLog
