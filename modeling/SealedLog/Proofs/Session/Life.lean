import Mathlib.Data.List.ReduceOption
import SealedLog.Proofs.Registry
import SealedLog.Proofs.Session.Fleet

/-!
# The nonce of a session, all its life

A session opens and closes one store after another. Its nonce goes on from each stream that it
creates to the next, whatever stores these are in, and nothing else moves it.

* `Situation`, `Deed`, `Session.Step`: a session among the stores, and what it does next;
* `Session.Life`: all that a session did, from some situation on;
* `Deed.Makes`: whether a stream was made, and which;
* `Session.Step.makes`: the step lemma; `Session.nonce_threaded`: the streams of a life.
-/

namespace SealedLog

variable {H : HashFunction}

/-- A session, and the stores that it may open. -/
structure Situation where
  session : Session
  stores : StoreKey → Store

/-- What a session did in one step: in which store, the tables there before and after, and what the
ledger was told. -/
structure Deed where
  place : Option StoreKey := none
  before : Tables := {}
  after : Tables := {}
  events : List LedgerEvent := []

/-- What is announced by an event. -/
def LedgerEvent.announcement? : LedgerEvent → Option Announcement
  | .streamCreated a => some a
  | .checkpoint _ => none

namespace Deed

/-- The streams that were announced. -/
def announced (deed : Deed) : List Announcement := deed.events.filterMap LedgerEvent.announcement?

/-- Either a stream was made: its row came behind the tables of a store, and the ledger was told of
it alone. Or no stream came into the store, and none was announced. -/
def Makes (deed : Deed) : Option StreamAnchor → Prop
  | none => deed.after.streams = deed.before.streams ∧ deed.announced = []
  | some a => deed.place.isSome ∧ deed.after = deed.before.withStream a.row ∧
      deed.events = [.streamCreated a.announcement]

theorem announced_of_silent {deed : Deed} (silent : deed.events = []) : deed.announced = [] := by
  rw [announced, silent]
  rfl

theorem announced_of_makes {deed : Deed} {made : Option StreamAnchor} (h : deed.Makes made) :
    deed.announced = made.toList.map StreamAnchor.announcement := by
  cases made with
  | none => exact h.2
  | some a =>
    obtain ⟨-, -, events⟩ := h
    rw [announced, events]
    rfl

end Deed

namespace Session

/-- What an outcome on a store amounts to. -/
def deed {α : Type} (place : Option StoreKey) (store : Store) (o : Outcome α) : Deed :=
  ⟨place, store.tables, o.store.tables, o.events⟩

/-- What may happen next to a session: it attaches a store, opens a directory, is asked something
while it has a store open or while it is closed, or closes. Opening a directory and closing have
nothing to tell the ledger. Others may make anything of the stores at any time. -/
inductive Step (H : HashFunction) : Situation → Deed → Situation → Prop
  | attach {w : Situation} (key : StoreKey) (mode : AccessMode) :
      Step H w (deed (some key) (w.stores key) (w.session.attach (w.stores key) key mode))
        ⟨(w.session.attach (w.stores key) key mode).session,
          Function.update w.stores key (w.session.attach (w.stores key) key mode).store⟩
  | openAt {w : Situation} (fs : FileSystem) (key : StoreKey) (opening : Opening) :
      Step H w {} ⟨(w.session.openAt fs key opening).session,
        match (w.session.openAt fs key opening).answer with
        | .ok attached =>
          Function.update w.stores key (attached.load (w.session.openAt fs key opening).files)
        | .error _ => w.stores⟩
  | call {w : Situation} {key : StoreKey} (place : w.session.place = some key) (c : SessionCall) :
      Step H w (deed (some key) (w.stores key) (w.session.call H (w.stores key) c))
        ⟨(w.session.call H (w.stores key) c).session,
          Function.update w.stores key (w.session.call H (w.stores key) c).store⟩
  | refuse {w : Situation} (closed : w.session.opened = none) (store : Store) (c : SessionCall) :
      Step H w (deed none store (w.session.call H store c))
        ⟨(w.session.call H store c).session, w.stores⟩
  | close {w : Situation} (fs : FileSystem) (attached : Attached) :
      Step H w {} ⟨(w.session.close fs attached).session, w.stores⟩
  | others {w : Situation} (stores : StoreKey → Store) : Step H w {} ⟨w.session, stores⟩

/-- A session does one thing after another. -/
inductive Life (H : HashFunction) (w₀ : Situation) : List Deed → Situation → Prop
  | start : Life H w₀ [] w₀
  | step {deeds : List Deed} {w w' : Situation} {deed : Deed} (life : Life H w₀ deeds w)
      (step : Step H w deed w') : Life H w₀ (deeds ++ [deed]) w'

variable {w w' w₀ : Situation} {deeds : List Deed}

/-! ### Steps -/

/-- Where nothing happens no stream is made, and the nonce stays. -/
theorem makes_of_still {α : Type} {s : Session} {store : Store} {o : Outcome α}
    (still : o.Still s store) (place : Option StoreKey) :
    (deed place store o).Makes none ∧ o.session.registry.nonce = s.registry.nonce :=
  ⟨⟨congrArg Tables.streams still.tables, Deed.announced_of_silent still.events⟩,
    congrArg StreamRegistry.nonce still.registry⟩

/-- What a call makes: no stream, and the nonce stays; or a stream that is anchored to the nonce,
and the nonce is the one behind it from now on. -/
theorem makes_of_effect {s : Session} {store : Store} {c : SessionCall}
    {o : Outcome SessionAnswer} {place : Option StoreKey} (effect : CallEffect H s store c o)
    (there : place.isSome) :
    (deed place store o).Makes none ∧ o.session.registry.nonce = s.registry.nonce ∨
      ∃ a, (deed place store o).Makes (some a) ∧ a.nonce = s.registry.nonce ∧
        streamDigest H a.nonce a.descriptor = .ok a.digest ∧
        nextNonce H a.digest a.descriptor = .ok o.session.registry.nonce := by
  cases effect with
  | still still _ => exact .inl (makes_of_still still place)
  | @created d _ id digest next _ _ anchored _ _ registry tables events _ =>
    obtain ⟨ofStream, follows⟩ := StreamRegistry.anchor_eq_ok_iff.1 anchored
    have next : o.session.registry.nonce = next := by
      rw [registry]
      rfl
    rw [next]
    exact .inr ⟨⟨id, d, s.registry.nonce, digest⟩, ⟨there, tables, events⟩, rfl, ofStream, follows⟩
  | written _ _ _ _ _ registry tables events _ =>
    refine .inl ⟨⟨?_, ?_⟩, ?_⟩
    · show o.store.tables.streams = store.tables.streams
      rw [tables]
      rfl
    · show o.events.filterMap LedgerEvent.announcement? = []
      rw [events]
      rfl
    · rw [registry]
      rfl

/-- Nothing comes of a call on a session that is not open for writing. -/
theorem still_of_refused {s : Session} {e : SessionError} (refused : s.writable = .error e)
    (store : Store) (c : SessionCall) : (s.call H store c).Still s store := by
  have effect := call_effect H s store c
  generalize made : s.call H store c = o at effect ⊢
  cases effect with
  | still still _ => exact still
  | created _ _ _ _ _ _ _ _ answer =>
    rw [← made] at answer
    simp [call, create, refused, refuse, Outcome.map, Except.map] at answer
  | written _ _ _ _ _ _ _ _ answer =>
    rw [← made] at answer
    simp [call, write, refused, refuse, Outcome.map, Except.map] at answer

theorem still_of_closed {s : Session} (closed : s.opened = none) (store : Store)
    (c : SessionCall) : (s.call H store c).Still s store :=
  still_of_refused (e := .notOpen) (by rw [writable, closed]) store c

theorem events_attach (s : Session) (store : Store) (key : StoreKey) (mode : AccessMode) :
    (s.attach store key mode).events = [] := by
  unfold attach
  split_ifs
  · rfl
  · rfl
  · rcases store.createSchema with ⟨store', e | _⟩ <;> rfl

theorem nonce_close (s : Session) (fs : FileSystem) (attached : Attached) :
    (s.close fs attached).session.registry.nonce = s.registry.nonce := by
  obtain ⟨-, same⟩ | released := s.close_cases fs attached
  · rw [same]
  · rw [released]
    rfl

/-- A step makes no stream and keeps the nonce, or it makes one that is anchored to the nonce and
moves the nonce behind it. -/
theorem Step.makes {deed : Deed} (step : Step H w deed w') :
    deed.Makes none ∧ w'.session.registry.nonce = w.session.registry.nonce ∨
      ∃ a, deed.Makes (some a) ∧ a.nonce = w.session.registry.nonce ∧
        streamDigest H a.nonce a.descriptor = .ok a.digest ∧
        nextNonce H a.digest a.descriptor = .ok w'.session.registry.nonce := by
  cases step with
  | attach key mode =>
    have kept := (w.session.attach_cases (w.stores key) key mode).1
    exact .inl ⟨⟨congrArg Tables.streams kept, Deed.announced_of_silent (events_attach ..)⟩,
      congrArg StreamRegistry.nonce (w.session.registry_attach ..)⟩
  | openAt fs key opening =>
    exact .inl ⟨⟨rfl, rfl⟩, congrArg StreamRegistry.nonce (w.session.registry_openAt ..)⟩
  | call place c => exact makes_of_effect (call_effect H w.session _ c) rfl
  | refuse closed store c =>
    exact .inl (makes_of_still (still_of_closed closed store c) none)
  | close fs attached => exact .inl ⟨⟨rfl, rfl⟩, w.session.nonce_close fs attached⟩
  | others => exact .inl ⟨⟨rfl, rfl⟩, rfl⟩

/-! ### Lives -/

/-- What is announced in some deeds. -/
def announced (deeds : List Deed) : List Announcement := deeds.flatMap Deed.announced

theorem announced_of_makes {made : List (Option StreamAnchor)}
    (makes : List.Forall₂ Deed.Makes deeds made) :
    announced deeds = made.reduceOption.map StreamAnchor.announcement := by
  induction makes with
  | nil => rfl
  | @cons deed a _ made first _ ih =>
    rw [announced, List.flatMap_cons, Deed.announced_of_makes first]
    cases a with
    | none => exact ih
    | some a =>
      rw [List.reduceOption_cons_of_some, List.map_cons, ← ih]
      rfl

/-- The streams that a session makes in its life are anchored one behind the other. -/
theorem Life.lineage (life : Life H w₀ deeds w) :
    ∃ made, List.Forall₂ Deed.Makes deeds made ∧
      Lineage H w₀.session.registry.nonce made.reduceOption w.session.registry.nonce := by
  induction life with
  | start => exact ⟨[], .nil, .nil H _⟩
  | step _ step ih =>
    obtain ⟨made, makes, line⟩ := ih
    -- the new stream, if there is one, stands behind those that were made before
    obtain ⟨one, kept⟩ | ⟨a, one, anchored, ofStream, follows⟩ := step.makes
    · refine ⟨made ++ [none], List.rel_append makes (.cons one .nil), ?_⟩
      rw [List.reduceOption_append, kept]
      simpa using line
    · refine ⟨made ++ [some a], List.rel_append makes (.cons one .nil), ?_⟩
      rw [List.reduceOption_append]
      rw [← anchored] at line
      exact Lineage.concat_iff.2 ⟨line, ofStream, follows⟩

/-- **The nonce of a session goes from each stream that it announces to the next**, all its life:
each of these streams has a row with its descriptor, the nonce before it and its digest, in the
store that the session had open. Steps that announce nothing keep the nonce. -/
theorem nonce_threaded (life : Life H w₀ deeds w) :
    (∃ made, List.Forall₂ Deed.Makes deeds made ∧
      announced deeds = made.reduceOption.map StreamAnchor.announcement ∧
      Lineage H w₀.session.registry.nonce made.reduceOption w.session.registry.nonce) ∧
    ∀ deed w', Step H w deed w' → deed.announced = [] →
      w'.session.registry.nonce = w.session.registry.nonce := by
  obtain ⟨made, makes, line⟩ := life.lineage
  refine ⟨⟨made, makes, announced_of_makes makes, line⟩, fun deed w' step quiet => ?_⟩
  obtain ⟨-, kept⟩ | ⟨a, one, -⟩ := step.makes
  · exact kept
  · rw [Deed.announced_of_makes one] at quiet
    cases quiet

/-- A session creates a stream in one store, closes, attaches another store and creates a stream of
the same name there. -/
theorem nonce_threaded_of_two_stores :
    let H : HashFunction := fun _ => default
    let trades : StreamDescriptor := ⟨"trades", "Trade", "json"⟩
    let s₀ := ofNonce (Nonce.fill 1) {}
    let w₀ : Situation := ⟨s₀, fun _ => .inMemory⟩
    let entered := s₀.attach .inMemory 0 .readWrite
    let created := entered.session.call H entered.store (.create trades)
    let closed := (created.session.close {} default).session
    let entered' := closed.attach .inMemory 1 .readWrite
    let created' := entered'.session.call H entered'.store (.create trades)
    let deeds := [deed (some 0) .inMemory entered, deed (some 0) entered.store created, {},
      deed (some 1) .inMemory entered', deed (some 1) entered'.store created']
    announced deeds = [⟨default, trades⟩, ⟨default, trades⟩] ∧
    (∃ stores, Life H w₀ deeds ⟨created'.session, stores⟩) ∧
      ∃ made, List.Forall₂ Deed.Makes deeds made ∧
        announced deeds = made.reduceOption.map StreamAnchor.announcement ∧
        Lineage H (Nonce.fill 1) made.reduceOption created'.session.registry.nonce := by
  intro H trades s₀ w₀ entered created closed entered' created' deeds
  have valid : trades.validate = .ok () := by decide
  have first : created = _ :=
    create_of_inserted rfl rfl (StreamRegistry.anchor_const default valid) rfl
  have released : closed = ⟨⟨Nonce.fill 0, [], .immutableChain⟩, {}, none⟩ := by
    unfold closed
    rw [first]
    rfl
  have again : entered' = ⟨{ closed with opened := some { store := 1, mode := .readWrite } },
      Store.inMemory.createSchema.1, [], .ok ()⟩ := by
    unfold entered'
    rw [released]
    rfl
  have told : created.events = [.streamCreated ⟨default, trades⟩] := by rw [first]
  have told' : created'.events = [.streamCreated ⟨default, trades⟩] := by
    unfold created'
    rw [again, released]
    rw [create_of_inserted rfl rfl (StreamRegistry.anchor_const default valid) rfl]
  have life : ∃ stores, Life H w₀ deeds ⟨created'.session, stores⟩ := by
    have place : entered'.session.place = some 1 := by
      rw [again]
      rfl
    exact ⟨_, ((((Life.start.step (.attach 0 .readWrite)).step (.call rfl (.create trades))).step
      (.close {} default)).step (.attach 1 .readWrite)).step (.call place (.create trades))⟩
  refine ⟨?_, life, ?_⟩
  · have opening' : entered'.events = [] := events_attach ..
    unfold announced deeds deed Deed.announced
    simp [told, told', opening', entered, events_attach, LedgerEvent.announcement?]
  · obtain ⟨_, life⟩ := life
    exact (nonce_threaded life).1

end Session

end SealedLog
