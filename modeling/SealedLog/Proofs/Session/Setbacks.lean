import Mathlib.Logic.Function.Basic
import SealedLog.Proofs.Chain.Preimage
import SealedLog.Proofs.Session.Failure
import SealedLog.Proofs.Session.Opening
import SealedLog.Proofs.Store.Alike

/-!
# Runs with setbacks

Any number of sessions open and close stores, which they may share, and are asked one thing after
another; which operations of the stores fail is said anew each time. Calls that create or write and
fail may stand anywhere in a run: what else is asked is answered as in the run without them.

* `Errand`, `Reply`: what is asked of a session, and what comes of it;
* `Scene.carryOut`, `Scene.carryOutAll`: a run;
* `Scene.Troubled`: the same run with failed changes in between;
* `Scene.Twin.carryOut`: what an errand does to twins;
* `failures_leave_no_trace`: failed changes leave no trace, in what there is and in what follows.
-/

namespace SealedLog

variable {H : HashFunction}

/-- Sessions and stores by their numbers. -/
structure Scene where
  sessions : Nat → Session
  stores : StoreKey → Store

/-- What a session is to do. -/
inductive Action
  | attach (key : StoreKey) (mode : AccessMode)
  /-- Open a directory of this tree; the store gets the number. -/
  | openAt (fs : FileSystem) (key : StoreKey) (opening : Opening)
  | call (c : SessionCall)
  | close (fs : FileSystem) (attached : Attached)

/-- What one of the sessions is to do, and the operations of its store that fail meanwhile. -/
structure Errand where
  who : Nat
  faults : FaultPlan := FaultPlan.none
  action : Action

/-- What comes of an errand. -/
structure Reply where
  answer : Except SessionError (Option SessionAnswer)
  events : List LedgerEvent := []

/-- The store was made ready, if that was tried. -/
def Reply.IsReady (r : Reply) : Prop := ∀ e, r.answer ≠ .error (.backend .prepareInsert e)

namespace Session.Twin

variable {s s' : Session}

/-- Twins close alike, and leave the same. -/
theorem close_eq (twin : s.Twin s') (fs : FileSystem) (attached : Attached) :
    s.close fs attached = s'.close fs attached := by
  obtain ⟨-, closed'⟩ | ⟨o, o', there, there', opened⟩ := twin.opened_cases
  · rw [twin.eq_of_closed closed']
  · have released : s.release = s'.release := by
      unfold Session.release
      rw [twin.registry, twin.config]
    have metadata : o.metadata = o'.metadata :=
      funext fun store => metadata_eq opened (.refl store)
    have manifest : s.refreshManifest fs o attached = s'.refreshManifest fs o' attached := by
      unfold Session.refreshManifest Session.saveManifest Session.manifestPath
      rw [opened.uri, opened.mode, twin.config, metadata]
    rw [Session.close_of_opened there, Session.close_of_opened there', released, manifest]

/-- Twins open a directory alike. -/
theorem openAt (twin : s.Twin s') (fs : FileSystem) (key : StoreKey) (opening : Opening) :
    (s.openAt fs key opening).answer = (s'.openAt fs key opening).answer ∧
      (s.openAt fs key opening).files = (s'.openAt fs key opening).files ∧
      (s.openAt fs key opening).session.Twin (s'.openAt fs key opening).session := by
  obtain ⟨-, closed'⟩ | ⟨o, o', there, there', -⟩ := twin.opened_cases
  · rw [twin.eq_of_closed closed']
    exact ⟨rfl, rfl, .refl _⟩
  · unfold Session.openAt Session.isOpen
    rw [there, there']
    exact ⟨rfl, rfl, twin⟩

end Session.Twin

namespace Scene

/-- The scene with another state of a session. -/
def withSession (w : Scene) (who : Nat) (s : Session) : Scene :=
  { w with sessions := Function.update w.sessions who s }

/-- The scene with another state of a store. -/
def withStore (w : Scene) (key : StoreKey) (store : Store) : Scene :=
  { w with stores := Function.update w.stores key store }

/-- A store, of which these operations fail. -/
def storeWith (w : Scene) (key : StoreKey) (faults : FaultPlan) : Store :=
  { w.stores key with faults := faults }

/-- Carry out an errand. -/
def carryOut (H : HashFunction) (w : Scene) (e : Errand) : Scene × Reply :=
  let s := w.sessions e.who
  match e.action with
  | .attach key mode =>
    let o := s.attach (w.storeWith key e.faults) key mode
    ((w.withSession e.who o.session).withStore key o.store,
      ⟨o.answer.map fun _ => none, o.events⟩)
  | .openAt fs key opening =>
    let o := s.openAt fs key opening
    match o.answer with
    | .error refusal => (w.withSession e.who o.session, ⟨.error refusal, []⟩)
    | .ok attached =>
      ((w.withSession e.who o.session).withStore key (attached.load o.files), ⟨.ok none, []⟩)
  | .call c =>
    match s.place with
    | none =>
      let o := s.call H default c
      (w.withSession e.who o.session, ⟨o.answer.map some, o.events⟩)
    | some key =>
      let o := s.call H (w.storeWith key e.faults) c
      ((w.withSession e.who o.session).withStore key o.store, ⟨o.answer.map some, o.events⟩)
  | .close fs attached =>
    let o := s.close fs attached
    (w.withSession e.who o.session, ⟨o.answer.map fun _ => none, []⟩)

theorem carryOut_call {w : Scene} {who : Nat} {key : StoreKey} {c : SessionCall}
    {o : Outcome SessionAnswer} {faults : FaultPlan} (placed : (w.sessions who).place = some key)
    (asked : (w.sessions who).call H (w.storeWith key faults) c = o) :
    w.carryOut H ⟨who, faults, .call c⟩ =
      ((w.withSession who o.session).withStore key o.store, ⟨o.answer.map some, o.events⟩) := by
  unfold Scene.carryOut
  dsimp only
  rw [placed]
  dsimp only
  rw [asked]

/-- Carry out one errand after the other. -/
def carryOutAll (H : HashFunction) (w : Scene) : List Errand → Scene × List Reply
  | [] => (w, [])
  | e :: rest =>
    let (w, reply) := w.carryOut H e
    let (w, replies) := w.carryOutAll H rest
    (w, reply :: replies)

/-- The errands are carried out with these replies, and any number of changes are tried in between
that fail. -/
inductive Troubled (H : HashFunction) : Scene → List Errand → List Reply → Scene → Prop
  | done (w : Scene) : Troubled H w [] [] w
  | errand {w after : Scene} {rest : List Errand} {replies : List Reply} (e : Errand)
      (next : Troubled H (w.carryOut H e).1 rest replies after) :
      Troubled H w (e :: rest) ((w.carryOut H e).2 :: replies) after
  | setback {w after : Scene} {rest : List Errand} {replies : List Reply} {who : Nat}
      {faults : FaultPlan} {c : SessionCall} {failure : SessionError} (change : c.IsChange)
      (failed : (w.carryOut H ⟨who, faults, .call c⟩).2.answer = .error failure)
      (next : Troubled H (w.carryOut H ⟨who, faults, .call c⟩).1 rest replies after) :
      Troubled H w rest replies after

/-- The sessions and the stores are twins; which operations fail is said with each errand. -/
structure Twin (w w' : Scene) : Prop where
  sessions : ∀ i, (w.sessions i).Twin (w'.sessions i)
  stores : ∀ key, (w.stores key).engine.Twin (w'.stores key).engine

namespace Twin

variable {w w' : Scene}

theorem refl (w : Scene) : w.Twin w := ⟨fun _ => .refl _, fun _ => .refl _⟩

theorem trans {w'' : Scene} (twin : w.Twin w') (next : w'.Twin w'') : w.Twin w'' :=
  ⟨fun i => (twin.sessions i).trans (next.sessions i),
    fun key => (twin.stores key).trans (next.stores key)⟩

theorem storeWith (twin : w.Twin w') (key : StoreKey) (faults : FaultPlan) :
    (w.storeWith key faults).Twin (w'.storeWith key faults) := ⟨rfl, twin.stores key⟩

theorem withSession (twin : w.Twin w') {s s' : Session} (who : Nat) (session : s.Twin s') :
    (w.withSession who s).Twin (w'.withSession who s') where
  sessions i := by
    unfold Scene.withSession
    by_cases same : i = who
    · subst same
      simpa using session
    · simpa [Function.update_of_ne same] using twin.sessions i
  stores := twin.stores

theorem withStore (twin : w.Twin w') {store store' : Store} (key : StoreKey)
    (after : store.Twin store') : (w.withStore key store).Twin (w'.withStore key store') where
  sessions := twin.sessions
  stores k := by
    unfold Scene.withStore
    by_cases same : k = key
    · subst same
      simpa using after.engine
    · simpa [Function.update_of_ne same] using twin.stores k

/-- An errand on twins has the same reply and leaves twins, unless it fails to make a store
ready. -/
theorem carryOut (twin : w.Twin w') (e : Errand) (ready : (w.carryOut H e).2.IsReady)
    (ready' : (w'.carryOut H e).2.IsReady) :
    (w.carryOut H e).2 = (w'.carryOut H e).2 ∧ (w.carryOut H e).1.Twin (w'.carryOut H e).1 := by
  obtain ⟨who, faults, action⟩ := e
  have session := twin.sessions who
  cases action with
  | attach key mode =>
    obtain ⟨answer, events, after, store⟩ :=
      session.attach (twin.storeWith key faults) key mode
    refine ⟨?_, (twin.withSession who after).withStore key store⟩
    show Reply.mk _ _ = Reply.mk _ _
    rw [answer, events]
  | openAt fs key opening =>
    obtain ⟨answer, files, after⟩ := session.openAt fs key opening
    have sessions := twin.withSession who after
    unfold Scene.carryOut
    dsimp only
    rw [← answer, ← files]
    cases ((w.sessions who).openAt fs key opening).answer with
    | error refusal => exact ⟨rfl, sessions⟩
    | ok attached => exact ⟨rfl, sessions.withStore key (.refl _)⟩
  | call c =>
    have place : (w'.sessions who).place = (w.sessions who).place := by
      unfold Session.place
      obtain ⟨closed, closed'⟩ | ⟨o, o', there, there', opened⟩ := session.opened_cases
      · rw [closed, closed']
      · rw [there, there', Option.map_some, Option.map_some, opened.store]
    unfold Scene.carryOut at ready ready' ⊢
    dsimp only at ready ready' ⊢
    rw [place] at ready' ⊢
    cases placed : (w.sessions who).place with
    | none =>
      rw [placed] at ready ready'
      obtain ⟨answer, events, after, -⟩ := session.call (.refl default) c
        (fun e h => ready e (by rw [h]; rfl)) fun e h => ready' e (by rw [h]; rfl)
      dsimp only
      rw [answer, events]
      exact ⟨rfl, twin.withSession who after⟩
    | some key =>
      rw [placed] at ready ready'
      obtain ⟨answer, events, after, store⟩ := session.call (twin.storeWith key faults) c
        (fun e h => ready e (by dsimp only; rw [h]; rfl))
        fun e h => ready' e (by dsimp only; rw [h]; rfl)
      dsimp only
      rw [answer, events]
      exact ⟨rfl, (twin.withSession who after).withStore key store⟩
  | close fs attached =>
    unfold Scene.carryOut
    dsimp only
    rw [session.close_eq]
    exact ⟨rfl, twin.withSession who (.refl _)⟩

/-- A change that fails leaves a twin of what was before. -/
theorem of_setback {who : Nat} {faults : FaultPlan} {c : SessionCall} {failure : SessionError}
    (change : c.IsChange)
    (failed : (w.carryOut H ⟨who, faults, .call c⟩).2.answer = .error failure) :
    (w.carryOut H ⟨who, faults, .call c⟩).1.Twin w := by
  have sameSession : ∀ s : Session, s.Twin (w.sessions who) → (w.withSession who s).Twin w := by
    intro s session
    have after := (refl w).withSession who session
    unfold Scene.withSession at after
    rwa [Function.update_eq_self] at after
  unfold Scene.carryOut at failed ⊢
  dsimp only at failed ⊢
  cases placed : (w.sessions who).place with
  | none =>
    rw [placed] at failed
    exact sameSession _ (Session.leavesTwins_of_error change
      (Except.map_eq_error_iff.1 failed)).session
  | some key =>
    rw [placed] at failed
    obtain ⟨session, store, -⟩ := Session.leavesTwins_of_error change
      (Except.map_eq_error_iff.1 failed)
    refine ((sameSession _ session).withStore key store).trans ⟨fun i => .refl _, fun k => ?_⟩
    unfold Scene.withStore
    by_cases same : k = key
    · subst same
      simpa [Scene.storeWith] using Engine.Twin.refl (w.stores k).engine
    · simpa [Function.update_of_ne same] using Engine.Twin.refl (w.stores k).engine

end Twin

/-- **Errands are answered as if no change had failed in between**, unless it fails to make a store
ready. -/
theorem Troubled.replies_eq {w w' after : Scene} {errands : List Errand} {replies : List Reply}
    (run : Troubled H w errands replies after) (twin : w.Twin w')
    (ready : ∀ r ∈ replies, r.IsReady) (ready' : ∀ r ∈ (w'.carryOutAll H errands).2, r.IsReady) :
    (w'.carryOutAll H errands).2 = replies ∧ after.Twin (w'.carryOutAll H errands).1 := by
  induction run generalizing w' with
  | done w => exact ⟨rfl, twin⟩
  | errand e next ih =>
    obtain ⟨same, after⟩ := twin.carryOut e (ready _ List.mem_cons_self)
      (ready' _ List.mem_cons_self)
    obtain ⟨rest, last⟩ := ih after (fun r hr => ready r (List.mem_cons_of_mem _ hr))
      fun r hr => ready' r (List.mem_cons_of_mem _ hr)
    refine ⟨?_, last⟩
    rw [same, ← rest]
    rfl
  | setback change failed _ ih =>
    exact ih ((Twin.of_setback change failed).trans twin) ready ready'

end Scene

/-- **Failed changes leave no trace.** A call that creates or writes and fails leaves the registry,
the rows, the cursor and the streams that its session remembers as they were, and tells the ledger
nothing. So in every run in which such calls fail, all else is answered as in the run without them,
and the registries and rows come to be the same, as long as no store fails to be made ready. -/
theorem failures_leave_no_trace (H : HashFunction) :
    (∀ (s : Session) (store : Store) (c : SessionCall) (e : SessionError), c.IsChange →
      (s.call H store c).answer = .error e → (s.call H store c).Traceless s store) ∧
    ∀ (w after : Scene) (errands : List Errand) (replies : List Reply),
      w.Troubled H errands replies after →
      (∀ r ∈ replies, r.IsReady) → (∀ r ∈ (w.carryOutAll H errands).2, r.IsReady) →
      (w.carryOutAll H errands).2 = replies ∧
        (∀ i, ((w.carryOutAll H errands).1.sessions i).registry = (after.sessions i).registry) ∧
        ∀ key, ((w.carryOutAll H errands).1.stores key).tables = (after.stores key).tables := by
  refine ⟨fun s store c e change failed =>
    (Session.leavesTwins_of_error change failed).traceless, ?_⟩
  intro w after errands replies run ready ready'
  obtain ⟨same, twin⟩ := run.replies_eq (.refl w) ready ready'
  refine ⟨same, fun i => (twin.sessions i).registry.symm, fun key => ?_⟩
  exact (Store.tables_of_twin (twin.stores key)).symm

/-- A session created a stream. The first record is refused by the store, which has no room, and
written when it is tried again. -/
theorem failures_leave_no_trace_of_full_store :
    let H : HashFunction := fun _ => default
    let m : Message := ⟨"trades", 5, [1]⟩
    let s : Session := ⟨⟨Nonce.fill 0, [("trades", .start ⟨1⟩ default)], .immutableChain⟩, {},
      some { store := 0, mode := .readWrite }⟩
    let trades : StreamAnchor := ⟨⟨1⟩, ⟨"trades", "Trade", "json"⟩, Nonce.fill 1, default⟩
    let store : Store := { engine := .memory ⟨[trades], [], true, 1⟩ }
    let w : Scene := ⟨fun _ => s, fun _ => store⟩
    let full : FaultPlan := fun method =>
      if method = .insertRecord then some (.database .full) else none
    let write (faults : FaultPlan) : Errand := ⟨0, faults, .call (.write m)⟩
    let reply : Reply :=
      ⟨.ok (some (.written default)), [.checkpoint ⟨default, Nonce.fill 0, m⟩]⟩
    (w.carryOut H (write full)).2.answer = .error (.backend (.write "trades") (.database .full)) ∧
      ∃ after, w.Troubled H [write .none] [reply] after ∧
        ((w.carryOutAll H [write .none]).1.sessions 0).registry = (after.sessions 0).registry := by
  intro H m s trades store w full write reply
  have linked : recordDigest H default (m.link ⟨1⟩) = .ok default :=
    recordDigest_const default (by decide)
  let ready : OpenState := { store := 0, mode := .readWrite, prepared := true }
  let fullStore : Store := { store with faults := full }
  have registered : s.registry.lookup m.stream = some (.start ⟨1⟩ default) := rfl
  have writable : s.writable = .ok { store := 0, mode := .readWrite } := rfl
  -- the store refuses the record once it was made ready
  have refused : s.call H fullStore (.write m) = ⟨{ s with opened := some ready }, fullStore, [],
      .error (.backend (.write "trades") (.database .full))⟩ := by
    have prepared : OpenState.prepare { store := 0, mode := .readWrite } fullStore =
      (fullStore, .ok ready) := rfl
    have insert : fullStore.insertRecord ⟨1⟩ m.timestamp m.payload default =
      (fullStore, .error (.database .full)) := rfl
    exact Session.write_of_refused writable registered prepared linked insert
  -- and takes it when it works
  have next : (if (0 : Int64) < Int64.maxValue then .ok (0 + 1) else .error (.database .full) :
    Except StoreError Int64) = .ok 1 := rfl
  have insert : store.insertRecord ⟨1⟩ m.timestamp m.payload default = (_, .ok ()) :=
    Store.insertRecord_of_memory rfl rfl (MemoryStore.insertRecord_of_next rfl (by decide) next)
  have prepared : OpenState.prepare { store := 0, mode := .readWrite } store =
    (store, .ok ready) := rfl
  have prepared' : ready.prepare store = (store, .ok ready) := rfl
  have first : s.call H store (.write m) = _ :=
    Session.write_of_inserted writable registered prepared linked insert
  have again : ({ s with opened := some ready } : Session).call H store (.write m) = _ :=
    Session.write_of_inserted rfl registered prepared' linked insert
  let w' : Scene := (w.withSession 0 { s with opened := some ready }).withStore 0 fullStore
  have failed : w.carryOut H (write full) =
      (w', ⟨.error (.backend (.write "trades") (.database .full)), []⟩) := by
    have placed : (w.sessions 0).place = some 0 := rfl
    exact Scene.carryOut_call placed refused
  have written : (w.carryOut H (write .none)).2 = reply := by
    have placed : (w.sessions 0).place = some 0 := rfl
    exact congrArg Prod.snd (Scene.carryOut_call placed first)
  have rewritten : (w'.carryOut H (write .none)).2 = reply := by
    have placed : (w'.sessions 0).place = some 0 := rfl
    have asked : (w'.sessions 0).call H (w'.storeWith 0 .none) (.write m) = _ := again
    exact congrArg Prod.snd (Scene.carryOut_call placed asked)
  have last : w'.Troubled H [write .none] [reply] (w'.carryOut H (write .none)).1 := by
    rw [← rewritten]
    exact .errand (write .none) (.done _)
  have run : w.Troubled H [write .none] [reply] (w'.carryOut H (write .none)).1 := by
    refine .setback (c := .write m) trivial (congrArg (fun p => p.2.answer) failed) ?_
    show (w.carryOut H (write full)).1.Troubled H _ _ _
    rw [failed]
    exact last
  have ready : reply.IsReady := nofun
  refine ⟨congrArg (fun p => p.2.answer) failed, _, run, ?_⟩
  refine ((failures_leave_no_trace H).2 w _ _ _ run (by simpa using ready) ?_).2.1 0
  intro r mem
  obtain rfl : r = (w.carryOut H (write .none)).2 := List.mem_singleton.1 mem
  rw [written]
  exact ready
end SealedLog
