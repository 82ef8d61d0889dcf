import SealedLog.Proofs.Audit
import SealedLog.Proofs.Session.Opening
import SealedLog.Proofs.Session.Progress

/-!
# Runs of one session

A session opens a store for writing and is asked one thing after another, while nobody else changes
the rows. Whatever fails, it follows all streams of the store, and its nonce is the one behind the
last stream.

* `Session.Enters`: a session opens a store for writing;
* `Turn`, `Session.Run`: what was asked on the way from one session and store to another;
* `Session.Keeps`, `Session.Run.keeps`: the invariant of runs, and that it holds.
-/

namespace SealedLog

variable {H : HashFunction} {root : Nonce} {rows : Rows}

theorem Store.holds_empty {store : Store} (vacant : store.tables.streams = [])
    (referential : store.tables.Referential) : store.Holds {} := by
  have noRecords : store.tables.records = [] := by
    refine List.eq_nil_iff_forall_not_mem.2 fun r hr => ?_
    obtain ⟨s, hs, -⟩ := referential r hr
    rw [vacant] at hs
    cases hs
  unfold Holds
  rcases h : store.tables with ⟨streams, records⟩
  rw [h] at vacant noRecords
  obtain rfl : streams = [] := vacant
  obtain rfl : records = [] := noRecords
  rfl

/-- One call of a run: the store before it, and what it left and answered. -/
structure Turn where
  call : SessionCall
  before : Store
  outcome : Outcome SessionAnswer

namespace Session

variable {s s₀ : Session} {store store₀ : Store} {turns : List Turn}

/-- The session opens a store for writing: one that is there, or that of a directory. -/
inductive Enters (s : Session) : Session → Store → Prop
  | attach {store : Store} {key : StoreKey}
      (entered : (s.attach store key .readWrite).answer = .ok ()) :
      s.Enters (s.attach store key .readWrite).session (s.attach store key .readWrite).store
  | openAt {fs : FileSystem} {key : StoreKey} {o : Opening} {attached : Attached}
      (writes : o.mode = .readWrite) (entered : (s.openAt fs key o).answer = .ok attached) :
      s.Enters (s.openAt fs key o).session (attached.load (s.openAt fs key o).files)

/-- A run: calls one after another. Between them anything may happen to the store that keeps its
rows, so that any of its operations may fail at any time. -/
inductive Run (H : HashFunction) (s₀ : Session) (store₀ : Store) :
    List Turn → Session → Store → Prop
  | start : Run H s₀ store₀ [] s₀ store₀
  | turn {turns : List Turn} {s : Session} {store : Store} (run : Run H s₀ store₀ turns s store)
      (c : SessionCall) :
      Run H s₀ store₀ (turns ++ [⟨c, store, s.call H store c⟩]) (s.call H store c).session
        (s.call H store c).store
  | disturb {turns : List Turn} {s : Session} {store store' : Store}
      (run : Run H s₀ store₀ turns s store) (kept : store'.tables = store.tables) :
      Run H s₀ store₀ turns s store'

/-- The session follows all streams of the store, whose rows are sound and threaded from `root` to
the nonce of the session. -/
structure Keeps (H : HashFunction) (root : Nonce) (s : Session) (store : Store) (rows : Rows) :
    Prop where
  holds : store.Holds rows
  sound : rows.Sound H
  follows : s.registry.Follows rows.anchors rows
  threads : Threads H root rows.anchors s.registry.nonce

/-! ### Opening -/

theorem Enters.registry {s' : Session} (enters : s.Enters s' store) :
    s'.registry = s.registry := by
  cases enters with
  | attach => exact s.registry_attach ..
  | openAt => exact s.registry_openAt ..

/-- A session without streams on a store without rows has nothing to follow. -/
theorem Keeps.of_empty (fresh : s.registry.streams = []) (empty : store.Holds {}) :
    Keeps H s.registry.nonce s store {} :=
  ⟨empty, .empty H, ⟨fun _ h => (nomatch h), fresh⟩, .none⟩

/-! ### Steps and runs -/

/-- A call keeps the invariant; what it adds to the streams of the store, the session follows. -/
theorem Keeps.call (keeps : Keeps H root s store rows) (c : SessionCall) :
    ∃ rows', Progress H s rows rows.anchors c (s.call H store c) rows' rows'.anchors ∧
      Keeps H root (s.call H store c).session (s.call H store c).store rows' := by
  obtain ⟨rows', own, progress, holds, sound, follows, -⟩ :=
    call_progress keeps.holds keeps.sound keeps.follows c
  -- the nonce and the streams change together
  obtain ⟨rfl, threads⟩ : own = rows'.anchors ∧
      Threads H root rows'.anchors (s.call H store c).session.registry.nonce := by
    cases progress with
    | still registry => exact ⟨rfl, registry ▸ keeps.threads⟩
    | created anchored _ _ next =>
      refine ⟨rfl, .more ?_ next⟩
      rw [anchored]
      exact keeps.threads
    | written _ _ nonce => exact ⟨rfl, nonce ▸ keeps.threads⟩
  exact ⟨rows', progress, holds, sound, follows, threads⟩

theorem Keeps.disturb {store' : Store} (keeps : Keeps H root s store rows)
    (kept : store'.tables = store.tables) : Keeps H root s store' rows :=
  ⟨kept.trans keeps.holds, keeps.sound, keeps.follows, keeps.threads⟩

/-- The invariant is kept along every run. -/
theorem Run.keeps (run : Run H s₀ store₀ turns s store) (start : Keeps H root s₀ store₀ rows) :
    ∃ rows', Keeps H root s store rows' := by
  induction run with
  | start => exact ⟨rows, start⟩
  | turn _ c ih =>
    obtain ⟨_, keeps⟩ := ih
    obtain ⟨rows', -, keeps⟩ := keeps.call c
    exact ⟨rows', keeps⟩
  | disturb _ kept ih =>
    obtain ⟨rows', keeps⟩ := ih
    exact ⟨rows', keeps.disturb kept⟩

end Session

end SealedLog
