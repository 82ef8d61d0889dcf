import SealedLog.Proofs.Session.Run
import SealedLog.Proofs.Session.Reading

/-!
# What a run leaves in its store

The rows of a store into which one session writes are what the session was asked and answered for:
a stream for each name that was created, and a record for each successful write, in that order.

* `Session.created`, `Session.written`: what was created and written in some turns;
* `Session.Accounts`, `Run.accounted`: the tables hold just that, after every run.
-/

namespace SealedLog

variable {H : HashFunction} {root : Nonce} {rows : Rows}

namespace Turn

/-- The descriptor of a call to create that succeeded. -/
def descriptor? (turn : Turn) : Option StreamDescriptor :=
  match turn.call, turn.outcome.answer with
  | .create d, .ok (.created _) => some d
  | _, _ => none

/-- The record of a call to write that succeeded. -/
def message? (turn : Turn) : Option Message :=
  match turn.call, turn.outcome.answer with
  | .write m, .ok (.written _) => some m
  | _, _ => none

end Turn

namespace Session

variable {s s₀ : Session} {store store₀ : Store} {turns : List Turn} {t : Tables}

/-- A descriptor behind others, unless one of its name is among them. -/
def withCreated (created : List StreamDescriptor) (d : StreamDescriptor) : List StreamDescriptor :=
  if created.any fun d' => d'.name == d.name then created else created ++ [d]

/-- The streams that were created: of each name the first. -/
def created (turns : List Turn) : List StreamDescriptor :=
  (turns.filterMap Turn.descriptor?).foldl withCreated []

/-- The records that were written. -/
def written (turns : List Turn) : List Message := turns.filterMap Turn.message?

/-- The tables hold what was created and written. -/
structure Accounts (t : Tables) (turns : List Turn) : Prop where
  ordered : t.Ordered
  streams : t.streamList = created turns
  messages : t.messages.map StoredMessage.message = written turns

theorem created_concat (turns : List Turn) (turn : Turn) :
    created (turns ++ [turn]) =
      turn.descriptor?.elim (created turns) (withCreated (created turns)) := by
  rw [created, List.filterMap_append, List.foldl_append]
  cases h : turn.descriptor? <;> simp [h, created]

theorem written_concat (turns : List Turn) (turn : Turn) :
    written (turns ++ [turn]) = written turns ++ turn.message?.toList := by
  cases h : turn.message? <;> simp [h, written]

theorem message?_eq_none {c : SessionCall} {o : Outcome SessionAnswer}
    (unwritten : ∀ digest, o.answer ≠ .ok (.written digest)) :
    Turn.message? ⟨c, store, o⟩ = none := by
  unfold Turn.message?
  split
  · rename_i answered
    exact absurd answered (unwritten _)
  · rfl

/-- A call to create a stream that leaves the registry as it is succeeds only if its name is
registered. -/
theorem registered_of_create {d : StreamDescriptor} {id : StreamId}
    (answer : (s.create H store d).answer = .ok id)
    (same : (s.create H store d).session.registry = s.registry) :
    ∃ state, s.registry.lookup d.name = some state := by
  unfold create at answer same
  cases writable : s.writable with
  | error e =>
    rw [writable] at answer
    cases answer
  | ok o =>
    rw [writable] at answer same
    dsimp only at answer same
    unfold StreamRegistry.create at answer same
    cases registered : s.registry.lookup d.name with
    | some state => exact ⟨state, rfl⟩
    | none =>
      rw [registered] at answer same
      dsimp only at answer same
      rcases made : s.registry.anchor H d with e | ⟨digest, next⟩ <;> rw [made] at answer same
      · cases answer
      · dsimp only at answer same
        rcases inserted : store.insertStream d s.registry.nonce digest with ⟨store', e | id⟩ <;>
          rw [inserted] at answer same
        · cases answer
        · -- a stream that is new to the store is new to the registry
          have longer := congrArg (fun r : StreamRegistry => r.streams.length) same
          simp [StreamRegistry.register] at longer

namespace Accounts

variable {turn : Turn}

theorem empty : Accounts {} [] := ⟨.empty, rfl, rfl⟩

theorem mem_created (accounts : Accounts t turns) {row : StreamRow} (mem : row ∈ t.streams) :
    row.descriptor ∈ created turns := by
  rw [← accounts.streams]
  exact List.mem_map_of_mem mem

/-- The order of reading is that of writing, stably sorted by time. -/
theorem reading_eq (accounts : Accounts t turns) : t.reading.map StoredMessage.message =
    (written turns).mergeSort fun a b => decide (a.timestamp ≤ b.timestamp) := by
  rw [accounts.ordered.reading_eq_stable, ← accounts.messages]
  exact List.map_mergeSort fun _ _ _ _ => rfl

theorem still (accounts : Accounts t turns)
    (known : ∀ d ∈ turn.descriptor?, ∃ row ∈ t.streams, row.descriptor.name = d.name)
    (unwritten : turn.message? = none) : Accounts t (turns ++ [turn]) where
  ordered := accounts.ordered
  streams := by
    rw [created_concat, accounts.streams]
    cases h : turn.descriptor? with
    | none => rfl
    | some d =>
      obtain ⟨row, mem, name⟩ := known d h
      have there : ((created turns).any fun d' => d'.name == d.name) = true :=
        List.any_eq_true.2 ⟨_, accounts.mem_created mem, beq_iff_eq.2 name⟩
      exact (if_pos there).symm
  messages := by
    rw [written_concat, unwritten, accounts.messages, Option.toList_none, List.append_nil]

theorem withStream (accounts : Accounts t turns) {row : StreamRow} (next : t.IsNext row.id)
    (fresh : ∀ row' ∈ t.streams, row'.descriptor.name ≠ row.descriptor.name)
    (descriptor : turn.descriptor? = some row.descriptor) (unwritten : turn.message? = none) :
    Accounts (t.withStream row) (turns ++ [turn]) where
  ordered := accounts.ordered.withStream next
  streams := by
    have new : ¬ ((created turns).any fun d' => d'.name == row.descriptor.name) = true := by
      rw [← accounts.streams, List.any_eq_true]
      rintro ⟨d, mem, name⟩
      obtain ⟨row', mem', rfl⟩ := List.mem_map.1 mem
      exact fresh row' mem' (beq_iff_eq.1 name)
    rw [created_concat, descriptor, Option.elim_some, withCreated, if_neg new, ← accounts.streams,
      Tables.streamList, Tables.withStream, List.map_append]
    rfl
  messages := by
    rw [accounts.ordered.messages_withStream next, written_concat, unwritten, accounts.messages,
      Option.toList_none, List.append_nil]

theorem withRecord (accounts : Accounts t turns) {row : RecordRow} (behind : t.IsBehind row.id)
    {owner : StreamRow} (mem : owner ∈ t.streams) (owns : owner.id = row.stream)
    (uncreated : turn.descriptor? = none)
    (message : turn.message? = some ⟨owner.descriptor.name, row.timestamp, row.payload⟩) :
    Accounts (t.withRecord row) (turns ++ [turn]) where
  ordered := accounts.ordered.withRecord behind ⟨owner, mem, owns⟩
  streams := by
    rw [created_concat, uncreated, Option.elim_none, ← accounts.streams]
    rfl
  messages := by
    rw [accounts.ordered.messages_withRecord behind mem owns, written_concat, message,
      List.map_append, accounts.messages]
    rfl

/-- Whatever a session is asked, the tables go on to hold what it created and wrote. -/
theorem call (accounts : Accounts store.tables turns) (keeps : Keeps H root s store rows)
    (c : SessionCall) :
    Accounts (s.call H store c).store.tables (turns ++ [⟨c, store, s.call H store c⟩]) := by
  have effect := call_effect H s store c
  have streams : store.tables.streams = rows.anchors.map StreamAnchor.row :=
    congrArg Tables.streams keeps.holds
  generalize made : s.call H store c = o at effect ⊢
  cases effect with
  | still still unwritten =>
    rw [still.tables]
    refine accounts.still (fun d mem => ?_) (message?_eq_none unwritten)
    -- what was created already is registered, and so is in the tables
    obtain ⟨id, rfl, answer⟩ : ∃ id, c = .create d ∧ o.answer = .ok (.created id) := by
      unfold Turn.descriptor? at mem
      split at mem
      · rename_i asked answered
        cases mem
        exact ⟨_, asked, answered⟩
      · cases mem
    subst made
    obtain ⟨id', answer', -⟩ := Except.map_eq_ok_iff.1 answer
    obtain ⟨state, registered⟩ := registered_of_create answer' still.registry
    obtain ⟨a, ha, same⟩ := keeps.follows.exists_of_lookup registered
    refine ⟨a.row, ?_, congrArg Prod.fst same⟩
    rw [streams]
    exact List.mem_map_of_mem ha
  | created _ _ _ fresh isNext _ tables _ answer =>
    rw [tables]
    refine accounts.withStream isNext fresh ?_ ?_ <;> simp [Turn.descriptor?, Turn.message?, answer]
  | written _ registered _ known isBehind _ tables _ answer =>
    obtain ⟨a, ha, same⟩ := keeps.follows.exists_of_lookup registered
    obtain ⟨row, mem, owner⟩ := known
    obtain ⟨name, rfl⟩ := Prod.mk.inj same
    have rowOf : row = a.row := by
      refine accounts.ordered.numbered.eq_of_id mem ?_ owner
      rw [streams]
      exact List.mem_map_of_mem ha
    subst rowOf
    rw [tables]
    refine accounts.withRecord isBehind mem owner ?_ ?_
    · simp [Turn.descriptor?]
    · simp [Turn.message?, answer, StreamAnchor.row, name]

end Accounts

/-- **The tables hold what a session created and wrote**, after every run. -/
theorem Run.accounted (run : Run H s₀ store₀ turns s store) (start : Keeps H root s₀ store₀ {}) :
    Accounts store.tables turns := by
  suffices both : (∃ rows, Keeps H root s store rows) ∧ Accounts store.tables turns from both.2
  induction run with
  | start =>
    have none : store₀.tables = {} := start.holds
    exact ⟨⟨{}, start⟩, none ▸ .empty⟩
  | turn _ c ih =>
    obtain ⟨⟨rows, keeps⟩, accounts⟩ := ih
    obtain ⟨rows', -, keeps'⟩ := keeps.call c
    exact ⟨⟨rows', keeps'⟩, accounts.call keeps c⟩
  | disturb _ kept ih =>
    obtain ⟨⟨rows, keeps⟩, accounts⟩ := ih
    exact ⟨⟨rows, keeps.disturb kept⟩, kept ▸ accounts⟩

end Session

end SealedLog
