import SealedLog.Proofs.Chain.Sound
import SealedLog.Proofs.Session.Call

/-!
# Registries that follow their streams

A registry follows streams of a store when it has, for each of them, the number of its row and the
end of its chain. A session that follows its own streams on sound rows keeps following them, and the
rows stay sound, whatever it is asked and whether or not it succeeds.

* `Rows.entry`, `StreamRegistry.Follows`: what a registry has to say of its streams;
* `Progress`: what a call does to the rows and to the streams that its session follows;
* `Session.call_progress`: every call makes such progress.
-/

namespace SealedLog

variable {H : HashFunction} {rows : Rows} {own : List StreamAnchor} {a : StreamAnchor}
  {r : Record} {n : Int64}

/-- What a registry has to say of a stream. -/
def Rows.entry (rows : Rows) (a : StreamAnchor) : String × StreamState :=
  (a.descriptor.name, ⟨a.id, endDigest a.digest (rows.chain a.id), a.digest.toNonce⟩)

/-- A record of a stream as it was written. -/
def Record.message (r : Record) (a : StreamAnchor) : Message :=
  ⟨a.descriptor.name, r.timestamp, r.payload⟩

/-- What the ledger is told of a record of a stream. -/
def Record.checkpoint (r : Record) (a : StreamAnchor) : Checkpoint :=
  ⟨r.digest, a.digest.toNonce, r.message a⟩

/-- What the ledger is told of a stream. -/
def StreamAnchor.announcement (a : StreamAnchor) : Announcement := ⟨a.digest, a.descriptor⟩

namespace StreamRegistry

variable {R : StreamRegistry} {name : String} {state : StreamState}

/-- The registry has these streams of the rows, each with its number and the end of its chain. -/
structure Follows (R : StreamRegistry) (own : List StreamAnchor) (rows : Rows) : Prop where
  mem : ∀ a ∈ own, a ∈ rows.anchors
  streams : R.streams = own.map rows.entry

namespace Follows

theorem exists_of_lookup (follows : R.Follows own rows) (h : R.lookup name = some state) :
    ∃ a ∈ own, rows.entry a = (name, state) := by
  unfold lookup at h
  obtain ⟨before, after, split, -⟩ := List.lookup_eq_some_iff.1 h
  have mem : (name, state) ∈ R.streams := by
    rw [split]
    exact List.mem_append_right _ List.mem_cons_self
  rw [follows.streams] at mem
  exact List.mem_map.1 mem

/-- A stream of others changes nothing about the own ones. -/
theorem withAnchor (follows : R.Follows own rows) (a : StreamAnchor) :
    R.Follows own (rows.withAnchor a) where
  mem b hb := List.mem_append_left _ (follows.mem b hb)
  streams := follows.streams

/-- A record in a stream of others changes nothing about the own ones. -/
theorem withRecord_of_ne (follows : R.Follows own rows) (other : ∀ a ∈ own, r.stream ≠ a.id) :
    R.Follows own (rows.withRecord n r) where
  mem := follows.mem
  streams := by
    rw [follows.streams]
    refine List.map_congr_left fun a ha => ?_
    rw [Rows.entry, Rows.entry, Rows.chain_withRecord_of_ne (other a ha)]

/-- A stream that was just created is followed from its digest on. -/
theorem register (follows : R.Follows own rows) (none : rows.chain a.id = []) (next : Nonce) :
    (R.register a.descriptor.name a.id a.digest next).Follows (own ++ [a])
      (rows.withAnchor a) where
  mem b hb := by
    rcases List.mem_append.1 hb with old | new
    · exact List.mem_append_left _ (follows.mem b old)
    · exact List.mem_append_right _ new
  streams := by
    have same : (rows.withAnchor a).entry a = (a.descriptor.name, .start a.id a.digest) := by
      rw [Rows.entry, Rows.chain_withAnchor, none]
      rfl
    rw [List.map_append, List.map_singleton, same]
    show R.streams ++ _ = _
    rw [follows.streams]
    rfl

/-- The stream of a record that was just written is followed to its digest. -/
theorem advance (sound : rows.Sound H) (follows : R.Follows own rows) (ha : a ∈ own)
    (owner : r.stream = a.id) :
    (R.advance a.descriptor.name r.digest).Follows own (rows.withRecord n r) where
  mem := follows.mem
  streams := by
    rw [StreamRegistry.advance, follows.streams, List.map_map]
    refine List.map_congr_left fun b hb => ?_
    by_cases same : b = a
    · subst same
      have name : (rows.entry b).1 = b.descriptor.name := rfl
      rw [Function.comp_apply, if_pos name, Rows.entry, Rows.entry,
        Rows.chain_withRecord_of_eq owner, endDigest_concat]
      rfl
    · have name : (rows.entry b).1 ≠ a.descriptor.name := fun h =>
        same (sound.eq_of_name (follows.mem b hb) (follows.mem a ha) h)
      have id : r.stream ≠ b.id := fun h =>
        same (sound.eq_of_id (follows.mem b hb) (follows.mem a ha) (h.symm.trans owner))
      rw [Function.comp_apply, if_neg name, Rows.entry, Rows.entry,
        Rows.chain_withRecord_of_ne id]

end Follows

end StreamRegistry

/-- What a call does to the rows of the store, and to the streams that its session follows: nothing,
or it creates a stream, or it puts a record behind the last one of a stream of its own. -/
inductive Progress (H : HashFunction) (s : Session) (rows : Rows) (own : List StreamAnchor) :
    SessionCall → Outcome SessionAnswer → Rows → List StreamAnchor → Prop
  | still {c : SessionCall} {o : Outcome SessionAnswer}
      (registry : o.session.registry = s.registry) (events : o.events = [])
      (unwritten : ∀ digest, o.answer ≠ .ok (.written digest)) : Progress H s rows own c o rows own
  | created {o : Outcome SessionAnswer} {a : StreamAnchor} (anchored : a.nonce = s.registry.nonce)
      (fresh : ∀ b ∈ rows.anchors, b.descriptor.name ≠ a.descriptor.name)
      (unused : ∀ b ∈ rows.anchors, b.id ≠ a.id)
      (follows : nextNonce H a.digest a.descriptor = .ok o.session.registry.nonce)
      (events : o.events = [.streamCreated a.announcement])
      (answer : o.answer = .ok (.created a.id)) :
      Progress H s rows own (.create a.descriptor) o (rows.withAnchor a) (own ++ [a])
  | written {o : Outcome SessionAnswer} {a : StreamAnchor} {r : Record} {n : Int64}
      (mem : a ∈ own) (owner : r.stream = a.id)
      (nonce : o.session.registry.nonce = s.registry.nonce)
      (events : o.events = [.checkpoint (r.checkpoint a)])
      (answer : o.answer = .ok (.written r.digest)) :
      Progress H s rows own (.write (r.message a)) o (rows.withRecord n r) own

namespace Session

variable {s : Session} {store : Store}

/-- **A session on sound rows keeps them sound and keeps following its streams**, whatever it is
asked and whatever fails. -/
theorem call_progress (holds : store.Holds rows) (sound : rows.Sound H)
    (follows : s.registry.Follows own rows) (c : SessionCall) :
    ∃ rows' own', Progress H s rows own c (s.call H store c) rows' own' ∧
      (s.call H store c).store.Holds rows' ∧ rows'.Sound H ∧
      (s.call H store c).session.registry.Follows own' rows' ∧
      (s.call H store c).session.place = s.place := by
  cases call_effect H s store c with
  | still still unwritten =>
    refine ⟨rows, own, .still still.registry still.events unwritten,
      still.tables.trans holds, sound, ?_, still.place⟩
    rw [still.registry]
    exact follows
  | @created d o id digest next place unregistered anchored fresh isNext registry tables events
      answer =>
    obtain ⟨digestOk, nextOk⟩ := StreamRegistry.anchor_eq_ok_iff.1 anchored
    -- the stream as the store has it from now on
    let a : StreamAnchor := ⟨id, d, s.registry.nonce, digest⟩
    rw [holds] at fresh isNext tables
    have freshName : ∀ b ∈ rows.anchors, b.descriptor.name ≠ a.descriptor.name :=
      fun b hb => fresh b.row (List.mem_map_of_mem hb)
    have unused : ∀ b ∈ rows.anchors, b.id ≠ a.id := fun b hb => sound.id_ne_of_isNext isNext hb
    refine ⟨rows.withAnchor a, own ++ [a], ?_, ?_, ?_, ?_, place⟩
    · refine Progress.created (a := a) rfl freshName unused ?_ events answer
      rw [registry]
      exact nextOk
    · rw [Store.Holds, tables, Rows.tables_withAnchor]
      rfl
    · exact sound.withAnchor freshName isNext digestOk ⟨next, nextOk⟩
    · rw [registry]
      exact follows.register (a := a) (sound.chain_eq_nil unused) next
  | @written m o state digest number place registered linked known isBehind registry tables events
      answer =>
    -- what is registered under the name is a stream that the session follows, with its last digest
    obtain ⟨a, ha, same⟩ := follows.exists_of_lookup registered
    obtain ⟨name, rfl⟩ := Prod.mk.inj same
    obtain ⟨stream, timestamp, payload⟩ := m
    subst name
    let r : Record := ⟨timestamp, a.id, payload, digest⟩
    rw [holds] at tables
    refine ⟨rows.withRecord number r, own, ?_, ?_, ?_, ?_, place⟩
    · refine Progress.written (r := r) ha rfl ?_ events answer
      rw [registry]
      rfl
    · rw [Store.Holds, tables, Rows.tables_withRecord]
      rfl
    · exact sound.withRecord (follows.mem a ha) rfl linked
    · rw [registry]
      exact follows.advance (r := r) sound ha rfl

end Session

end SealedLog
