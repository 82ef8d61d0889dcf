import SealedLog.Proofs.Session.Run

/-!
# A session agrees with its store

After every step of a run, what a session says of its streams is what the rows of the store say, and
what an audit of the store reports.

* `Session.Agrees`: registry, nonce, rows and audit say the same;
* `Session.agreement`: they do after every run.
-/

namespace SealedLog

variable {H : HashFunction} {root : Nonce} {rows : Rows}

namespace Session

variable {s s₀ s₁ : Session} {store store₁ : Store} {turns : List Turn}

/-- The registry and the nonce of a session say what the rows of a store say. -/
structure Agrees (H : HashFunction) (root : Nonce) (s : Session) (store : Store) (rows : Rows) :
    Prop where
  /-- The rows are those of the store. -/
  holds : store.Holds rows
  /-- The rows are what the store answers, if it does. -/
  anchors : ∀ as, store.anchors = .ok as → as = rows.anchors
  chains : ∀ id records, store.chain id = .ok records → records = rows.chain id
  /-- The names are the same, and none is there twice. -/
  names : s.registry.streams.map Prod.fst = rows.anchors.map fun a => a.descriptor.name
  distinct : (rows.anchors.map fun a => a.descriptor.name).Nodup
  /-- Each stream has its number, its digest and the last digest of its chain. -/
  states : ∀ a ∈ rows.anchors, ∃ state, s.registry.lookup a.descriptor.name = some state ∧
    state.id = a.id ∧ 1 ≤ state.id.number ∧ state.nonce = a.digest.toNonce ∧
    state.tip = Audit.lastDigest a (rows.chain a.id)
  /-- The nonce is the one behind the last stream. -/
  first : rows.anchors = [] → s.registry.nonce = root
  next : ∀ a, rows.anchors.getLast? = some a →
    nextNonce H a.digest a.descriptor = .ok s.registry.nonce
  /-- An audit finds nothing, and gives the tips of the session. -/
  audit : store.AnswersAudit → ∃ report, store.audit H = .ok report ∧ report.isClean = true ∧
    ∀ name, report.tip name = (s.registry.lookup name).map StreamState.tip

/-- A registry that follows all streams of sound rows has each of them under its name. -/
theorem Keeps.lookup_eq (keeps : Keeps H root s store rows) {a : StreamAnchor}
    (ha : a ∈ rows.anchors) : s.registry.lookup a.descriptor.name = some (rows.entry a).2 := by
  cases h : s.registry.lookup a.descriptor.name with
  | none =>
    have mem : rows.entry a ∈ s.registry.streams := by
      rw [keeps.follows.streams]
      exact List.mem_map_of_mem ha
    exact absurd (List.lookup_eq_none_iff.1 h _ mem) (by simp [Rows.entry])
  | some state =>
    obtain ⟨b, hb, same⟩ := keeps.follows.exists_of_lookup h
    have name : b.descriptor.name = a.descriptor.name := congrArg Prod.fst same
    rw [keeps.sound.eq_of_name hb ha name] at same
    rw [same]

theorem Keeps.tip_eq (keeps : Keeps H root s store rows) (name : String) :
    (AuditReport.ofStreams rows.anchors rows.chain).tip name =
      (s.registry.lookup name).map StreamState.tip := by
  by_cases used : ∃ a ∈ rows.anchors, a.descriptor.name = name
  · obtain ⟨a, ha, rfl⟩ := used
    rw [Store.tip_of_sound keeps.sound ha, keeps.lookup_eq ha]
    rfl
  · have unused : ∀ a ∈ rows.anchors, a.descriptor.name ≠ name :=
      fun a ha same => used ⟨a, ha, same⟩
    rw [AuditReport.tip_ofStreams_eq_none unused]
    cases h : s.registry.lookup name with
    | none => rfl
    | some state =>
      obtain ⟨a, ha, same⟩ := keeps.follows.exists_of_lookup h
      exact absurd (congrArg Prod.fst same) (unused a ha)

theorem Keeps.agrees (keeps : Keeps H root s store rows) : Agrees H root s store rows where
  holds := keeps.holds
  anchors _ h := Store.anchors_of_holds keeps.holds h
  chains _ _ h := Store.chain_of_holds keeps.holds h
  names := by
    rw [keeps.follows.streams, List.map_map]
    rfl
  distinct := keeps.sound.distinct
  states a ha :=
    ⟨(rows.entry a).2, keeps.lookup_eq ha, rfl, keeps.sound.number_pos ha, rfl, rfl⟩
  first none := by
    have threads := keeps.threads
    rw [none] at threads
    exact threads.root_of_nil
  next _ last := keeps.threads.next_of_getLast? last
  audit answers :=
    ⟨_, Store.audit_of_sound keeps.holds keeps.sound keeps.threads answers,
      AuditReport.isClean_ofStreams _ _, keeps.tip_eq⟩

/-- **A session that opened a store without streams agrees with it after every run**, whatever it
was asked and whatever failed. -/
theorem agreement (fresh : s₀.registry.streams = []) (enters : s₀.Enters s₁ store₁)
    (vacant : store₁.tables.streams = []) (referential : store₁.tables.Referential)
    (run : Run H s₁ store₁ turns s store) :
    ∃ rows, Agrees H s₀.registry.nonce s store rows := by
  rw [← enters.registry] at fresh ⊢
  obtain ⟨rows, keeps⟩ :=
    run.keeps (.of_empty fresh (Store.holds_empty vacant referential))
  exact ⟨rows, keeps.agrees⟩

/-- A session on a new store in memory, asked for a stream and then to write to it. -/
theorem agreement_of_write :
    let s₀ := ofNonce (Nonce.fill 1) {}
    let entered := s₀.attach .inMemory 0 .readWrite
    let created := entered.session.call (fun _ => default) entered.store
      (.create ⟨"trades", "Trade", "json"⟩)
    let written := created.session.call (fun _ => default) created.store
      (.write ⟨"trades", 7, [1, 2]⟩)
    entered.answer = .ok () ∧ entered.store.tables.streams = [] ∧
      entered.store.tables.Referential ∧
      ∃ rows, Agrees (fun _ => default) (Nonce.fill 1) written.session written.store rows := by
  intro s₀ entered created written
  have enters : s₀.Enters entered.session entered.store := .attach rfl
  have referential : entered.store.tables.Referential := fun r h => (List.not_mem_nil h).elim
  have run : Run (fun _ => default) entered.session entered.store _ written.session written.store :=
    .turn (.turn .start _) _
  exact ⟨rfl, rfl, referential, agreement rfl enters rfl referential run⟩

end Session

end SealedLog
