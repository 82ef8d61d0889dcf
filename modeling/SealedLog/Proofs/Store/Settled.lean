import SealedLog.Proofs.Store.Steady

/-!
# Looking once is enough

Each statement first looks at what stands beside its file. Once a connection has looked, it has
cleared away the journal and taken up the log, and looking again finds nothing more to do.

* `Connection.clearsJournal`, `clearJournal_eq`: when a journal is cleared away;
* `Connection.joinLog_cases`: what becomes of a log;
* `Connection.Settled`: nothing is left to do, and nothing keeps the connection from its file;
* `Connection.settle_settle`: looking twice is looking once;
* `Companion.isFilled`, `Connection.Beside`: what looking makes of a journal and of a log.
-/

namespace SealedLog

/-- Whether a file that has any octet stands there. -/
def Companion.isFilled : Companion → Bool
  | .file content => content.hasOctets
  | _ => false

theorem Companion.ne_directory_of_isFilled {companion : Companion}
    (filled : companion.isFilled = true) : companion ≠ .directory := by
  rintro rfl
  cases filled

namespace Connection

variable {c : Connection} {d : Database}

/-- Whether a statement clears away the journal. -/
def clearsJournal (c : Connection) : Bool :=
  !c.isLogged && !c.mode.isReadOnly &&
    match c.journal with
    | .file journal =>
      journal.hasOctets && (c.content.isEmpty || journal.isMarked && c.place != .unreachable)
    | _ => false

theorem clearJournal_eq (c : Connection) :
    c.clearJournal = if c.clearsJournal then { c with journal := .nothing } else c := by
  unfold clearJournal clearsJournal
  by_cases stays : (c.isLogged || c.mode.isReadOnly) = true
  · rw [if_pos stays, if_neg]
    rcases Bool.or_eq_true_iff.1 stays with h | h <;> simp [h]
  · rw [if_neg stays]
    obtain ⟨direct, writes⟩ : c.isLogged = false ∧ c.mode.isReadOnly = false := by
      simpa using stays
    rw [direct, writes]
    cases c.journal <;> simp

/-- The log beside a connection, and what the connection knows, decide nothing about its journal. -/
theorem clearJournal_with (c : Connection) (log : Companion) (knows prepared looked : Bool) :
    { c with log := log, knowsTables := knows, isPrepared := prepared, hasLooked := looked
      }.clearJournal = { c.clearJournal with
        log := log, knowsTables := knows, isPrepared := prepared, hasLooked := looked } := by
  rw [clearJournal_eq, clearJournal_eq]
  show (if c.clearsJournal then _ else _) = _
  split_ifs <;> rfl

theorem clearJournal_of_isLogged (logged : c.isLogged = true) : c.clearJournal = c := by
  unfold clearJournal
  rw [if_pos (by simp [logged])]

theorem isBlocked_of_isLogged (logged : c.isLogged = true) : c.isBlocked = false := by
  simp [isBlocked, logged]

/-- The connection has looked at everything beside its file, and nothing keeps it from the file. -/
structure Settled (c : Connection) : Prop where
  cleared : c.clearJournal = c
  isOpen : c.isBlocked = false
  joined : c.IsJoined

theorem Settled.of_isLogged (logged : c.isLogged = true) : c.Settled :=
  ⟨clearJournal_of_isLogged logged, isBlocked_of_isLogged logged, .inl logged⟩

theorem Settled.settle (settled : c.Settled) : c.settle = { c with hasLooked := true } := by
  rw [settle_of_not_isBlocked] <;> rw [settled.cleared]
  · rw [joinLog_of_isJoined settled.joined]
  · exact settled.isOpen

theorem Settled.with (settled : c.Settled) (knows prepared looked : Bool) :
    { c with knowsTables := knows, isPrepared := prepared, hasLooked := looked }.Settled where
  cleared := by
    have kept := c.clearJournal_with c.log knows prepared looked
    rwa [settled.cleared] at kept
  isOpen := settled.isOpen
  joined := settled.joined

/-- A log is taken up, or removed beside an empty file, or there is none. -/
theorem joinLog_cases (c : Connection) : c.joinLog = c ∨
    c.joinLog = { c with log := .nothing } ∧ c.content.isEmpty = true ∨
    ∃ content, c.joinLog = { c with isLogged := true, content := content } := by
  unfold joinLog
  by_cases logged : c.isLogged = true
  · exact .inl (if_pos logged)
  · rw [if_neg logged]
    cases log : c.log with
    | nothing => exact .inl rfl
    | directory => exact .inl rfl
    | file content =>
      dsimp only
      split_ifs with octets empty
      · exact .inl rfl
      · exact .inr (.inl ⟨rfl, empty⟩)
      · exact .inr (.inr ⟨_, rfl⟩)

theorem settled_settle (isOpen : c.clearJournal.isBlocked = false) : c.settle.Settled := by
  have cleared := c.clearJournal_clearJournal
  rw [settle_of_not_isBlocked isOpen]
  have joined := isJoined_joinLog c.clearJournal
  suffices joins : c.clearJournal.joinLog.Settled from joins.with _ _ true
  obtain same | ⟨gone, empty⟩ | ⟨_, taken⟩ := c.clearJournal.joinLog_cases
  · rw [same] at joined ⊢
    exact ⟨cleared, isOpen, joined⟩
  · rw [gone] at joined ⊢
    refine ⟨?_, ?_, joined⟩
    · have kept := c.clearJournal.clearJournal_with .nothing c.clearJournal.knowsTables
        c.clearJournal.isPrepared c.clearJournal.hasLooked
      rwa [cleared] at kept
    · simp [isBlocked, empty]
  · rw [taken]
    exact .of_isLogged rfl

/-- **Looking again finds nothing more to do.** -/
theorem settle_settle (c : Connection) : c.settle.settle = c.settle := by
  cases isBlocked : c.clearJournal.isBlocked with
  | true =>
    rw [settle_of_isBlocked isBlocked, settle_of_isBlocked, clearJournal_clearJournal]
    rwa [clearJournal_clearJournal]
  | false =>
    rw [(settled_settle isBlocked).settle, settle_of_not_isBlocked isBlocked]

theorem joinLog_with (c : Connection) (id : Int64) (knows prepared : Bool) :
    { c with lastId := id, knowsTables := knows, isPrepared := prepared }.joinLog =
      { c.joinLog with lastId := id, knowsTables := knows, isPrepared := prepared } := by
  rcases c with ⟨content, mode, _, place, journal, log, isLogged, _, _, n, looked⟩
  cases isLogged with
  | true => rfl
  | false =>
    cases log with
    | file log => simp only [joinLog, Bool.false_eq_true, if_false]; split_ifs <;> rfl
    | nothing => rfl
    | directory => rfl

/-- Looking goes the same way whatever the connection knows. -/
theorem settle_with (c : Connection) (id : Int64) (knows prepared : Bool) :
    { c with lastId := id, knowsTables := knows, isPrepared := prepared }.settle =
      { c.settle with lastId := id, knowsTables := knows, isPrepared := prepared } := by
  have cleared :
      { c with lastId := id, knowsTables := knows, isPrepared := prepared }.clearJournal =
      { c.clearJournal with lastId := id, knowsTables := knows, isPrepared := prepared } := by
    rw [clearJournal_eq, clearJournal_eq]
    show (if c.clearsJournal then _ else _) = _
    split_ifs <;> rfl
  have isBlocked : { c.clearJournal with
      lastId := id, knowsTables := knows, isPrepared := prepared }.isBlocked =
        c.clearJournal.isBlocked := rfl
  unfold settle
  rw [cleared, joinLog_with, isBlocked]
  split_ifs <;> rfl

theorem settle_keeps (c : Connection) : c.settle.mode = c.mode ∧ c.settle.place = c.place ∧
    c.settle.changes = c.changes := by
  have cleared : c.clearJournal.mode = c.mode ∧ c.clearJournal.place = c.place ∧
      c.clearJournal.changes = c.changes := by
    rcases c.clearJournal_eq_or with e | e <;> rw [e] <;> exact ⟨rfl, rfl, rfl⟩
  have joined : c.clearJournal.joinLog.mode = c.clearJournal.mode ∧
      c.clearJournal.joinLog.place = c.clearJournal.place ∧
      c.clearJournal.joinLog.changes = c.clearJournal.changes := by
    obtain same | ⟨gone, -⟩ | ⟨_, taken⟩ := c.clearJournal.joinLog_cases
    · rw [same]
      exact ⟨rfl, rfl, rfl⟩
    · rw [gone]
      exact ⟨rfl, rfl, rfl⟩
    · rw [taken]
      exact ⟨rfl, rfl, rfl⟩
  unfold settle
  split_ifs
  · exact cleared
  · exact ⟨joined.1.trans cleared.1, joined.2.1.trans cleared.2.1, joined.2.2.trans cleared.2.2⟩

/-- A log is taken up or removed only if it has anything. -/
theorem joinLog_eq_or (c : Connection) : c.joinLog = c ∨ c.isLogged = false ∧
    c.log.isFilled = true ∧ (c.joinLog = { c with log := .nothing } ∨
      ∃ content, c.joinLog = { c with isLogged := true, content := content }) := by
  unfold joinLog
  by_cases logged : c.isLogged = true
  · exact .inl (if_pos logged)
  · rw [if_neg logged]
    cases log : c.log with
    | nothing => exact .inl rfl
    | directory => exact .inl rfl
    | file content =>
      dsimp only
      split_ifs with octets empty
      · exact .inl rfl
      · exact .inr ⟨by simpa using logged, by simpa [Companion.isFilled] using octets, .inl rfl⟩
      · exact .inr ⟨by simpa using logged, by simpa [Companion.isFilled] using octets,
          .inr ⟨_, rfl⟩⟩

/-- What looking makes of what stands beside the file, as the connection takes it: the journal may
be cleared away, and a log that has anything is removed or taken up. -/
structure Beside (c₀ c : Connection) : Prop where
  journal : c.journal = c₀.journal ∨ c₀.clearsJournal = true ∧ c.journal = .nothing
  log : c.log = c₀.log ∧ c.isLogged = c₀.isLogged ∨ c₀.isLogged = false ∧ c₀.log.isFilled = true ∧
    (c.log = .nothing ∧ c.isLogged = false ∨ c.log = c₀.log ∧ c.isLogged = true)

theorem beside_settle (c : Connection) : c.Beside c.settle := by
  obtain ⟨journal, log, isLogged⟩ : (c.clearJournal.journal = c.journal ∨
      c.clearsJournal = true ∧ c.clearJournal.journal = .nothing) ∧
      c.clearJournal.log = c.log ∧ c.clearJournal.isLogged = c.isLogged := by
    rw [clearJournal_eq]
    split_ifs with clears
    · exact ⟨.inr ⟨clears, rfl⟩, rfl, rfl⟩
    · exact ⟨.inl rfl, rfl, rfl⟩
  unfold settle
  split_ifs
  · exact ⟨journal, .inl ⟨log, isLogged⟩⟩
  · obtain same | ⟨direct, filled, ⟨gone⟩ | ⟨_, taken⟩⟩ := c.clearJournal.joinLog_eq_or
    · rw [same]
      exact ⟨journal, .inl ⟨log, isLogged⟩⟩
    · rw [gone]
      exact ⟨journal, .inr ⟨isLogged ▸ direct, log ▸ filled, .inl ⟨rfl, direct⟩⟩⟩
    · rw [taken]
      exact ⟨journal, .inr ⟨isLogged ▸ direct, log ▸ filled, .inr ⟨log, rfl⟩⟩⟩

theorem clearsJournal_eq_true (clears : c.clearsJournal = true) :
    c.mode = .readWrite ∧ c.isLogged = false ∧ c.journal.isFilled = true := by
  unfold clearsJournal at clears
  rw [Bool.and_eq_true, Bool.and_eq_true] at clears
  obtain ⟨⟨direct, writes⟩, filled⟩ := clears
  refine ⟨?_, by simpa using direct, ?_⟩
  · cases mode : c.mode with
    | readOnly => simp [mode, AccessMode.isReadOnly] at writes
    | readWrite => rfl
  · cases journal : c.journal with
    | file content =>
      rw [journal] at filled
      exact (Bool.and_eq_true_iff.1 filled).1
    | nothing | directory => simp [journal] at filled

end Connection

end SealedLog
