import SealedLog.Proofs.Session.Directory
import SealedLog.Proofs.Workspace

/-!
# Desks in workspaces

A session of a workspace that has a store open works there as at a desk of its own: what the
commands on the session do to it, to the store and to the tree is what opening, calling and closing
do.

* `Workspace.Seats`: the session under a name is at this desk;
* `perform_openAt`, `perform_call`, `perform_close`: what the commands on it come to;
* `Workspace.Unlogged`: no store works on a log, so that no store is closed behind a command;
* `Desk.FollowsCommands`, `Works.followsCommands`: commands that open a directory, call and close
  come to a run at the desk.
-/

namespace SealedLog

/-- A session stays with its store in every call. -/
theorem Session.place_call (H : HashFunction) (s : Session) (store : Store) (c : SessionCall) :
    (s.call H store c).session.place = s.place := by
  have effect := call_effect H s store c
  generalize s.call H store c = o at effect ⊢
  cases effect with
  | still still => exact still.place
  | created place => exact place
  | written place => exact place

namespace Workspace

variable {H : HashFunction} {w w' : Workspace} {who name : String} {m : Member} {key : StoreKey}
  {d : Desk} {l : Location} {id : FileId} {mode : AccessMode} {content : Content}

/-- The session under this name is at this desk, with the store of this number. -/
structure Seats (w : Workspace) (who : String) (m : Member) (key : StoreKey) (d : Desk) : Prop where
  member : w.sessions.lookup who = some { m with session := d.session }
  place : d.session.place = some key
  files : w.files = d.files
  attached : w.stores[key]? = some d.attached

/-- No store works on a log. -/
def Unlogged (w : Workspace) : Prop := ∀ attached ∈ w.stores, attached.log = none

theorem Unlogged.closeStores (unlogged : w.Unlogged) : w.closeStores = w := by
  have still : ∀ key, w.closeStore key = w := by
    intro key
    have none : (w.attachedAt key).log = none := by
      rw [attachedAt, List.getD_eq_getElem?_getD]
      cases there : w.stores[key]? with
      | none => rfl
      | some attached => exact unlogged _ (List.mem_of_getElem? there)
    unfold closeStore
    dsimp only
    rw [none]
    rfl
  exact List.foldlRecOn (motive := (· = w)) _ _ rfl fun _ same key _ => same ▸ still key

/-- Nothing is closed behind a command that leaves no store on a log. -/
theorem Unlogged.step_eq {command : Command} (unlogged : (w.perform H command).1.Unlogged) :
    w.step H command = w.perform H command := by
  rw [step]
  exact Prod.ext unlogged.closeStores rfl

theorem Unlogged.set (unlogged : w.Unlogged) {attached : Attached} (none : attached.log = none)
    (stores : w'.stores = w.stores.set key attached) : w'.Unlogged := by
  intro a mem
  rw [stores] at mem
  obtain mem | rfl := List.mem_or_eq_of_mem_set mem
  · exact unlogged a mem
  · exact none

namespace Seats

theorem lt (seats : w.Seats who m key d) : key < w.stores.length :=
  (List.getElem?_eq_some_iff.1 seats.attached).1

theorem attachedAt (seats : w.Seats who m key d) : w.attachedAt key = d.attached := by
  rw [Workspace.attachedAt, List.getD_eq_getElem?_getD, seats.attached, Option.getD_some]

end Seats

/-- A command on a session that is there is for that session, unless it makes another one. -/
theorem sessionStep_eq {command : SessionCommand} (member : w.sessions.lookup who = some m)
    (other : ∀ nonce policy config audience, command ≠ .make nonce policy config audience) :
    w.sessionStep H who command = w.memberStep H who m command := by
  unfold sessionStep
  split
  · exact absurd rfl (other _ _ _ _)
  · rw [member]

/-- To pass events on changes nothing but what is kept of events. -/
theorem exists_tell_eq (w : Workspace) (audience : Audience) (told : List LedgerEvent) :
    ∃ events publishers,
      w.tell audience told = { w with events := events, publishers := publishers } := by
  cases audience <;> exact ⟨_, _, rfl⟩

/-- **A session that opens a directory in the workspace gets a desk** with a store of its own. -/
theorem perform_openAt (member : w.sessions.lookup who = some m) {uri : String}
    {faults : FaultPlan} {refusal : Option StoreError}
    (entered : Desk.openAt m.session w.files w.stores.length
      { uri := w.locate uri, mode := mode, faults := faults, refusal := refusal } = .ok d) :
    (w.perform H (.session who (.openAt uri mode faults refusal))).1.Seats who m w.stores.length d ∧
      (w.perform H (.session who (.openAt uri mode faults refusal))).1.stores =
        w.stores ++ [d.attached] ∧
      (w.perform H (.session who (.openAt uri mode faults refusal))).2 = .done := by
  obtain ⟨attached, answer, rfl⟩ := Except.map_eq_ok_iff.1 entered
  obtain ⟨-, o, place, session⟩ := Session.openAt_eq_ok answer
  have done : w.perform H (.session who (.openAt uri mode faults refusal)) =
      w.openMember who m
        { uri := w.locate uri, mode := mode, faults := faults, refusal := refusal } := by
    rw [perform]
    exact sessionStep_eq member fun _ _ _ _ => nofun
  rw [done]
  unfold openMember
  dsimp only
  rw [answer]
  refine ⟨⟨Named.lookup_put .., ?_, rfl, ?_⟩, rfl, rfl⟩
  · rw [session, Session.place, Option.map_some, place]
  · exact List.getElem?_concat_length

/-- **A call in the workspace is a call at the desk.** -/
theorem perform_call (seats : w.Seats who m key d) (c : SessionCall) :
    (w.perform H (.session who (.call c))).1.Seats who m key (d.call H c) ∧
      (w.perform H (.session who (.call c))).1.stores = w.stores.set key (d.call H c).attached ∧
      (w.perform H (.session who (.call c))).2 =
        .ofExcept .session (answerOf (d.session.call H d.store c).store m) (d.answer H c) := by
  obtain ⟨o, opened, rfl⟩ := Option.map_eq_some_iff.1 seats.place
  have store : w.sessionStore d.session = d.store := by
    rw [sessionStore, opened, Option.map_some, Option.getD_some, storeAt, seats.attachedAt,
      seats.files]
    rfl
  have done : w.perform H (.session who (.call c)) =
      w.callMember H who { m with session := d.session } c := by
    rw [perform]
    exact sessionStep_eq seats.member fun _ _ _ _ => nofun
  have put : w.putSessionStore d.session (d.session.call H d.store c).store =
      { w with
        files := (d.call H c).files
        stores := w.stores.set o.store (d.call H c).attached } := by
    rw [putSessionStore, opened]
    show w.putStore _ _ = _
    rw [putStore, seats.attachedAt, seats.files]
    rfl
  rw [done]
  unfold callMember
  dsimp only
  rw [store, put]
  obtain ⟨events, publishers, told⟩ := exists_tell_eq
    (({ w with
      files := (d.call H c).files
      stores := w.stores.set o.store (d.call H c).attached } : Workspace).putMember who
        { m with session := (d.session.call H d.store c).session }) m.audience
    (d.session.call H d.store c).events
  rw [told]
  refine ⟨⟨Named.lookup_put .., ?_, rfl, List.getElem?_set_self seats.lt⟩, rfl, rfl⟩
  exact (Session.place_call ..).trans seats.place

/-- **Calls in the workspace are a run at the desk**, when nobody else does anything. -/
theorem run_calls {d₀ : Desk} {turns : List Turn} (run : Desk.Run H d₀ turns d)
    (works : d₀.Works l name id mode content) (seats : w.Seats who m key d)
    (unlogged : w.Unlogged) (calls : List SessionCall) :
    ∃ more d', Desk.Run H d₀ (turns ++ more) d' ∧ more.map Turn.call = calls ∧
      (w.run H (calls.map fun c => .session who (.call c))).1.Seats who m key d' ∧
      (w.run H (calls.map fun c => .session who (.call c))).1.Unlogged ∧
      (w.run H (calls.map fun c => .session who (.call c))).2 = more.map fun turn =>
        .ofExcept .session (answerOf turn.outcome.store m) turn.outcome.answer := by
  induction calls generalizing w d turns with
  | nil => exact ⟨[], d, by rwa [List.append_nil], rfl, seats, unlogged, rfl⟩
  | cons c calls ih =>
    obtain ⟨seats', stores, answer⟩ := perform_call (H := H) seats c
    have run' := run.turn c
    obtain ⟨_, works', -⟩ := (run'.continues works).works
    have unlogged' := unlogged.set works'.sees.log stores
    obtain ⟨more, d', ran, asked, seats'', unlogged'', answers⟩ := ih run' seats' unlogged'
    have same : w.run H ((c :: calls).map fun c => .session who (.call c)) =
        (((w.perform H (.session who (.call c))).1.run H
            (calls.map fun c => .session who (.call c))).1,
          (w.perform H (.session who (.call c))).2 ::
            ((w.perform H (.session who (.call c))).1.run H
              (calls.map fun c => .session who (.call c))).2) := by
      rw [List.map_cons, Workspace.run, unlogged'.step_eq]
    rw [same]
    refine ⟨⟨c, d.store, d.session.call H d.store c⟩ :: more, d', ?_, ?_, seats'', unlogged'', ?_⟩
    · rwa [List.append_assoc, List.singleton_append] at ran
    · rw [List.map_cons, asked]
    · rw [List.map_cons, ← answers, answer]
      rfl

/-- **Closing in the workspace is closing at the desk.** -/
theorem perform_close (seats : w.Seats who m key d) :
    (w.perform H (.session who .close)).1.files = d.close.files ∧
      (w.perform H (.session who .close)).1.sessions.lookup who =
        some { m with session := d.close.session } ∧
      (w.perform H (.session who .close)).1.stores = w.stores.set key d.close.attached ∧
      (w.perform H (.session who .close)).2 =
        .ofExcept .session (fun () => .done) d.close.answer := by
  obtain ⟨o, opened, rfl⟩ := Option.map_eq_some_iff.1 seats.place
  have done : w.perform H (.session who .close) =
      w.closeMember who { m with session := d.session } := by
    rw [perform]
    exact sessionStep_eq seats.member fun _ _ _ _ => nofun
  rw [done]
  unfold closeMember
  dsimp only
  rw [opened]
  dsimp only
  rw [seats.attachedAt, seats.files]
  exact ⟨rfl, Named.lookup_put .., rfl, rfl⟩

/-- **A session at a desk ends in the workspace as it does there**, closed or just dropped. -/
theorem Seats.ends (seats : w.Seats who m key d) (unlogged : w.Unlogged)
    (works : d.Works l name id mode content) :
    (w.step H (.session who .close)).1.files = d.closedFiles ∧
      (w.step H (.session who .close)).2 =
        .ofExcept .session (fun () => .done) d.close.answer ∧
      (w.step H (.session who .drop)).1.files = d.attached.close d.files false := by
  obtain ⟨files, -, stores, answer⟩ := perform_close (H := H) seats
  have closed := unlogged.set works.log_close stores
  have drops : w.perform H (.session who .drop) =
      ({ w with sessions := w.sessions.erase who }, .dropped true) := by
    rw [perform]
    exact sessionStep_eq seats.member fun _ _ _ _ => nofun
  have dropped : (w.perform H (.session who .drop)).1.Unlogged := by
    rw [drops]
    exact unlogged
  refine ⟨?_, ?_, ?_⟩
  · rw [closed.step_eq, files, Desk.closedFiles, Attached.close_of_no_log works.log_close]
  · rw [closed.step_eq, answer]
  · rw [dropped.step_eq, drops, Attached.close_of_no_log works.sees.log]
    exact seats.files

end Workspace

namespace Desk

open Workspace

variable {d₀ : Desk} {s : Session} {fs : FileSystem} {key : StoreKey} {o : Opening} {l : Location}
  {name : String} {id : FileId} {mode : AccessMode} {content : Content}

/-- What commands come to in every workspace with this tree and this session, whose next store has
this number: the directory is opened, calls are a run at the desk and are answered as they are
there, and the session is closed or dropped as it is there. -/
def FollowsCommands (H : HashFunction) (s : Session) (fs : FileSystem) (key : StoreKey)
    (o : Opening) (d₀ : Desk) : Prop :=
  ∀ (w : Workspace) (who : String) (m : Member) (uri : String) (calls : List SessionCall),
    w.sessions.lookup who = some { m with session := s } → w.files = fs → w.stores.length = key →
    w.Unlogged → w.locate uri = o.uri → ∃ turns d, Run H d₀ turns d ∧ turns.map Turn.call = calls ∧
      let commands := Command.session who (.openAt uri o.mode o.faults o.refusal) ::
        calls.map fun c => .session who (.call c)
      (w.run H commands).1.files = d.files ∧
      (w.run H commands).2 = .done :: turns.map (fun turn =>
        .ofExcept .session (answerOf turn.outcome.store m) turn.outcome.answer) ∧
      ((w.run H commands).1.step H (.session who .close)).1.files = d.closedFiles ∧
      ((w.run H commands).1.step H (.session who .close)).2 =
        .ofExcept .session (fun () => .done) d.close.answer ∧
      ((w.run H commands).1.step H (.session who .drop)).1.files =
        d.attached.close d.files false

/-- **A session that works on a storage follows commands.** -/
theorem Works.followsCommands (works : d₀.Works l name id mode content)
    (entered : openAt s fs key o = .ok d₀) : FollowsCommands H s fs key o d₀ := by
  rintro w who m uri calls member rfl rfl unlogged located
  have entered' : openAt ({ m with session := s } : Member).session w.files w.stores.length
      { uri := w.locate uri, mode := o.mode, faults := o.faults, refusal := o.refusal } =
        .ok d₀ := by
    rw [located]
    exact entered
  obtain ⟨seats, stores, done⟩ := perform_openAt (H := H) member entered'
  have unlogged' : (w.perform H
      (.session who (.openAt uri o.mode o.faults o.refusal))).1.Unlogged := by
    intro a mem
    rw [stores] at mem
    rcases List.mem_append.1 mem with old | new
    · exact unlogged a old
    · rw [List.mem_singleton.1 new]
      exact works.sees.log
  obtain ⟨turns, d, run, asked, seats', unlogged'', answers⟩ :=
    run_calls (.start (H := H)) works seats unlogged' calls
  obtain ⟨_, works', -⟩ := (run.continues works).works
  have opens : w.run H (.session who (.openAt uri o.mode o.faults o.refusal) ::
      calls.map fun c => .session who (.call c)) =
        (((w.perform H (.session who (.openAt uri o.mode o.faults o.refusal))).1.run H
          (calls.map fun c => .session who (.call c))).1, .done :: turns.map fun turn =>
            .ofExcept .session (answerOf turn.outcome.store m) turn.outcome.answer) := by
    rw [Workspace.run, unlogged'.step_eq]
    exact Prod.ext rfl (congrArg₂ List.cons done answers)
  refine ⟨turns, d, run, asked, ?_⟩
  dsimp only
  rw [opens]
  exact ⟨seats'.files, rfl, seats'.ends unlogged'' works'⟩

end Desk

end SealedLog
