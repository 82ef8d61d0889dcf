import SealedLog.Proofs.Session.Lasting
import SealedLog.Proofs.Session.Life
import SealedLog.Proofs.Workspace

/-!
# A closed session is a new session

A session can be opened again once it is closed, on another store or on the same. Nothing of what it
was before comes with it but the nonce, which goes on, and what it was made with: its policy and its
configuration.

* `Session.built`: a session newly made with a nonce;
* `Session.Tidy`: streams are registered only while the session is open;
* `Session.Renews`: what every step of a session keeps;
* `Life.renews`: all that a session did in its life keeps it;
* `Workspace.Indistinguishable`: the same is answered and done from now on;
* `Session.closed_is_new`: closed sessions against newly made ones.
-/

namespace SealedLog

variable {H : HashFunction}

namespace Session

/-- A session newly made with a nonce, a policy and a configuration. -/
def built (nonce : Nonce) (policy : RemovalPolicy) (config : SessionConfig) : Session :=
  { registry := { nonce := nonce, policy := policy }, config := config }

/-- Streams are registered only while the session is open. -/
def Tidy (s : Session) : Prop := s.opened = none → s.registry.streams = []

theorem tidy_of_opened {s : Session} {o : OpenState} (there : s.opened = some o) : s.Tidy := by
  intro closed
  rw [there] at closed
  cases closed

/-- Nothing but the nonce tells a closed session from others made like it. -/
theorem Tidy.eq_built {s : Session} (tidy : s.Tidy) (closed : s.opened = none) :
    s = built s.registry.nonce s.registry.policy s.config := by
  have streams := tidy closed
  obtain ⟨⟨nonce, _, policy⟩, config, _⟩ := s
  cases closed
  cases streams
  rfl

theorem release_eq_built (s : Session) :
    s.release = built s.registry.nonce s.registry.policy s.config := rfl

/-- What every step of a session keeps. -/
structure Renews (s s' : Session) : Prop where
  policy : s'.registry.policy = s.registry.policy
  config : s'.config = s.config
  tidy : s.Tidy → s'.Tidy

namespace Renews

variable {s s' s'' : Session}

theorem refl (s : Session) : s.Renews s := ⟨rfl, rfl, id⟩

theorem trans (h : s.Renews s') (h' : s'.Renews s'') : s.Renews s'' :=
  ⟨h'.policy.trans h.policy, h'.config.trans h.config, h'.tidy ∘ h.tidy⟩

theorem opened (s : Session) (o : OpenState) : s.Renews { s with opened := some o } :=
  ⟨rfl, rfl, fun _ => tidy_of_opened rfl⟩

end Renews

section

variable (s : Session)

theorem renews_attach (store : Store) (key : StoreKey) (mode : AccessMode) :
    s.Renews (s.attach store key mode).session := by
  obtain ⟨-, ⟨_, -, same⟩ | ⟨-, -, same⟩⟩ := s.attach_cases store key mode <;> rw [same]
  · exact .refl s
  · exact .opened s _

theorem renews_openAt (fs : FileSystem) (key : StoreKey) (o : Opening) :
    s.Renews (s.openAt fs key o).session := by
  obtain ⟨_, -, same⟩ | ⟨-, _, _, -, -, same⟩ := s.openAt_cases fs key o <;> rw [same]
  · exact .refl s
  · exact .opened s _

theorem renews_close (fs : FileSystem) (attached : Attached) :
    s.Renews (s.close fs attached).session := by
  obtain ⟨-, same⟩ | released := s.close_cases fs attached
  · rw [same]
    exact .refl s
  · rw [released]
    exact ⟨rfl, rfl, fun _ _ => rfl⟩

theorem renews_call (store : Store) (c : SessionCall) : s.Renews (s.call H store c).session := by
  cases opened : s.opened with
  | none =>
    rw [call_of_closed opened]
    exact .refl s
  | some o =>
    have lasts : (s.call H store c).Lasts (fun _ => True) s := call_lasts
      ⟨⟨fun _ _ => trivial⟩, fun _ => trivial, fun _ _ _ _ => trivial, fun _ _ _ _ _ => trivial⟩
      c trivial
    refine ⟨?_, lasts.config, fun _ closed => ?_⟩
    · have effect := call_effect H s store c
      generalize s.call H store c = outcome at effect ⊢
      cases effect with
      | still still _ => rw [still.registry]
      | created _ _ _ _ _ registry =>
        rw [registry]
        rfl
      | written _ _ _ _ _ registry =>
        rw [registry]
        rfl
    · -- a call leaves an open session open
      have still := lasts.setting
      rw [setting, setting, opened, closed] at still
      cases still

end

/-- Every step keeps the policy and the configuration, and registers streams only in a session that
is open. -/
theorem Step.renews {w w' : Situation} {deed : Deed} (step : Step H w deed w') :
    w.session.Renews w'.session := by
  cases step with
  | attach key mode => exact w.session.renews_attach _ key mode
  | openAt fs key opening => exact w.session.renews_openAt fs key opening
  | call _ c => exact w.session.renews_call _ c
  | refuse _ store c => exact w.session.renews_call store c
  | close fs attached => exact w.session.renews_close fs attached
  | others => exact .refl w.session

theorem Life.renews {w₀ w : Situation} {deeds : List Deed} (life : Life H w₀ deeds w) :
    w₀.session.Renews w.session := by
  induction life with
  | start => exact .refl _
  | step _ step ih => exact ih.trans step.renews

/-- While a session is open it is opened nowhere else, and nothing changes. -/
theorem attach_of_opened {s : Session} {o : OpenState} (there : s.opened = some o) (store : Store)
    (key : StoreKey) (mode : AccessMode) :
    s.attach store key mode = s.refuse store .alreadyOpen := by
  unfold attach isOpen
  rw [there]
  rfl

theorem openAt_of_opened {s : Session} {o : OpenState} (there : s.opened = some o)
    (fs : FileSystem) (key : StoreKey) (opening : Opening) :
    s.openAt fs key opening = ⟨s, fs, .error .alreadyOpen⟩ := by
  unfold openAt isOpen
  rw [there]
  rfl

theorem close_of_closed {s : Session} (closed : s.opened = none) (fs : FileSystem)
    (attached : Attached) : s.close fs attached = ⟨s, fs, attached, .ok ()⟩ := by
  unfold close
  rw [closed]

end Session

/-! ### Sessions of a workspace -/

namespace Workspace

open Session

variable {w : Workspace}

/-- All sessions are tidy. -/
def Tidy (w : Workspace) : Prop := ∀ named ∈ w.sessions, named.2.session.Tidy

theorem Tidy.put (tidy : w.Tidy) (name : String) {m : Member} (h : m.session.Tidy) :
    ∀ named ∈ w.sessions.put name m, named.2.session.Tidy := by
  intro named mem
  obtain mem | new := List.mem_append.1 mem
  · exact tidy named (List.mem_filter.1 mem).1
  · rw [List.mem_singleton.1 new]
    exact h

theorem Tidy.of_seated {done done' : Workspace × Answer} {sessions : Named Member}
    (h : done = seated done' sessions) (tidy : ∀ named ∈ sessions, named.2.session.Tidy) :
    done.1.Tidy := by
  rw [h]
  exact tidy

theorem Tidy.memberStep (tidy : w.Tidy) (name : String) {m : Member} (h : m.session.Tidy)
    (c : SessionCommand) : (w.memberStep H name m c).1.Tidy := by
  cases c with
  | make nonce policy config audience => exact tidy
  | attach store mode =>
    unfold Workspace.memberStep
    dsimp only
    cases w.storeNames.lookup store with
    | none => exact tidy
    | some key => exact tidy.put name ((renews_attach ..).tidy h)
  | openAt uri mode faults refusal =>
    exact .of_seated (w.openMember_withSessions w.sessions name m _)
      (tidy.put name ((renews_openAt ..).tidy h))
  | call c =>
    exact .of_seated (w.callMember_withSessions w.sessions name m c)
      (tidy.put name ((renews_call ..).tidy h))
  | close =>
    show (w.closeMember name m).1.Tidy
    unfold closeMember
    cases m.session.opened with
    | none => exact tidy
    | some o => exact tidy.put name ((renews_close ..).tidy h)
  | drop => exact fun named mem => tidy named (List.mem_filter.1 mem).1
  | info => exact tidy
  | lookup stream => exact tidy

theorem Tidy.sessionStep (tidy : w.Tidy) (name : String) (c : SessionCommand) :
    (w.sessionStep H name c).1.Tidy := by
  cases c with
  | make nonce policy config audience =>
    unfold Workspace.sessionStep
    dsimp only
    cases w.audience? audience with
    | none => exact tidy
    | some audience' => exact tidy.put name fun _ => rfl
  | _ =>
    unfold Workspace.sessionStep
    cases found : w.sessions.lookup name with
    | none => exact tidy
    | some m => exact tidy.memberStep name (tidy _ (Named.mem_of_lookup found)) _

theorem Tidy.backendStep (tidy : w.Tidy) (c : BackendCommand) : (w.backendStep H c).1.Tidy := by
  cases c with
  | create identifier name config =>
    unfold Workspace.backendStep
    dsimp only
    cases w.backends.find identifier with
    | error e => exact tidy
    | ok source => cases source <;> exact tidy.put name fun _ => rfl
  | _ => exact tidy

theorem Tidy.closeStores (tidy : w.Tidy) : w.closeStores.Tidy := by
  have each :
      ∀ (keys : List StoreKey) {w : Workspace}, w.Tidy → (keys.foldl closeStore w).Tidy := by
    intro keys
    induction keys with
    | nil => exact fun h => h
    | cons key keys ih =>
      intro w h
      refine ih ?_
      unfold closeStore
      dsimp only
      split_ifs <;> exact h
  exact each _ tidy

/-- Whatever is commanded, streams are registered only in sessions that are open. -/
theorem Tidy.step (tidy : w.Tidy) (c : Command) : (w.step H c).1.Tidy := by
  refine Tidy.closeStores (w := (w.perform H c).1) ?_
  cases c with
  | file path command => exact .of_seated (w.fileStep_withSessions w.sessions path command) tidy
  | editDatabase path edit => exact .of_seated (w.editStep_withSessions w.sessions path edit) tidy
  | store name command => exact .of_seated (w.storeStep_withSessions w.sessions name command) tidy
  | registry name command =>
    exact .of_seated (w.registryStep_withSessions w.sessions name command) tidy
  | session name command => exact tidy.sessionStep name command
  | backend command => exact tidy.backendStep command
  | publisher name command => exact .of_seated (publisherStep_withSessions rfl name command) tidy
  | events => exact tidy

theorem Tidy.run (tidy : w.Tidy) (commands : List Command) : (w.run H commands).1.Tidy := by
  induction commands generalizing w with
  | nil => exact tidy
  | cons c rest ih => exact ih (tidy.step c)

/-- Whatever is commanded from now on is answered alike, and leaves what is the same but for the
order of sessions: the stores and their rows, the files and the events. -/
def Indistinguishable (H : HashFunction) (w w' : Workspace) : Prop :=
  ∀ commands, (w'.run H commands).2 = (w.run H commands).2 ∧
    Reordered (w.run H commands).1 (w'.run H commands).1

theorem tidy_run_empty (base : Path) (commands : List Command) :
    ((empty base).run H commands).1.Tidy :=
  Tidy.run (w := empty base) (fun _ mem => nomatch mem) commands

theorem distinct_run_empty (base : Path) (commands : List Command) :
    ((empty base).run H commands).1.sessions.Distinct :=
  ((Reordered.refl (w := empty base) List.nodup_nil).run commands).1.distinct

/-- A closed session, and one that is made anew in its place. -/
theorem Tidy.indistinguishable (tidy : w.Tidy) (distinct : w.sessions.Distinct) {name : String}
    {m : Member} (there : w.sessions.lookup name = some m) (closed : m.session.opened = none) :
    Indistinguishable H w (w.putMember name { m with
      session := built m.session.registry.nonce m.session.registry.policy m.session.config }) := by
  rw [← (tidy _ (Named.mem_of_lookup there)).eq_built closed]
  have reordered : Reordered w (w.putMember name m) :=
    ⟨Named.perm_put distinct there, distinct, rfl⟩
  exact fun commands => (reordered.run commands).symm

end Workspace

namespace Session

variable {nonce : Nonce} {policy : RemovalPolicy} {config : SessionConfig}

/-- **A closed session is a new session.** Whatever was done with a session since it was made, on
whatever stores and files and with whatever failing: when it is closed, it is the session that is
newly made with its nonce, policy and configuration. Closing makes it that, whether the manifest can
be written or not, and to close it once more changes nothing. While it is open it opens nothing
else, and the wish changes nothing. In a workspace nobody sees whether a closed session is replaced
by a new one: all that is commanded from then on is answered alike, and leaves the same stores,
files and events. -/
theorem closed_is_new {stores : StoreKey → Store} {deeds : List Deed} {w : Situation}
    (life : Life H ⟨built nonce policy config, stores⟩ deeds w) :
    (w.session.opened = none → w.session = built w.session.registry.nonce policy config) ∧
    (∀ fs attached, (w.session.close fs attached).session =
      built w.session.registry.nonce policy config) ∧
    (∀ fs attached fs' attached',
      (w.session.close fs attached).session.close fs' attached' =
        ⟨(w.session.close fs attached).session, fs', attached', .ok ()⟩) ∧
    (w.session.opened ≠ none →
      (∀ store key mode, w.session.attach store key mode = w.session.refuse store .alreadyOpen) ∧
      ∀ fs key opening,
        w.session.openAt fs key opening = ⟨w.session, fs, .error .alreadyOpen⟩) ∧
    ∀ base commands name m,
      let before := ((Workspace.empty base).run H commands).1
      before.sessions.lookup name = some m → m.session.opened = none →
        Workspace.Indistinguishable H before (before.putMember name { m with
          session := built m.session.registry.nonce m.session.registry.policy
            m.session.config }) := by
  have renews : (built nonce policy config).Renews w.session := life.renews
  have tidy : w.session.Tidy := renews.tidy fun _ => rfl
  have new : w.session.opened = none →
      w.session = built w.session.registry.nonce policy config := by
    intro closed
    have same := tidy.eq_built closed
    rwa [renews.policy, renews.config] at same
  have closes : ∀ fs attached, (w.session.close fs attached).session =
      built w.session.registry.nonce policy config := by
    intro fs attached
    obtain ⟨closed, same⟩ | released := w.session.close_cases fs attached
    · rw [same]
      exact new closed
    · rw [released, release_eq_built, renews.policy, renews.config]
      rfl
  refine ⟨new, closes, fun fs attached fs' attached' => ?_, fun there => ?_, ?_⟩
  · refine close_of_closed ?_ fs' attached'
    rw [closes]
    rfl
  · obtain ⟨o, there⟩ := Option.ne_none_iff_exists'.1 there
    exact ⟨attach_of_opened there, openAt_of_opened there⟩
  · intro base commands name m before there closed
    exact (Workspace.tidy_run_empty base commands).indistinguishable
      (Workspace.distinct_run_empty base commands) there closed

/-- A session creates a stream in a store and closes; what is left of it is the nonce, which has
moved on. -/
theorem closed_is_new_of_created :
    let H : HashFunction := fun _ => default
    let trades : StreamDescriptor := ⟨"trades", "Trade", "json"⟩
    let s₀ := built (Nonce.fill 1) .echo {}
    let entered := s₀.attach .inMemory 0 .readWrite
    let created := entered.session.call H entered.store (.create trades)
    let closed := (created.session.close {} default).session
    let commands : List Command := [.session "desk" (.make (Nonce.fill 1) .echo {} .workspace),
      .store "book" (.make .memory), .session "desk" (.attach "book" .readWrite),
      .session "desk" .close]
    let before := ((Workspace.empty ⟨"/work"⟩).run H commands).1
    created.session.registry.count = 1 ∧ created.session.opened ≠ none ∧
      closed = built (Nonce.fill 0) .echo {} ∧
      Workspace.Indistinguishable H before (before.putMember "desk" ⟨s₀, .workspace, none⟩) := by
  intro H trades s₀ entered created closed commands before
  have valid : trades.validate = .ok () := by decide
  have first : created = _ :=
    create_of_inserted rfl rfl (StreamRegistry.anchor_const default valid) rfl
  have place : entered.session.place = some 0 := rfl
  have opening : Life H ⟨s₀, fun _ => .inMemory⟩ [deed (some 0) .inMemory entered]
      ⟨entered.session, Function.update (fun _ => .inMemory) 0 entered.store⟩ :=
    Life.start.step (.attach 0 .readWrite)
  have life : ∃ stores, Life H ⟨s₀, fun _ => .inMemory⟩
      [deed (some 0) .inMemory entered, deed (some 0) entered.store created]
      ⟨created.session, stores⟩ := ⟨_, opening.step (.call place (.create trades))⟩
  obtain ⟨stores, life⟩ := life
  obtain ⟨-, closes, -, -, seen⟩ := closed_is_new life
  have nonce : created.session.registry.nonce = Nonce.fill 0 := by rw [first]; rfl
  refine ⟨?_, ?_, ?_, ?_⟩
  · rw [first]
    rfl
  · rw [first]
    exact nofun
  · rw [← nonce]
    exact closes {} default
  · exact seen ⟨"/work"⟩ commands "desk" ⟨s₀, .workspace, none⟩ rfl rfl

end Session

end SealedLog
