import SealedLog.Workspace.Stores

/-!
# Commands on registries, sessions and backends

* `Workspace.registryStep`, `Workspace.sessionStep`, `Workspace.backendStep`.

A session works on the store that it has open, and its events are passed on in the same step.
-/

namespace SealedLog.Workspace

/-- Carry out a command on a registry that is there. -/
def registryCall (H : HashFunction) (w : Workspace) (name : String) (r : StreamRegistry) :
    RegistryCommand → Workspace × Answer
  | .make _ _ => (w, .failed .unsuitable)
  | .create store descriptor =>
    match w.storeNames.lookup store with
    | none => (w, .failed .unsuitable)
    | some key =>
      let (w, (r, answer)) := w.onStore key fun s =>
        let (r, s, answer) := r.create H s descriptor
        (s, (r, answer))
      ({ w with registries := w.registries.put name r },
        .ofExcept .session .registration answer)
  | .lookup stream => (w, .state (r.lookup stream))
  | .remove descriptor => (w, .removal (r.remove descriptor))
  | .info => (w, .registry r.nonce r.count)

/-- Carry out a command on a registry. -/
def registryStep (H : HashFunction) (w : Workspace) (name : String) :
    RegistryCommand → Workspace × Answer
  | .make nonce policy =>
    ({ w with registries := w.registries.put name { nonce := nonce, policy := policy } }, .done)
  | command =>
    match w.registries.lookup name with
    | none => (w, .failed .unsuitable)
    | some r => w.registryCall H name r command

/-- Keep a session under a name. -/
def putMember (w : Workspace) (name : String) (member : Member) : Workspace :=
  { w with sessions := w.sessions.put name member }

/-- Whom the events of a session to be made go to. -/
def audience? (w : Workspace) : AudienceName → Option Audience
  | .workspace => some .workspace
  | .nobody => some .nobody
  | .publisher name => (w.publisherNames.lookup name).map fun handle => .publisher handle.key

/-- The store that a session has open; a closed session uses none. -/
def sessionStore (w : Workspace) (s : Session) : Store :=
  (s.opened.map fun o => w.storeAt o.store).getD .inMemory

/-- Put back the store that a session has open. -/
def putSessionStore (w : Workspace) (s : Session) (store : Store) : Workspace :=
  match s.opened with
  | none => w
  | some o => w.putStore o.store store

/-- What a session answers, for the workspace. -/
def answerOf (store : Store) (m : Member) : SessionAnswer → Answer
  | .created id => .id id.number
  | .written digest => .digest digest (m.source == some .drawn)
  | .more isMore => .more isMore
  | .message message => .message message
  | .messages messages => .messages messages
  | .removal decision => .removal decision
  | .streams descriptors => .descriptors descriptors
  | .metadata metadata => .metadata metadata (store.reportSize metadata.sizeBytes)

/-- What is told about a session. -/
def infoOf (m : Member) : SessionInfo :=
  match m.source with
  | some _ => .backend storageIdentifier
  | none =>
    .direct m.session.mode m.session.registry.nonce m.session.registry.count
      m.session.config.readBatchSize

/-- Attach a session to a store. -/
def attachMember (w : Workspace) (name : String) (m : Member) (key : StoreKey) (mode : AccessMode) :
    Workspace × Answer :=
  let (w, (session, answer)) := w.onStore key fun store =>
    let outcome := m.session.attach store key mode
    (outcome.store, (outcome.session, outcome.answer))
  (w.putMember name { m with session := session }, .ofExcept .session (fun () => .done) answer)

/-- Open a session on a directory. -/
def openMember (w : Workspace) (name : String) (m : Member) (o : Opening) : Workspace × Answer :=
  let outcome := m.session.openAt w.files w.stores.length o
  let w := { w with files := outcome.files }.putMember name { m with session := outcome.session }
  match outcome.answer with
  | .error e => (w, .failed (.session e))
  | .ok attached => ({ w with stores := w.stores ++ [attached] }, .done)

/-- Ask something of a session. -/
def callMember (H : HashFunction) (w : Workspace) (name : String) (m : Member) (c : SessionCall) :
    Workspace × Answer :=
  let outcome := m.session.call H (w.sessionStore m.session) c
  let w := w.putSessionStore m.session outcome.store
  let w := w.putMember name { m with session := outcome.session }
  (w.tell m.audience outcome.events, .ofExcept .session (answerOf outcome.store m) outcome.answer)

/-- Close a session. -/
def closeMember (w : Workspace) (name : String) (m : Member) : Workspace × Answer :=
  match m.session.opened with
  | none => (w, .done)
  | some o =>
    let outcome := m.session.close w.files (w.attachedAt o.store)
    ({ w with files := outcome.files, stores := w.stores.set o.store outcome.attached }.putMember
        name { m with session := outcome.session },
      .ofExcept .session (fun () => .done) outcome.answer)

/-- Carry out a command on a session that is there. -/
def memberStep (H : HashFunction) (w : Workspace) (name : String) (m : Member) :
    SessionCommand → Workspace × Answer
  | .make _ _ _ _ => (w, .failed .unsuitable)
  | .attach store mode =>
    match w.storeNames.lookup store with
    | none => (w, .failed .unsuitable)
    | some key => w.attachMember name m key mode
  | .openAt uri mode faults refusal =>
    w.openMember name m { uri := w.locate uri, mode := mode, faults := faults, refusal := refusal }
  | .call c => w.callMember H name m c
  | .close => w.closeMember name m
  | .drop => ({ w with sessions := w.sessions.erase name }, .dropped true)
  | .info => (w, .session (infoOf m))
  | .lookup stream => (w, .state (m.session.registry.lookup stream))

/-- Carry out a command on a session. -/
def sessionStep (H : HashFunction) (w : Workspace) (name : String) :
    SessionCommand → Workspace × Answer
  | .make nonce policy config audience =>
    match w.audience? audience with
    | none => (w, .failed .unsuitable)
    | some audience =>
      (w.putMember name
        { session := { registry := { nonce := nonce, policy := policy }, config := config }
          audience := audience },
        .done)
  | command =>
    match w.sessions.lookup name, command with
    | some m, command => w.memberStep H name m command
    | none, .drop => (w, .dropped false)
    | none, _ => (w, .failed .unsuitable)

/-- The first nonce of a session from its source. -/
def firstNonce (H : HashFunction) (w : Workspace) : NonceSource → Workspace × Nonce
  | .fixed nonce => (w, nonce)
  | .drawn => ({ w with drawn := w.drawn + 1 }, (H (Bytes.bigEndian 8 w.drawn)).toNonce)

/-- Carry out a command on the backends. -/
def backendStep (H : HashFunction) (w : Workspace) : BackendCommand → Workspace × Answer
  | .reset backends => ({ w with backends := backends }, .done)
  | .register identifier source =>
    ({ w with backends := w.backends.register identifier source },
      .replaced (w.backends.contains identifier))
  | .contains identifier => (w, .contains (w.backends.contains identifier))
  | .identifiers => (w, .names w.backends.identifiers)
  | .create identifier session config =>
    match w.backends.find identifier with
    | .error e => (w, .failed (.session e))
    | .ok source =>
      let (w, nonce) := w.firstNonce H source
      (w.putMember session
        { session := .ofNonce nonce config, audience := .workspace, source := some source },
        .backend storageIdentifier)

end SealedLog.Workspace
