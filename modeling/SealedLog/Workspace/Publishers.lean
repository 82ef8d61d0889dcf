import SealedLog.Workspace.Command

/-!
# Commands on publishers

* `Workspace.publisherStep`: make a publisher, offer events to it and let its task work;
* `Workspace.isHeld`: whether anyone can still offer events to a publisher.
-/

namespace SealedLog.Workspace

/-- Whether a clone of a publisher is left, under its name or in a session. -/
def isHeld (w : Workspace) (key : PublisherKey) : Bool :=
  (w.publisherNames.any fun p => p.2.key == key && decide (0 < p.2.clones)) ||
    w.sessions.any fun m => m.2.audience == .publisher key

/-- Change how many clones stand under the name of a publisher. -/
def setClones (w : Workspace) (name : String) (handle : PublisherHandle) (clones : Nat) :
    Workspace × Answer :=
  ({ w with publisherNames := w.publisherNames.put name { handle with clones := clones } },
    .clones clones)

/-- Change a publisher and answer its counts. -/
def changePublisher (w : Workspace) (key : PublisherKey) (p : Publisher) : Workspace × Answer :=
  (w.onPublisher key fun _ => p, .counts p.counts)

/-- Change the sink of a publisher. -/
def changeSink (w : Workspace) (key : PublisherKey) (sink : Sink) : Workspace × Answer :=
  (w.onPublisher key fun p => { p with sink := sink }, .done)

/-- Let the tasks of all publishers run, for the sake of one of them, whose counts are answered. -/
def runPublishers (w : Workspace) (key : PublisherKey)
    (change : Publishers → PublisherKey → Publishers) : Workspace × PublisherCounts :=
  let publishers := (change w.publishers key).retire w.isHeld
  ({ w with publishers := publishers }, (publishers.taskAt key).counts)

/-- Carry out a command on a publisher that is there. -/
def publisherCall (w : Workspace) (name : String) (handle : PublisherHandle) (p : Publisher) :
    PublisherCommand → Workspace × Answer
  | .make _ => (w, .failed .unsuitable)
  | .offer event =>
    if handle.clones = 0 then (w, .failed .unsuitable)
    else w.changePublisher handle.key (p.offer event)
  | .submit event =>
    match p.sink.submit event with
    | .error e => (w, .failed (.publish e))
    | .ok sink => w.changeSink handle.key sink
  | .setFailing isFailing => w.changeSink handle.key { p.sink with isFailing := isFailing }
  | .setStalled isStalled => w.changeSink handle.key { p.sink with isStalled := isStalled }
  | .drain => (w.runPublishers handle.key Publishers.drain).map id Answer.counts
  | .counts => (w, .counts p.counts)
  | .clone =>
    if handle.clones = 0 then (w, .failed .unsuitable)
    else w.setClones name handle (handle.clones + 1)
  | .drop => w.setClones name handle (handle.clones - 1)
  | .join =>
    let (w, counts) := w.runPublishers handle.key fun ps key => ps.join key !(w.isHeld key)
    (w, .joined (w.publishers.taskAt handle.key).ended counts)
  | .abort => (w.runPublishers handle.key Publishers.abort).map id Answer.counts
  | .events => (w, .events p.sink.events)

/-- Carry out a command on a publisher. -/
def publisherStep (w : Workspace) (name : String) : PublisherCommand → Workspace × Answer
  | .make config =>
    match Publisher.start true config with
    | .error e => (w, .failed (.publish e))
    | .ok p =>
      ({ w with
          publishers := w.publishers ++ [p]
          publisherNames := w.publisherNames.put name { key := w.publishers.length } },
        .done)
  | command =>
    match w.publisherNames.lookup name with
    | none => (w, .failed .unsuitable)
    | some handle => w.publisherCall name handle (w.publishers.taskAt handle.key) command

end SealedLog.Workspace
