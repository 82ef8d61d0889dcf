import SealedLog.Ledger.Sink

/-!
# Publishers

A publisher takes events without ever making its callers wait: events queue up to a capacity, and
more are dropped. A background task hands the queued events to a sink, one after the other, and
waits for each answer up to a timeout, counted in milliseconds.

* `Publisher`, `PublisherConfig`, `PublisherCounts`;
* `Publisher.offer`, `receive`, `settle`: an event comes, the task takes one, its fate is known;
* `Publisher.progress`: the task goes on until it has to wait; `Publisher.elapse`: time passes;
* `Publisher.abort`: the task ends at once.
-/

namespace SealedLog

/-- How a publisher works. -/
structure PublisherConfig where
  /-- How many events may queue. -/
  capacity : Nat := 1024
  /-- How long the sink may take for one event. -/
  timeout : Nat := 5000
  deriving DecidableEq

/-- What became of the events so far. Counters of 64 bits go round only after 2^64 events, which no
publisher is offered; so these have no bound. -/
structure PublisherCounts where
  published : Nat := 0
  dropped : Nat := 0
  failed : Nat := 0
  deriving DecidableEq

/-- The counts with one more verdict. -/
def PublisherCounts.add (c : PublisherCounts) : Verdict → PublisherCounts
  | .accepted => { c with published := c.published + 1 }
  | .rejected => { c with failed := c.failed + 1 }
  | .timedOut => { c with failed := c.failed + 1 }

/-- An event whose fate is open, and how long the task still waits. -/
structure Pending where
  event : LedgerEvent
  wait : Nat
  deriving DecidableEq

/-- A publisher with its background task and its sink. -/
structure Publisher where
  config : PublisherConfig := {}
  queue : List LedgerEvent := []
  pending : Option Pending := none
  sink : Sink := {}
  counts : PublisherCounts := {}
  /-- Whether the task has ended. -/
  ended : Bool := false
  deriving DecidableEq

namespace Publisher

/-- Start a publisher, which takes something to run its task. -/
def start (canRun : Bool) (config : PublisherConfig) : Except PublishError Publisher :=
  if canRun then .ok { config := config } else .error .noRuntime

/-- How many events may queue: at least one. -/
def room (p : Publisher) : Nat := max p.config.capacity 1

/-- Take an event into the queue, or drop it. -/
def offer (p : Publisher) (event : LedgerEvent) : Publisher :=
  if p.ended || decide (p.room ≤ p.queue.length) then
    { p with counts := { p.counts with dropped := p.counts.dropped + 1 } }
  else { p with queue := p.queue ++ [event] }

/-- The task takes the next event from the queue. -/
def receive (p : Publisher) : Publisher :=
  match p.pending, p.queue with
  | none, event :: rest => { p with queue := rest, pending := some ⟨event, p.config.timeout⟩ }
  | _, _ => p

/-- The fate of the pending event is known. -/
def settle (p : Publisher) (verdict : Verdict) : Publisher :=
  match p.pending with
  | none => p
  | some _ => { p with pending := none, counts := p.counts.add verdict }

/-- The task takes the next event and hands it to the sink, unless it still waits for one. -/
def handNext (p : Publisher) : Publisher :=
  match p.pending with
  | some _ => p
  | none =>
    let p := p.receive
    match p.pending.bind fun pending => p.sink.answer pending.event with
    | some (verdict, sink) => { p with sink := sink }.settle verdict
    | none => p

/-- A wait that is over ends without an answer. -/
def expire (p : Publisher) : Publisher :=
  match p.pending with
  | some ⟨_, 0⟩ => p.settle .timedOut
  | _ => p

/-- The task hands on at most this many events, as long as it need not wait. -/
def proceed (p : Publisher) : Nat → Publisher
  | 0 => p.expire
  | n + 1 => p.expire.handNext.proceed n

/-- The task goes on until it has to wait. -/
def progress (p : Publisher) : Publisher := p.proceed p.queue.length

/-- Time passes for the pending event. -/
def elapse (p : Publisher) (time : Nat) : Publisher :=
  { p with pending := p.pending.map fun pending => { pending with wait := pending.wait - time } }

/-- How many events the task still has to deal with. -/
def outstanding (p : Publisher) : Nat := p.queue.length + p.pending.toList.length

/-- Whether the task has nothing to deal with. -/
def isIdle (p : Publisher) : Bool := p.outstanding == 0

/-- End the task at once. What is queued or pending is lost. -/
def abort (p : Publisher) : Publisher := { p with queue := [], pending := none, ended := true }

end Publisher

end SealedLog
