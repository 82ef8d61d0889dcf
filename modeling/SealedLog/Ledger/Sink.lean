import SealedLog.Ledger.Event

/-!
# Ledger sinks

Where events arrive in the end. A sink keeps the events that it accepts; it may be made to reject
every event, or to leave every event without an answer.

* `Sink`; `Verdict`: what becomes of an event;
* `Sink.answer`: the answer to an event, if there is one; `Sink.submit`: hand in an event directly;
* `PublishError` and its wording.
-/

namespace SealedLog

/-- What becomes of an event that was handed to a sink. -/
inductive Verdict
  | accepted
  | rejected
  | timedOut
  deriving DecidableEq, Repr

/-- Why an event cannot be handed in. -/
inductive PublishError
  /-- The sink refuses the event. -/
  | sink (reason : String)
  /-- Nothing is there to run a background task. -/
  | noRuntime
  deriving DecidableEq

/-- The wording of a publish error. -/
def PublishError.message : PublishError → String
  | .sink reason => "ledger sink error: " ++ reason
  | .noRuntime => "no tokio runtime available to run the publisher"

/-- A sink in memory. -/
structure Sink where
  /-- The accepted events in the order of their arrival. -/
  events : List LedgerEvent := []
  /-- Whether every event is rejected. -/
  isFailing : Bool := false
  /-- Whether events get no answer. -/
  isStalled : Bool := false
  deriving DecidableEq

namespace Sink

/-- Hand in an event directly. -/
def submit (s : Sink) (event : LedgerEvent) : Except PublishError Sink :=
  if s.isFailing then .error (.sink "memory sink set to fail")
  else .ok { s with events := s.events ++ [event] }

/-- The answer to an event, unless there is none. -/
def answer (s : Sink) (event : LedgerEvent) : Option (Verdict × Sink) :=
  if s.isStalled then none
  else
    match s.submit event with
    | .error _ => some (.rejected, s)
    | .ok s => some (.accepted, s)

end Sink

end SealedLog
