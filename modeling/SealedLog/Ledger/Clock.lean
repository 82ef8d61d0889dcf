import SealedLog.Ledger.Publisher

/-!
# Publishers on one clock

The background tasks of publishers run together, and only when somebody waits for one of them: then
every task goes on, and time passes for all of them alike.

* `Publishers`: publishers, known by their places;
* `Publishers.drain`: wait until a task has nothing left to deal with;
* `Publishers.join`: wait for an hour at most until a task has ended;
* `Publishers.abort`: end a task at once.

Time passes only as long as no task can go on, and then up to the next end of a wait.
-/

namespace SealedLog

/-- Publishers whose tasks share one clock. -/
abbrev Publishers := List Publisher

namespace Publishers

/-- A publisher by its place. -/
def taskAt (ps : Publishers) (key : Nat) : Publisher := ps.getD key {}

/-- Every task goes on until it has to wait. -/
def progress (ps : Publishers) : Publishers := ps.map Publisher.progress

/-- Time passes for every task. -/
def elapse (ps : Publishers) (time : Nat) : Publishers := ps.map fun p => p.elapse time

/-- The time up to the next end of a wait. -/
def due? (ps : Publishers) : Option Nat :=
  (ps.filterMap fun p => p.pending.map Pending.wait).min?

/-- How many events the tasks still have to deal with. Each wait that ends deals with one. -/
def outstanding (ps : Publishers) : Nat := ps.foldl (fun n p => n + p.outstanding) 0

/-- Let time pass until a task has nothing left to deal with, for at most `n` waits. -/
def drainFor (key : Nat) : Nat → Publishers → Publishers
  | 0, ps => ps
  | n + 1, ps =>
    if (ps.taskAt key).isIdle then ps
    else
      match ps.due? with
      | none => ps
      | some wait => drainFor key n (ps.elapse wait).progress

/-- Wait until a task has nothing left to deal with. -/
def drain (ps : Publishers) (key : Nat) : Publishers :=
  drainFor key ps.progress.outstanding ps.progress

/-- Let time pass until a task has nothing left to deal with and may end, for at most `n` waits and
less than the time that is left. -/
def joinFor (key : Nat) (mayEnd : Bool) : Nat → Nat → Publishers → Publishers
  | 0, _, ps => ps
  | n + 1, left, ps =>
    if mayEnd && (ps.taskAt key).isIdle then ps
    else
      match ps.due? with
      | none => ps
      | some wait =>
        if wait < left then joinFor key mayEnd n (left - wait) (ps.elapse wait).progress
        else ps.elapse left

/-- The time that joining waits: an hour. -/
def joinTime : Nat := 3600000

/-- Wait for a task to end, unless it has ended. It may end once nobody can offer it any more. -/
def join (ps : Publishers) (key : Nat) (mayEnd : Bool) : Publishers :=
  if (ps.taskAt key).ended then ps
  else joinFor key mayEnd ps.progress.outstanding joinTime ps.progress

/-- End a task at once, unless it has ended. The others go on. -/
def abort (ps : Publishers) (key : Nat) : Publishers :=
  if (ps.taskAt key).ended then ps else progress (ps.modify key Publisher.abort)

/-- The tasks that have nothing to deal with, and to which nobody can offer any more, end. -/
def retire (isHeld : Nat → Bool) (ps : Publishers) : Publishers :=
  ps.mapIdx fun key p => if p.isIdle && !isHeld key then { p with ended := true } else p

end Publishers

end SealedLog
