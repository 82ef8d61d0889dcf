import SealedLog.Workspace.Files
import SealedLog.Workspace.Publishers
import SealedLog.Workspace.Sessions

/-!
# Runs of commands

* `Workspace.step`: carry out one command; `Workspace.run`: one after the other.

Every digest in a run is taken with one hash function.
-/

namespace SealedLog.Workspace

/-- What carrying out one command changes and answers. -/
def perform (H : HashFunction) (w : Workspace) : Command → Workspace × Answer
  | .file path command => w.fileStep path command
  | .editDatabase path edit => w.editStep path edit
  | .store name command => w.storeStep H name command
  | .registry name command => w.registryStep H name command
  | .session name command => w.sessionStep H name command
  | .backend command => w.backendStep H command
  | .publisher name command => w.publisherStep name command
  | .events => (w, .events w.events)

/-- Carry out one command, and close the stores that it leaves without use. -/
def step (H : HashFunction) (w : Workspace) (command : Command) : Workspace × Answer :=
  let (w, answer) := w.perform H command
  (w.closeStores, answer)

/-- Carry out commands one after the other: the workspace after them and their answers. -/
def run (H : HashFunction) (w : Workspace) : List Command → Workspace × List Answer
  | [] => (w, [])
  | command :: rest =>
    let (w, answer) := w.step H command
    let (w, answers) := w.run H rest
    (w, answer :: answers)

end SealedLog.Workspace
