import SealedLog.Metadata
import SealedLog.Session.Error

/-!
# Backends

The kinds of storage that sessions can be made for, by their identifiers.

* `NonceSource`: what the first nonce of a session is;
* `Backends`, `Backends.withDefaults`; `register`, `contains`, `identifiers`, `find`.
-/

namespace SealedLog

/-- What the first nonce of a session is. -/
inductive NonceSource
  /-- A nonce that nobody chose. -/
  | drawn
  | fixed (nonce : Nonce)
  deriving DecidableEq

/-- The registered backends: each identifier with what its sessions start with. -/
structure Backends where
  entries : List (String × NonceSource) := []
  deriving DecidableEq

namespace Backends

/-- The one backend that is always there, whose sessions draw their nonces. -/
def withDefaults : Backends := ⟨[(storageIdentifier, .drawn)]⟩

/-- Whether a backend is registered. -/
def contains (b : Backends) (identifier : String) : Bool := b.entries.any fun e => e.1 == identifier

/-- Register a backend in place of the one of this identifier. -/
def register (b : Backends) (identifier : String) (source : NonceSource) : Backends :=
  ⟨(b.entries.filter fun e => e.1 != identifier) ++ [(identifier, source)]⟩

/-- The identifiers in ascending order. -/
def identifiers (b : Backends) : List String :=
  (b.entries.map Prod.fst).mergeSort fun x y => decide (x ≤ y)

/-- What the sessions of a backend start with. -/
def find (b : Backends) (identifier : String) : Except SessionError NonceSource :=
  match b.entries.lookup identifier with
  | some source => .ok source
  | none => .error (.unknownBackend identifier)

end Backends

end SealedLog
