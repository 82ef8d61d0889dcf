import SealedLog.Audit
import SealedLog.Backends
import SealedLog.Blake3
import SealedLog.Bytes
import SealedLog.Bytes.Hex
import SealedLog.Cbor.Head
import SealedLog.Cbor.Value
import SealedLog.Chain
import SealedLog.Chain.Vectors
import SealedLog.Digest
import SealedLog.Files.Database
import SealedLog.Files.Error
import SealedLog.Files.Path
import SealedLog.Files.Tree
import SealedLog.Files.Uri
import SealedLog.Json.Decimal
import SealedLog.Json.Document
import SealedLog.Json.Form
import SealedLog.Json.Quoted
import SealedLog.Json.Records
import SealedLog.Json.Token
import SealedLog.Ledger.Clock
import SealedLog.Ledger.Event
import SealedLog.Ledger.Publisher
import SealedLog.Ledger.Sink
import SealedLog.Manifest
import SealedLog.Metadata
import SealedLog.Proofs.Audit
import SealedLog.Proofs.Audit.Answers
import SealedLog.Proofs.Audit.Edits
import SealedLog.Proofs.Audit.Evidence
import SealedLog.Proofs.Audit.Locality
import SealedLog.Proofs.Audit.Spots
import SealedLog.Proofs.Cbor.Entries
import SealedLog.Proofs.Cbor.Fields
import SealedLog.Proofs.Cbor.Head
import SealedLog.Proofs.Cbor.Shortest
import SealedLog.Proofs.Chain.Canonical
import SealedLog.Proofs.Chain.Collision
import SealedLog.Proofs.Chain.Lineage
import SealedLog.Proofs.Chain.Preimage
import SealedLog.Proofs.Chain.Replay
import SealedLog.Proofs.Chain.Sound
import SealedLog.Proofs.Digest
import SealedLog.Proofs.Except
import SealedLog.Proofs.Files.Backing
import SealedLog.Proofs.Files.Grounds
import SealedLog.Proofs.Files.Leftovers
import SealedLog.Proofs.Files.Looking
import SealedLog.Proofs.Files.Order
import SealedLog.Proofs.Files.Rooted
import SealedLog.Proofs.Files.Shape
import SealedLog.Proofs.Files.Storage
import SealedLog.Proofs.Files.Tree
import SealedLog.Proofs.Files.Ways
import SealedLog.Proofs.Json.Document
import SealedLog.Proofs.Json.Form
import SealedLog.Proofs.Json.Lexeme
import SealedLog.Proofs.Json.Records
import SealedLog.Proofs.Ledger.Channel
import SealedLog.Proofs.Manifest
import SealedLog.Proofs.Registry
import SealedLog.Proofs.Session.Agreement
import SealedLog.Proofs.Session.AppendOnly
import SealedLog.Proofs.Session.Call
import SealedLog.Proofs.Session.Desk
import SealedLog.Proofs.Session.Directory
import SealedLog.Proofs.Session.Failure
import SealedLog.Proofs.Session.Fleet
import SealedLog.Proofs.Session.Founding
import SealedLog.Proofs.Session.Independence
import SealedLog.Proofs.Session.Lasting
import SealedLog.Proofs.Session.Life
import SealedLog.Proofs.Session.Office
import SealedLog.Proofs.Session.Office.Steps
import SealedLog.Proofs.Session.Office.Tenancy
import SealedLog.Proofs.Session.Opening
import SealedLog.Proofs.Session.Order
import SealedLog.Proofs.Session.Progress
import SealedLog.Proofs.Session.Published
import SealedLog.Proofs.Session.ReadBack
import SealedLog.Proofs.Session.Reader
import SealedLog.Proofs.Session.Reading
import SealedLog.Proofs.Session.Renewal
import SealedLog.Proofs.Session.Rest
import SealedLog.Proofs.Session.Retrying
import SealedLog.Proofs.Session.Run
import SealedLog.Proofs.Session.Serving
import SealedLog.Proofs.Session.Setbacks
import SealedLog.Proofs.Session.Shared
import SealedLog.Proofs.Session.Summary
import SealedLog.Proofs.Session.Undoing
import SealedLog.Proofs.Session.Workplace
import SealedLog.Proofs.Session.Writers
import SealedLog.Proofs.Session.Written
import SealedLog.Proofs.Store.Alike
import SealedLog.Proofs.Store.Changes
import SealedLog.Proofs.Store.Connection
import SealedLog.Proofs.Store.Draining
import SealedLog.Proofs.Store.Migration
import SealedLog.Proofs.Store.Number
import SealedLog.Proofs.Store.Pages
import SealedLog.Proofs.Store.Reached
import SealedLog.Proofs.Store.Rows
import SealedLog.Proofs.Store.Settled
import SealedLog.Proofs.Store.Statements
import SealedLog.Proofs.Store.Steady
import SealedLog.Proofs.Store.Twin
import SealedLog.Proofs.Workspace
import SealedLog.Record
import SealedLog.Registry
import SealedLog.Session
import SealedLog.Session.Cursor
import SealedLog.Session.Error
import SealedLog.Session.Open
import SealedLog.Store
import SealedLog.Store.Basic
import SealedLog.Store.Connection
import SealedLog.Store.Content
import SealedLog.Store.Database
import SealedLog.Store.Memory
import SealedLog.Store.Query
import SealedLog.Stream
import SealedLog.Workspace
import SealedLog.Workspace.Basic
import SealedLog.Workspace.Command
import SealedLog.Workspace.Files
import SealedLog.Workspace.Publishers
import SealedLog.Workspace.Sessions
import SealedLog.Workspace.Stores
