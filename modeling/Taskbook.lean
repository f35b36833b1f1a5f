import Taskbook.Cli.Run
import Taskbook.Main
import Taskbook.Manager.Session
import Taskbook.Query.Clause
import Taskbook.Store.Memory
import Taskbook.Table.Planning
import Taskbook.Task.Json
import Taskbook.Proofs.Clause.Grammar
import Taskbook.Proofs.Clause.Meaning
import Taskbook.Proofs.Results
import Taskbook.Proofs.Task.Access
import Taskbook.Proofs.Table.Codec
import Taskbook.Proofs.Query.Agreement
import Taskbook.Proofs.Manager.Preservation
import Taskbook.Proofs.Manager.Ledger
import Taskbook.Proofs.Table.Keeping
import Taskbook.Proofs.Manager.Backends
import Taskbook.Proofs.Manager.Relevance
import Taskbook.Proofs.Manager.History
import Taskbook.Proofs.Manager.Shift
import Taskbook.Proofs.Manager.Interchange
import Taskbook.Proofs.Clause.Alignment
import Taskbook.Proofs.Manager.Failure
import Taskbook.Proofs.Table.Faults
import Taskbook.Proofs.Table.Answers
import Taskbook.Proofs.Manager.Isolation
import Taskbook.Proofs.Store.Seeding
import Taskbook.Proofs.Manager.Numbering
import Taskbook.Proofs.Manager.Titles
import Taskbook.Proofs.Manager.Refusals
import Taskbook.Proofs.Json.Spelling
import Taskbook.Proofs.Json.Tree
import Taskbook.Proofs.Task.Exchange
import Taskbook.Proofs.Schema.Migrating
import Taskbook.Proofs.Schema.Transaction
import Taskbook.Proofs.Schema.Reopening
import Taskbook.Proofs.Store.Slots
import Taskbook.Proofs.Manager.Overwriting
import Taskbook.Proofs.Manager.Observing
import Taskbook.Proofs.Log.Events
import Taskbook.Proofs.Manager.Telling
import Taskbook.Proofs.Query.Shape
import Taskbook.Proofs.Store.Alike
import Taskbook.Proofs.Table.Alike
import Taskbook.Proofs.Manager.Secrecy
import Taskbook.Proofs.Json.Grammar
import Taskbook.Proofs.Task.Decoding
import Taskbook.Proofs.Host.Trees
import Taskbook.Proofs.Host.Logging
import Taskbook.Proofs.Host.Reaching
import Taskbook.Proofs.Cli.Commands
import Taskbook.Proofs.Cli.Runs
import Taskbook.Proofs.Number.Nearest
import Taskbook.Proofs.Number.Numerals
import Taskbook.Proofs.Query.Ruling
import Taskbook.Proofs.Query.Cutting
import Taskbook.Proofs.Clause.Unambiguous
import Taskbook.Proofs.Manager.Conversing
import Taskbook.Proofs.Manager.Succeeding
import Taskbook.Proofs.Task.Days
import Taskbook.Proofs.Cli.Dates
import Taskbook.Proofs.Table.Readable
import Taskbook.Proofs.Task.Lenses
import Taskbook.Proofs.Host.Paths
import Taskbook.Proofs.Log.Requests
import Taskbook.Proofs.Log.Once
import Taskbook.Proofs.Host.Asking
