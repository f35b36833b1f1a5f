import Taskbook.Host.Address
import Taskbook.Host.Files

/-!
# Recovering Databases

Beside the file of a database other files may stand, with the same name and an ending more: a
*journal*, a *write-ahead log* with its *index*, and a *lock*. They are what an earlier use left
behind, and the first thing that is done with a database is to settle them. What stands there
here was never written for the database, so a journal restores nothing, and a log adds nothing;
both are merely cleared away.

## Settling convention

First the lock is taken, if a file is the lock; then the journal is settled and then the
log. Empty files are overlooked. Journal and log of a new database are deleted. Those of an
older one need more: a journal can only be followed where the database can be written, and a
log only by a storage that has an index for it. With a log in use no journal is needed. An
address that says the file never changes settles nothing.
-/

namespace Taskbook

namespace Place

/-- The place of the journal of a database. -/
def journal (place : Place) : Place := place.beside "-journal"

/-- The place of the write-ahead log of a database. -/
def aheadLog (place : Place) : Place := place.beside "-wal"

/-- The place of the index of a write-ahead log. -/
def aheadIndex (place : Place) : Place := place.beside "-shm"

/-- The place of the lock of a database that is locked by a file. -/
def lock (place : Place) : Place := place.beside ".lock"

/-- The places that recovering a database looks at. -/
def besides (place : Place) : List Place :=
  [place.journal, place.aheadLog, place.aheadIndex, place.lock]

end Place

/-- What the index of a write-ahead log is left with. It is no database. -/
def indexContent : FileContent := .text "index"

namespace Files

/-- Whether the database at a place is a new one: a file of at most one byte counts as
empty. -/
def isNew (fs : Files) (place : Place) : Bool :=
  match fs.content? place with
  | none => true
  | some (.text s) => s.utf8ByteSize ≤ 1
  | some (.database _) => false

/-- Takes the lock of a database. -/
def takeLock (fs : Files) (a : Address) (place : Place) : Except SqlError Unit :=
  if a.storage ≠ .lockFile ∨ a.unlocked then .ok ()
  else if Path.isTooLong (place.lock.getLast?.getD []) then .error .cannotLock
  else if fs.contains place.lock then .error .locked
  else .ok ()

/-- Whether a journal counts as that of another use, which still goes on: a lock file does not
tell its owner. -/
def isReserved (fs : Files) (a : Address) (place : Place) : Bool :=
  a.storage = .lockFile && (!a.unlocked || fs.contains place.lock)

/-- Settles the journal of a database. -/
def settleJournal (fs : Files) (a : Address) (place : Place) : Except SqlError Files :=
  let journal := place.journal
  let canWrite := a.mode ≠ .readOnly
  if fs.isReserved a place ∨ !fs.isOccupied journal then .ok fs
  else if fs.isNew place then
    .ok (if canWrite then fs.remove journal else fs)
  else if fs.isDirectory journal then .error .cannotRead
  else if canWrite then .ok (fs.remove journal)
  else .error .hotJournal

/-- Settles the write-ahead log of a database. Answers whether it is used. A reader leaves it
and its index behind. -/
def settleLog (fs : Files) (a : Address) (place : Place) : Except SqlError (Bool × Files) :=
  let log := place.aheadLog
  let index := place.aheadIndex
  let canWrite := a.mode ≠ .readOnly
  if !fs.isOccupied log then .ok (false, fs)
  else if fs.isNew place then
    if fs.isDirectory log then .error .cannotDelete else .ok (false, fs.remove log)
  else if a.unlocked ∨ a.storage = .lockless ∨ a.storage = .lockFile ∨ fs.isDirectory log then
    .error .cannotOpenBeside
  else if a.storage = .exclusive ∧ canWrite then .ok (true, fs.remove log)
  else if a.fixedIndex then
    .error (if fs.contains index then .lockProtocol else .cannotOpenBeside)
  else if fs.isDirectory index then .error .lockProtocol
  else if canWrite then .ok (true, (fs.remove log).remove index)
  else .ok (true, fs.write index indexContent)

/-- Settles everything that stands beside a database. Answers whether a write-ahead log is
used, and the tree as far as it was settled. -/
def recover (fs : Files) (a : Address) (place : Place) : Except SqlError Bool × Files :=
  if a.immutable then (.ok false, fs)
  else
    match (do fs.takeLock a place; fs.settleJournal a place) with
    | .error e => (.error e, fs)
    | .ok fs =>
      match fs.settleLog a place with
      | .error e => (.error e, fs)
      | .ok (used, fs) => (.ok used, fs)

end Files

end Taskbook
