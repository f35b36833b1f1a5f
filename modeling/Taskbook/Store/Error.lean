import Taskbook.Query.Comparison
import Taskbook.Task.Field

/-!
# Errors of Storage

Why a stored task cannot be read or written, from the database up to the repository. Each
error is its cause; the wording is in one `message` function a type. An error that passes on
another one knows its *cause text*, the message of the error it passes on.
-/

namespace Taskbook

/-- What a database refuses a statement or a file for. -/
inductive SqlError where
  | misplaced (word : String)
  | unrecognized (word : String)
  | incomplete
  /-- A refusal of the text of a statement and how many bytes stand before the place. -/
  | located (e : SqlError) (statement : String) (offset : Nat)
  | tooDeep (limit : Nat)
  | tooManyOperands
  | noSuchColumn (name : String)
  | unknownColumn (table column : String)
  | valueCount (values columns : Nat)
  | unknownDatabase (name : String)
  | unreadableSchema (name : String) (e : SqlError)
  | datatypeMismatch
  | notNull (table column : String)
  | unique (table column : String)
  | foreignKey
  | tableExists (name : String)
  | tableNamed (name : String)
  | indexNamed (name : String)
  | indexExists (name : String)
  | reservedName (name : String)
  | versionOutOfRange (version : Int)
  | notADatabase
  | cannotOpen (address : String)
  | cannotOpenBeside
  | readOnly
  | hotJournal
  | noModel
  | cannotRead
  | cannotDelete
  | cannotLock
  | locked
  | lockProtocol
  | zeroCharacter (position : Nat)
  | unknownAuthority (name : String)
  | noSuchMode (option value : String)
  | modeNotAllowed (option value : String)
  | noSuchStorage (name : String)
  deriving DecidableEq, Repr

/-- The wording of a refusal. -/
def SqlError.message : SqlError → String
  | misplaced word => "near \"" ++ word ++ "\": syntax error"
  | unrecognized word => "unrecognized token: \"" ++ word ++ "\""
  | incomplete => "incomplete input"
  | located e statement offset =>
    e.message ++ " in " ++ statement ++ " at offset " ++ toString offset
  | tooDeep limit =>
    "Expression tree is too large (maximum depth " ++ toString limit ++ ")"
  | tooManyOperands => "too many SQL variables"
  | noSuchColumn name => "no such column: " ++ name
  | unknownColumn table column => "table " ++ table ++ " has no column named " ++ column
  | valueCount values columns =>
    toString values ++ " values for " ++ toString columns ++ " columns"
  | unknownDatabase name => "unknown database " ++ name
  | unreadableSchema name e => "malformed database schema (" ++ name ++ ") - " ++ e.message
  | datatypeMismatch => "datatype mismatch"
  | notNull table column => "NOT NULL constraint failed: " ++ table ++ "." ++ column
  | unique table column => "UNIQUE constraint failed: " ++ table ++ "." ++ column
  | foreignKey => "FOREIGN KEY constraint failed"
  | tableExists name => "table " ++ name ++ " already exists"
  | tableNamed name => "there is already a table named " ++ name
  | indexNamed name => "there is already an index named " ++ name
  | indexExists name => "index " ++ name ++ " already exists"
  | reservedName name => "object name reserved for internal use: " ++ name
  | versionOutOfRange version => "Integer " ++ toString version ++ " out of range at index 0"
  | notADatabase => "file is not a database"
  | cannotOpen address => "unable to open database file: " ++ address
  | cannotOpenBeside => "unable to open database file"
  | readOnly | hotJournal => "attempt to write a readonly database"
  | noModel | cannotRead | cannotDelete | cannotLock => "disk I/O error"
  | locked => "database is locked"
  | lockProtocol => "locking protocol"
  | zeroCharacter position => "nul byte found in provided data at position: " ++ toString position
  | unknownAuthority name => "invalid uri authority: " ++ name
  | noSuchMode option value => "no such " ++ option ++ " mode: " ++ value
  | modeNotAllowed option value => option ++ " mode not allowed: " ++ value
  | noSuchStorage name => "no such vfs: " ++ name

/-- A refusal without the place in the statement. -/
def SqlError.unlocated : SqlError → SqlError
  | located e _ _ => e
  | e => e

/-- The result code behind a failure to open or to write a file, with its explanation. -/
def SqlError.resultCode? : SqlError → Option String
  | unknownAuthority _ | noSuchMode .. | noSuchStorage _ =>
    some "Error code 1: SQL error or missing database"
  | modeNotAllowed .. => some "Error code 3: Access permission denied"
  | locked => some "Error code 5: The database file is locked"
  | readOnly => some "Error code 8: Attempt to write a readonly database"
  | cannotOpen _ | cannotOpenBeside => some "Error code 14: Unable to open the database file"
  | lockProtocol => some "Error code 15: Database lock protocol error"
  | notADatabase => some "Error code 26: File opened that is not a database file"
  | cannotRead => some "Error code 266: Error reading from disk"
  | hotJournal =>
    some "Error code 776: Database has hot journal that must be rolled back (requires write access)"
  | noModel => some "Error code 1802: Error invoking fstat to get file metadata"
  | cannotDelete => some "Error code 2570: I/O error within xDelete of a VFS object"
  | cannotLock => some "Error code 3850: I/O error in the advisory file locking layer"
  | _ => none

/-- Why a database cannot be used. -/
inductive DbError where
  | sql (e : SqlError)
  | newerSchema (found latest : Nat)
  deriving DecidableEq, Repr

namespace DbError

/-- The wording of the error. -/
def message : DbError → String
  | sql e => e.message
  | newerSchema found latest =>
    "database schema version " ++ toString found ++ " is newer than supported " ++
      toString latest

/-- The messages of the errors behind this one, the nearest first. -/
def causes : DbError → List String
  | sql e => e.message :: e.resultCode?.toList
  | newerSchema _ _ => []

end DbError

/-- What is wrong with a stored row. -/
inductive DataFault where
  | unexpectedType (column : Field)
  | refused (e : FieldError)
  /-- A fault found by a caller and told in the caller's words. -/
  | reported (text : String)
  deriving DecidableEq, Repr

/-- The wording of the fault. -/
def DataFault.message : DataFault → String
  | unexpectedType column => "unexpected column type in task." ++ column.name
  | refused e => e.message
  | reported text => text

/-- Why a repository cannot answer. -/
inductive RepoError where
  | validation (fault : TitleFault)
  | db (e : DbError)
  | notFound (id : Int64)
  | missingId
  | alreadyInserted (id : Int64)
  | invalidData (fault : DataFault)
  deriving DecidableEq, Repr

namespace RepoError

/-- The wording of the error. -/
def message : RepoError → String
  | validation fault => fault.message
  | db e => e.message
  | notFound id => "task not found: " ++ Number.decimal id
  | missingId => "task has no id; insert it before updating"
  | alreadyInserted id => "task already inserted with id " ++ Number.decimal id
  | invalidData fault => "invalid persisted task data: " ++ fault.message

/-- The messages of the errors behind this one, the nearest first. -/
def causes : RepoError → List String
  | validation fault => [fault.message]
  | db e => e.message :: e.causes
  | notFound _ | missingId | alreadyInserted _ | invalidData _ => []

end RepoError

end Taskbook
