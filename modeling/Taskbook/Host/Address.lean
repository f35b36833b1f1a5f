import Taskbook.Host.Path
import Taskbook.Store.Error
import Taskbook.Text.Ascii
import Taskbook.Text.Utf8

/-!
# Addresses of Databases

A database is opened at an *address*. Mostly that is the path of its file. A text that begins
with `file:` is taken apart further: an authority, a path, options behind a question mark, and
a fragment, which is ignored. In the path and in the options `%` and two hexadecimal digits
stand for a byte.

## Reading convention

* The authority must be empty or `localhost`.
* A zero byte ends the path, or the name or value that it stands in.
* An option without a name is ignored, and so is one whose name means nothing here. Options are
  looked at in order, and the kind of storage only after all of them.
* A later `mode` wins over an earlier one, if it does not allow more. The last kind of storage
  counts; of the options that say yes or name a file, the first one of each name.
-/

namespace Taskbook

/-- What may be done with the file of a database. -/
inductive AccessMode where
  | readOnly
  | readWrite
  | create
  | inMemory
  deriving DecidableEq, Repr

namespace AccessMode

/-- The modes by name. -/
def names : List (String × AccessMode) :=
  [("ro", readOnly), ("rw", readWrite), ("rwc", create), ("memory", inMemory)]

/-- How much a mode allows. -/
def rank : AccessMode → Nat
  | readOnly => 1
  | readWrite => 2
  | create => 3
  | inMemory => 4

/-- Whether a mode may be followed by another one. -/
def mayBecome (old new : AccessMode) : Bool :=
  new = inMemory || new.rank ≤ old.rank

end AccessMode

/-- How a database is stored and kept from others: in a file with locks of the system, without
locks, with a file as its lock, or by a single process; or in no file. -/
inductive Storage where
  | locking
  | lockless
  | lockFile
  | exclusive
  | memory
  deriving DecidableEq, Repr

/-- The kinds of storage by name. -/
def Storage.names : List (String × Storage) :=
  [("unix", locking), ("unix-none", lockless), ("unix-dotfile", lockFile),
   ("unix-excl", exclusive), ("memdb", memory)]

/-- Where a database is and how it is to be opened. -/
structure Address where
  path : List UInt8
  mode : AccessMode
  storage : Storage
  /-- Whether the options say that the file never changes. -/
  immutable : Bool
  /-- Whether the options say that the database need not be locked. -/
  unlocked : Bool
  /-- Whether the options say that the index of the write-ahead log is not to be written. -/
  fixedIndex : Bool
  /-- The path of the file that the options name as a model for new files, if they do. -/
  model : Option (List UInt8)
  deriving DecidableEq

namespace Address

/-- What an address that is to be taken apart begins with. -/
def scheme : String := "file:"

/-- The path of a database that is kept in no file. -/
def privatePath : List UInt8 := Text.bytes ":memory:"

/-- The value of a hexadecimal digit. -/
def hexDigit? (c : Char) : Option Nat :=
  if c.isDigit then some (c.toNat - '0'.toNat)
  else if 'a' ≤ c ∧ c ≤ 'f' then some (c.toNat - 'a'.toNat + 10)
  else if 'A' ≤ c ∧ c ≤ 'F' then some (c.toNat - 'A'.toNat + 10)
  else none

/-- The bytes of a text with escapes, up to the first zero byte. -/
def unescape : List Char → List UInt8
  | [] => []
  | '%' :: a :: b :: cs =>
    match hexDigit? a, hexDigit? b with
    | some 0, some 0 => []
    | some m, some n => UInt8.ofNat (16 * m + n) :: unescape cs
    | _, _ => Text.bytes "%" ++ unescape (a :: b :: cs)
  | c :: cs => Text.bytes c.toString ++ unescape cs

/-- An option: its name as a text, and the bytes of its value. -/
abbrev Setting := String × List UInt8

/-- The options in the part of an address behind the question mark. -/
def settings (cs : List Char) : List Setting :=
  (Path.pieces '&' cs).filterMap fun piece =>
    let name := unescape (piece.takeWhile (· != '='))
    if name = [] then none
    else some (Text.shown name, unescape ((piece.dropWhile (· != '=')).drop 1))

/-! ### Values of options -/

/-- The words for yes in an option. -/
def yesWords : List String := ["on", "yes", "true"]

/-- The greatest number that an option can have, the last one of 31 bits. -/
def maxNumber : Nat := 0x7fffffff

/-- The values of the hexadecimal digits that a text begins with. -/
def hexDigits (cs : List Char) : List Nat :=
  ((cs.map hexDigit?).takeWhile Option.isSome).reduceOption

/-- The number that the value of an option begins with: decimal digits, or `0x` and hexadecimal
ones. One that is too great counts as zero. -/
def number (cs : List Char) : Nat :=
  let decimal := Number.digitsValue (cs.takeWhile Char.isDigit)
  let n :=
    match cs with
    | '0' :: x :: rest =>
      let digits := hexDigits rest
      if (x = 'x' ∨ x = 'X') ∧ digits ≠ [] then digits.foldl (fun n d => 16 * n + d) 0
      else decimal
    | _ => decimal
  if n ≤ maxNumber then n else 0

/-- Whether the value of an option says yes: one of the words, or a number whose last eight
bits are not all zero. -/
def saysYes (value : String) : Bool :=
  if value.toList.head?.any Char.isDigit then number value.toList % 256 != 0
  else yesWords.any (Text.sameName value)

/-- The value of the first option with a name. -/
def value? (found : List Setting) (name : String) : Option (List UInt8) :=
  (found.find? fun o => o.1 == name).map Prod.snd

/-- Whether the first option with a name says yes. -/
def isSet (found : List Setting) (name : String) : Bool :=
  (value? found name).any fun v => saysYes (Text.shown v)

/-- The mode after one more option. -/
def followMode (mode : AccessMode) (o : Setting) : Except SqlError AccessMode :=
  let value := Text.shown o.2
  if o.1 = "cache" then
    if value = "shared" ∨ value = "private" then .ok mode
    else .error (.noSuchMode "cache" value)
  else if o.1 = "mode" then
    match AccessMode.names.find? fun m => m.1 == value with
    | none => .error (.noSuchMode "access" value)
    | some (_, new) =>
      if mode.mayBecome new then .ok new else .error (.modeNotAllowed "access" value)
  else .ok mode

/-- The kind of storage that options ask for. -/
def storageOf (found : List Setting) : Except SqlError Storage :=
  match value? found.reverse "vfs" with
  | none => .ok .locking
  | some name =>
    match Storage.names.find? fun s => s.1 == Text.shown name with
    | some (_, storage) => .ok storage
    | none => .error (.noSuchStorage (Text.shown name))

/-! ### Reading addresses -/

/-- The address that is nothing but a path. -/
def ofPath (path : List UInt8) : Address :=
  ⟨path, .create, .locking, false, false, false, none⟩

/-- Skips the authority, if there is one. -/
def skipAuthority : List Char → Except SqlError (List Char)
  | '/' :: '/' :: cs =>
    let authority := String.ofList (cs.takeWhile (· != '/'))
    if authority = "" ∨ authority = "localhost" then .ok (cs.dropWhile (· != '/'))
    else .error (.unknownAuthority authority)
  | cs => .ok cs

/-- Reads an address. -/
def read (text : String) : Except SqlError Address := do
  if !scheme.toList.isPrefixOf text.toList then return ofPath (Text.bytes text)
  let body ← skipAuthority (text.toList.drop scheme.length)
  let body := body.takeWhile (· != '#')
  let found := settings ((body.dropWhile (· != '?')).drop 1)
  let mode ← found.foldlM followMode .create
  let storage ← storageOf found
  return {
    path := unescape (body.takeWhile (· != '?'))
    mode := mode
    storage := storage
    immutable := isSet found "immutable"
    unlocked := isSet found "nolock"
    fixedIndex := isSet found "readonly_shm"
    model := value? found "modeof" }

/-- Whether a database at an address is its opener's own, in no file from the start. -/
def isOwn (a : Address) : Bool :=
  a.mode = .inMemory || a.path = [] || a.path = privatePath

/-- Whether a database at an address is kept in no file. -/
def isPrivate (a : Address) : Bool :=
  a.isOwn || a.storage = .memory

/-- Whether a database at an address must not be written. -/
def isFrozen (a : Address) : Bool :=
  a.mode = .readOnly || (a.immutable && !a.isOwn)

end Address

end Taskbook
