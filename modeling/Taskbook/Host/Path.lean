import Taskbook.Text.Bytes

/-!
# Paths

A path is bytes, mostly those of a text; what it names depends on its *steps*, the bytes between
its slashes. Empty pieces are no steps. The step `.` stays where it is and `..` goes back to the
directory above; every other step is a name, and the steps but for `.` are the *parts* of the
path. A place in a file tree is the list of names on the way to it from the root.

## Comparison convention

Two absolute paths are the same if their parts are, so doubled slashes, inner `.` steps and a
slash at the end make no difference. A `..` is compared as it is written: whether it leads
back depends on the files, not on the path.
-/

namespace Taskbook

/-- The name of a file or a directory. -/
abbrev FileName := List UInt8

/-- A place in a file tree: the names on the way to it. -/
abbrev Place := List FileName

namespace Path

/-- The pieces of a list between the elements that equal `sep`. -/
def pieces {α : Type} [DecidableEq α] (sep : α) : List α → List (List α)
  | [] => [[]]
  | c :: cs =>
    if c = sep then [] :: pieces sep cs
    else
      match pieces sep cs with
      | [] => [[c]]
      | p :: ps => (c :: p) :: ps

/-- What stands between two steps. -/
def slash : UInt8 := 0x2f

/-- The step that stays where it is. -/
def stay : FileName := [0x2e]

/-- The step to the directory above. -/
def back : FileName := [0x2e, 0x2e]

/-- The steps of a path. -/
def steps (path : List UInt8) : List FileName :=
  (pieces slash path).filter (· != [])

/-- The steps of a path but for those that stay. -/
def parts (path : List UInt8) : List FileName :=
  (steps path).filter (· != stay)

/-- Whether a path starts at the root. -/
def isAbsolute (path : List UInt8) : Bool :=
  path.head? == some slash

/-- A path as seen from a directory. -/
def join (directory path : String) : String :=
  if isAbsolute (Text.bytes path) then path
  else if (Text.bytes directory).getLast? == some slash then directory ++ path
  else directory ++ "/" ++ path

/-- Steps without those that stay at their end. -/
def dropStays (steps : List FileName) : List FileName :=
  (steps.reverse.dropWhile (· == stay)).reverse

/-- The steps to the directory above the one that steps name, as far as the steps alone
tell. -/
def parent (steps : List FileName) : List FileName :=
  dropStays (dropStays steps).dropLast

/-- The places on the way from a place along steps, the end included. -/
def walk (here : Place) : List FileName → List Place
  | [] => [here]
  | step :: rest =>
    if step = stay then walk here rest
    else if step = back then here :: walk here.dropLast rest
    else here :: walk (here ++ [step]) rest

/-- The longest name in bytes that a file can have. -/
def maxNameLength : Nat := 255

/-- The longest path in bytes that can be followed. -/
def maxLength : Nat := 4095

/-- Whether a name is too long for a file. -/
def isTooLong (name : FileName) : Bool :=
  maxNameLength < name.length

/-- How many bytes the path of a place has. -/
def length (place : Place) : Nat :=
  place.foldl (fun bytes name => bytes + name.length + 1) 0

theorem length_dropStays_le (steps : List FileName) :
    (dropStays steps).length ≤ steps.length := by
  have := (List.dropWhile_sublist (· == stay) (l := steps.reverse)).length_le
  simpa [dropStays] using this

/-- The way to the directory above is shorter. -/
theorem length_parent_lt {steps : List FileName} (h : steps ≠ []) :
    (parent steps).length < steps.length := by
  have outer := length_dropStays_le (dropStays steps).dropLast
  have inner := length_dropStays_le steps
  have positive := List.length_pos_iff.mpr h
  simp only [List.length_dropLast] at outer
  unfold parent
  omega

end Path

/-- The place with a longer last name: that of a file that stands beside another one. -/
def Place.beside (place : Place) (ending : String) : Place :=
  place.dropLast ++ [place.getLast?.getD [] ++ Text.bytes ending]

end Taskbook
