import Taskbook.Host.Basic

/-!
# What a Change to a File Tree Keeps

The files of a tree are changed one at a time: written, removed, created empty, or made longer. This
module says what stands at a place after each change, and what does not depend on the files at all.
The rest of the theory of hosts looks at a tree in two ways only: at its directories, and at the
content of one place.

A database that stands at a place has withstood most changes. It is there as long as its file is not
written or removed; and as long as its file is not written, removed or made longer, the same
database is *found* there, where a missing or an empty file counts as a new database.

## Main results

* `Files.content?_write`, `Files.content?_remove`, `Files.content?_touch`: **what stands at a
  place** after a change;
* `Files.toOption_follow_congr`, `Files.found_congr`: **where steps lead** depends on the
  directories only, and **the database that is found** on one place only.
-/

namespace Taskbook.Files

variable {fs fs' : Files} {place q : Place}

/-! ### What stands at a place -/

theorem find?_filter_ne (entries : List (Place × FileContent)) (place q : Place) :
    (entries.filter fun e => e.1 != place).find? (fun e => e.1 == q) =
      if q = place then none else entries.find? fun e => e.1 == q := by
  induction entries with
  | nil => simp
  | cons e entries ih =>
      by_cases he : e.1 = place <;> by_cases hq : e.1 = q <;> simp_all

/-- What stands at a place after a file was written. -/
@[simp] theorem content?_write (fs : Files) (place : Place) (c : FileContent) (q : Place) :
    (fs.write place c).content? q = if q = place then some c else fs.content? q := by
  rw [content?, write, List.find?_append, find?_filter_ne]
  by_cases h : q = place
  · simp [h]
  · simp [h, content?, Ne.symm h]

/-- What stands at a place after a file was removed. -/
@[simp] theorem content?_remove (fs : Files) (place q : Place) :
    (fs.remove place).content? q = if q = place then none else fs.content? q := by
  rw [content?, remove, find?_filter_ne]
  by_cases h : q = place <;> simp [h, content?]

/-- What stands at a place after a file was created empty if there was none. -/
theorem content?_touch (fs : Files) (place q : Place) :
    (fs.touch place).content? q =
      if q = place then some ((fs.content? place).getD (.text "")) else fs.content? q := by
  rw [touch, isFile]
  cases h : fs.content? place with
  | none => simp
  | some c => by_cases hq : q = place <;> simp [h, hq]

/-- A database that stands at a place is not made longer. -/
theorem content?_append {db : Database} (h : fs.content? place = some (.database db)) (q : Place)
    (s : String) : (fs.append q s).content? place = some (.database db) := by
  rw [append]
  by_cases hq : place = q
  · subst hq
    rw [h]
    exact h
  · cases hcontent : fs.content? q with
    | none => simp [hq, h]
    | some c => cases c <;> simp [hq, h]

/-! ### Directories -/

@[simp] theorem directories_touch (fs : Files) (place : Place) :
    (fs.touch place).directories = fs.directories := by
  rw [touch]
  split <;> rfl

@[simp] theorem directories_append (fs : Files) (place : Place) (s : String) :
    (fs.append place s).directories = fs.directories := by
  rw [append]
  split <;> rfl

@[simp] theorem directories_clearLogs (fs : Files) (here : Place) :
    (fs.clearLogs here).directories = fs.directories := by
  rw [clearLogs]
  induction (fs.oldLogs here).drop keptLogs generalizing fs with
  | nil => rfl
  | cons place places ih => exact (ih (fs.remove place)).trans rfl

theorem isDirectory_congr (h : fs'.directories = fs.directories) (place : Place) :
    fs'.isDirectory place = fs.isDirectory place := by
  rw [isDirectory, isDirectory, h]

/-- **Where steps lead** depends on the directories only. -/
theorem toOption_follow_congr (h : fs'.directories = fs.directories) (here : Place)
    (steps : List FileName) :
    (fs'.follow here steps).toOption = (fs.follow here steps).toOption := by
  induction steps generalizing here with
  | nil => rfl
  | cons step steps ih =>
      rw [follow, follow, isDirectory_congr h]
      split
      · exact ih here
      · split
        · exact ih here.dropLast
        · split
          · rfl
          · split
            · exact ih (here ++ [step])
            · rfl

theorem logPlace?_congr (h : fs'.directories = fs.directories) (directory : String) :
    fs'.logPlace? directory = fs.logPlace? directory := by
  rw [logPlace?, logPlace?, directory?, directory?, toOption_follow_congr h]

/-! ### The database that is found -/

/-- **The database that is found** at a place depends on what stands there only. -/
theorem found_congr (h : fs'.content? place = fs.content? place) :
    fs'.found place = fs.found place := by
  rw [found, found, isNew, isNew, h]

/-- The database that stands at a place is found. -/
theorem found_of_content? {db : Database} (h : fs.content? place = some (.database db)) :
    fs.found place = .ok db := by
  rw [found, h]

/-- A file that is created where there is none is found as a new database. -/
theorem found_touch (fs : Files) (place q : Place) : (fs.touch q).found place = fs.found place := by
  by_cases hq : place = q
  · subst hq
    have hcontent := fs.content?_touch place place
    rw [if_pos rfl] at hcontent
    cases h : fs.content? place with
    | none =>
        rw [h] at hcontent
        rw [found, found, isNew, isNew, h, hcontent]
        rfl
    | some c =>
        rw [h] at hcontent
        exact found_congr (hcontent.trans h.symm)
  · exact found_congr (by rw [content?_touch, if_neg hq])

/-- A database that is not new stands where it is found. -/
theorem content?_of_found {db : Database} (h : fs.found place = .ok db) (hnew : db ≠ .new) :
    fs.content? place = some (.database db) := by
  rw [found] at h
  split at h
  · next stored hcontent =>
    obtain rfl := Except.ok.inj h
    exact hcontent
  · split at h
    · exact absurd (Except.ok.inj h).symm hnew
    · cases h

end Taskbook.Files
