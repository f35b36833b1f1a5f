import Mathlib.Data.List.TakeWhile
import Taskbook.Proofs.Host.Trees
import Taskbook.Proofs.Log.Events
import Taskbook.Proofs.Schema.Reopening

/-!
# Opening a Database in a File

The path of a database leads to a place. If a file can be created there, and no directory stands
where the storage keeps its own files, then the database at the place can be opened and written:
whatever an earlier use has left beside it is settled, and the database that is found is the one
that was found before. A database of the latest version is opened as it is; a new one is brought to
this version, and stands at the place from then on.

## Main results

* `Files.locate_of_ordinary`: **an ordinary path** is an address of the place that it leads to;
* `Files.recover_of_clear`: **settling** what stands beside a database succeeds and changes nothing
  at its place;
* `Files.openDatabase_of_clear`: **opening** finds the database of the place and leaves it there, at
  the latest version;
* `Files.content?_keep`: a database that is **kept** stands at its place.
-/

namespace Taskbook

/-- An address is an **ordinary path**: no address that is to be taken apart, not that of a database
in no file, and without a zero character. -/
structure Address.Ordinary (address : String) : Prop where
  plain : scheme.toList.isPrefixOf address.toList = false
  filled : address ≠ ""
  kept : address ≠ ":memory:"
  whole : Char.ofNat 0 ∉ address.toList

/-- The way to a place is **clear** for a database: its file can be created in a directory, and no
directory stands in the place of one of the files that the storage keeps. -/
structure Files.Clear (fs : Files) (place : Place) : Prop where
  parent : fs.isDirectory place.dropLast = true
  free : ∀ q ∈ [place, place.journal, place.aheadLog, place.aheadIndex], fs.isDirectory q = false
  short : Path.isTooLong (place.journal.getLast?.getD []) = false

namespace Files

variable {fs fs' : Files} {place : Place} {here : Place} {address : String}

theorem Clear.ne_nil (h : fs.Clear place) : place ≠ [] := by
  rintro rfl
  exact absurd (h.free [] (.head _)) (by simp [isDirectory])

theorem Clear.congr (h : fs.Clear place) (hdirectories : fs'.directories = fs.directories) :
    fs'.Clear place where
  parent := (isDirectory_congr hdirectories _).trans h.parent
  free q hq := (isDirectory_congr hdirectories q).trans (h.free q hq)
  short := h.short

/-! ### Finding the place -/

/-- An ordinary path is read as the address that is nothing but this path. -/
theorem read_of_ordinary (h : Address.Ordinary address) :
    Address.read address = .ok (.ofPath (Text.bytes address)) := by
  rw [Address.read, h.plain]
  rfl

/-- A database at an ordinary path is kept in a file. -/
theorem isPrivate_of_ordinary (h : Address.Ordinary address) :
    (Address.ofPath (Text.bytes address)).isPrivate = false := by
  have hfilled : Text.bytes address ≠ [] := fun hnil => h.filled (Text.bytes_inj.mp hnil)
  have hkept : Text.bytes address ≠ Address.privatePath := fun heq => h.kept (Text.bytes_inj.mp heq)
  simp [Address.isPrivate, Address.isOwn, Address.ofPath, hfilled, hkept]

/-- **An ordinary path** is an address of the place that it leads to. -/
theorem locate_of_ordinary (hordinary : Address.Ordinary address)
    (hplace : fs.databasePlace? here (Text.bytes address) = some place) (hclear : fs.Clear place) :
    fs.locate here address = .ok (.ofPath (Text.bytes address), some place) := by
  have hwhole : address.toList.takeWhile (· != Char.ofNat 0) = address.toList := by
    have hall : ∀ c ∈ address.toList, (c != Char.ofNat 0) = true := fun c hc =>
      bne_iff_ne.mpr fun heq => hordinary.whole (heq ▸ hc)
    exact List.takeWhile_eq_self_iff.mpr hall
  have hlength : ¬ address.toList.length < address.length := by
    rw [String.length_toList]
    exact Nat.lt_irrefl _
  have hfree := hclear.free place (.head _)
  have hadmits : fs.admits (.ofPath (Text.bytes address)) place = true := by
    simp [admits, hfree, hclear.parent, Address.ofPath]
  have hmodel (path : List UInt8) : (Address.ofPath path).model = none := rfl
  have hpath (path : List UInt8) : (Address.ofPath path).path = path := rfl
  rw [locate]
  simp only [hwhole, if_neg hlength, read_of_ordinary hordinary, isPrivate_of_ordinary hordinary,
    hpath, hplace, hmodel, hfree, hadmits, Option.any_none, Bool.false_eq_true, if_false, if_true,
    false_and, and_false, bind, Except.bind, pure, Except.pure]

/-! ### Settling what stands beside -/

/-- A file beside a place is another one. -/
theorem ne_beside (h : place ≠ []) {ending : String} (hending : ending ≠ "") :
    place ≠ place.beside ending := by
  intro heq
  have hlast := congrArg List.getLast? heq
  rw [Place.beside, List.getLast?_concat, List.getLast?_eq_some_getLast h, Option.getD_some,
    Option.some.injEq, List.self_eq_append_right] at hlast
  exact hending (Text.bytes_inj.mp hlast)

/-- A tree **agrees** with another one on a place: it has the same directories and the same content
at the place. -/
structure Agrees (fs' fs : Files) (place : Place) : Prop where
  directories : fs'.directories = fs.directories
  content : fs'.content? place = fs.content? place

theorem Agrees.refl (fs : Files) (place : Place) : fs.Agrees fs place :=
  ⟨rfl, rfl⟩

theorem Agrees.trans {fs'' : Files} (h' : fs''.Agrees fs' place) (h : fs'.Agrees fs place) :
    fs''.Agrees fs place :=
  ⟨h'.directories.trans h.directories, h'.content.trans h.content⟩

/-- Removing a file elsewhere agrees on a place. -/
theorem agrees_remove (fs : Files) {q : Place} (h : place ≠ q) : (fs.remove q).Agrees fs place :=
  ⟨rfl, by rw [content?_remove, if_neg h]⟩

/-- The journal of a database at an ordinary path is left alone or deleted. -/
theorem settleJournal_of_clear (hclear : fs.Clear place) (path : List UInt8) :
    ∃ fs', fs.settleJournal (.ofPath path) place = .ok fs' ∧ fs'.Agrees fs place := by
  have hjournal := fs.agrees_remove (ne_beside hclear.ne_nil (by decide : "-journal" ≠ ""))
  have hfree := hclear.free place.journal (.tail _ (.head _))
  have hreserved : fs.isReserved (.ofPath path) place = false := rfl
  have hmode : (Address.ofPath path).mode = .create := rfl
  rw [settleJournal]
  simp only [hreserved, hfree, hmode]
  split
  · exact ⟨fs, rfl, .refl fs place⟩
  · split
    · exact ⟨_, rfl, hjournal⟩
    · exact ⟨_, rfl, hjournal⟩

/-- The write-ahead log of a database at an ordinary path is left alone or used up. -/
theorem settleLog_of_clear (hclear : fs.Clear place) (path : List UInt8) :
    ∃ used fs', fs.settleLog (.ofPath path) place = .ok (used, fs') ∧ fs'.Agrees fs place := by
  have hlog := fs.agrees_remove (ne_beside hclear.ne_nil (by decide : "-wal" ≠ ""))
  have hindex := (fs.remove place.aheadLog).agrees_remove
    (ne_beside hclear.ne_nil (by decide : "-shm" ≠ ""))
  have hfree := hclear.free place.aheadLog (.tail _ (.tail _ (.head _)))
  have hfree' := hclear.free place.aheadIndex (.tail _ (.tail _ (.tail _ (.head _))))
  have haddress : (Address.ofPath path).unlocked = false ∧
      (Address.ofPath path).storage = .locking ∧ (Address.ofPath path).fixedIndex = false ∧
      (Address.ofPath path).mode = .create := ⟨rfl, rfl, rfl, rfl⟩
  obtain ⟨hunlocked, hstorage, hfixed, hmode⟩ := haddress
  rw [settleLog]
  simp only [hfree, hfree', hunlocked, hstorage, hfixed, hmode]
  split
  · exact ⟨false, fs, rfl, .refl fs place⟩
  · split
    · exact ⟨false, _, rfl, hlog⟩
    · exact ⟨true, _, rfl, hindex.trans hlog⟩

/-- **Settling what stands beside** a database at an ordinary path succeeds, and the tree agrees
with the one before on the place. -/
theorem recover_of_clear (hclear : fs.Clear place) (path : List UInt8) :
    ∃ used fs', fs.recover (.ofPath path) place = (.ok used, fs') ∧ fs'.Agrees fs place := by
  obtain ⟨fs₁, hjournal, hagrees₁⟩ := settleJournal_of_clear hclear path
  obtain ⟨used, fs₂, hlog, hagrees₂⟩ :=
    settleLog_of_clear (hclear.congr hagrees₁.directories) path
  have hsettled : (do fs.takeLock (.ofPath path) place; fs.settleJournal (.ofPath path) place) =
      .ok fs₁ := hjournal
  refine ⟨used, fs₂, ?_, hagrees₂.trans hagrees₁⟩
  rw [recover, hsettled]
  simp only [hlog]
  rfl

/-! ### Connecting and opening -/

/-- Nothing is in the way of writing a database that is reached on a clear way. -/
theorem writeObstacle?_of_clear (hclear : fs.Clear place) (path : List UInt8) (logged : Bool) :
    fs.writeObstacle? (.ofPath path) place logged = none := by
  have hjournal := hclear.free place.journal (.tail _ (.head _))
  have hfrozen : (Address.ofPath path).isFrozen = false := rfl
  rw [writeObstacle?, hfrozen, hjournal, hclear.short]
  cases logged <;> rfl

/-- **Connecting** on a clear way finds the database of the place, and it can be written. -/
theorem connect_of_clear (hordinary : Address.Ordinary address)
    (hplace : fs.databasePlace? here (Text.bytes address) = some place) (hclear : fs.Clear place)
    {db : Database} (hfound : fs.found place = .ok db) :
    ∃ fs', fs.connect here address = (.ok (db, ⟨some place, none⟩), fs') ∧
      fs'.directories = fs.directories ∧ fs'.found place = .ok db := by
  have htouched := hclear.congr (directories_touch fs place)
  obtain ⟨used, fs', hrecover, hagrees⟩ := recover_of_clear htouched (Text.bytes address)
  have hfound' : fs'.found place = .ok db := by
    rw [found_congr hagrees.content, found_touch, hfound]
  refine ⟨fs', ?_, hagrees.directories.trans (directories_touch fs place), hfound'⟩
  rw [connect, locate_of_ordinary hordinary hplace hclear]
  simp only [hrecover, hfound', Except.map,
    writeObstacle?_of_clear (htouched.congr hagrees.directories)]

/-- A database that is **kept** stands at its place. -/
theorem content?_keep {db : Database} (hplace : place ≠ []) (hversion : db.version = 1) :
    (fs.keep ⟨some place, none⟩ db).content? place = some (.database db) := by
  have hnew : db ≠ .new := by
    rintro rfl
    exact absurd hversion (by decide)
  simp only [keep]
  split
  · next hsame =>
    cases hfound : fs.found place with
    | error e =>
        rw [hfound] at hsame
        cases hsame
    | ok stored =>
        rw [hfound] at hsame
        obtain rfl := Option.some.inj hsame
        exact content?_of_found hfound hnew
  · have hjournal : place ≠ place.journal := ne_beside hplace (by decide : "-journal" ≠ "")
    rw [content?_remove, if_neg hjournal, content?_write, if_pos rfl]

theorem directories_keep (fs : Files) (k : Keeping) (db : Database) :
    (fs.keep k db).directories = fs.directories := by
  rw [keep]
  split
  · split <;> rfl
  · rfl

end Files

/-- A database is **up to date** if there is nothing in it yet or it has the latest version. -/
def Database.UpToDate (db : Database) : Prop :=
  db = .new ∨ db.version = 1

/-- Migrating a database that is up to date keeps its tables, and at the latest version
everything. -/
theorem Database.UpToDate.openWith_eq {db : Database} (h : db.UpToDate) (mode : OpenMode) :
    ∃ opened, (openWith mode (.ok db) none).1 = .ok opened ∧ opened.version = 1 ∧
      opened.tables = db.tables ∧ (db.version = 1 → opened = db) := by
  rw [Database.openWith_eq]
  rcases h with rfl | hversion
  · refine ⟨new.migrated, ?_, rfl, rfl, fun h => absurd h (by decide)⟩
    rw [migrate_of_free rfl fun o _ => find?_eq_none_iff.mp rfl]
    rfl
  · exact ⟨db, by rw [migrate_of_current hversion]; rfl, hversion, rfl, fun _ => rfl⟩

namespace Files

variable {fs : Files} {place here : Place} {address : String}

/-- A tree **holds tables** at a place: those of the database that is found there, which is up to
date. At a place without a file there are no rows. -/
def Holds (fs : Files) (place : Place) (s : Tables) : Prop :=
  ∃ db, fs.found place = .ok db ∧ db.UpToDate ∧ db.tables = s

/-- **Opening** on a clear way finds the database of the place and leaves it there, at the latest
version, with the tables that it had. -/
theorem openDatabase_of_clear (hordinary : Address.Ordinary address)
    (hplace : fs.databasePlace? here (Text.bytes address) = some place) (hclear : fs.Clear place)
    {db : Database} (hfound : fs.found place = .ok db) (hdb : db.UpToDate) :
    ∃ opened events fs',
      fs.openDatabase here address = (.ok (opened, ⟨some place, none⟩), events, fs') ∧
        fs'.directories = fs.directories ∧ fs'.content? place = some (.database opened) ∧
        opened.version = 1 ∧ opened.tables = db.tables ∧ (db.version = 1 → opened = db) := by
  obtain ⟨fs', hconnect, hdirectories, -⟩ := connect_of_clear hordinary hplace hclear hfound
  obtain ⟨opened, hopen, hversion, htables, hsame⟩ := hdb.openWith_eq .file
  refine ⟨opened, (Database.openWith .file (.ok db) none).2, fs'.keep ⟨some place, none⟩ opened,
    ?_, (directories_keep _ _ _).trans hdirectories, content?_keep hclear.ne_nil hversion, hversion,
    htables, hsame⟩
  have hopened := fs.openDatabase_eq here address
  dsimp only at hopened
  rw [hopened, hconnect]
  simp only [Except.toOption, Option.elim_some, Except.map, hopen]

end Files

end Taskbook
