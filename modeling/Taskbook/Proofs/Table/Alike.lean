import Taskbook.Proofs.Store.Alike
import Taskbook.Proofs.Table.Answers

/-!
# Tables That Are the Same but for Titles

Two rows are the same but for the title if they hold the same in every other column and their title
cells are the same, too, or two texts of which both are blank or neither is. Such rows have the same
fault, or they are read as tasks that are the same but for the title. No statement on the task
table looks at more of a title than that, so the tables are a discreet repository.

## Main results

* `Row.SameButTitle.ofCells`: such rows are **read alike**;
* `Tables.discreet`, `discreet_frozen`: the tables are **discreet**, also where they cannot be
  written.
-/

namespace Taskbook

open Taskbook.Action

/-! ### Rows but for their titles -/

/-- Two title cells are the same, or two texts that are blank both or neither. -/
def Cell.SameButText (a b : Cell) : Prop :=
  a = b ∨ ∃ s t, a = .text s ∧ b = .text t ∧ Text.isBlankText s = Text.isBlankText t

/-- Two rows are **the same but for the title**. -/
structure Row.SameButTitle (r q : Row) : Prop where
  others : ∀ f ≠ Field.title, r.cells f = q.cells f
  title : r.title.SameButText q.title

namespace Row.SameButTitle

variable {r q : Row}

theorem id_eq (h : r.SameButTitle q) : r.id = q.id :=
  Cell.integer.inj (h.others .id (by decide))

/-- Such rows have the same ids. -/
theorem map_id_eq {rows rows' : List Row} (h : List.Forall₂ SameButTitle rows rows') :
    rows.map Row.id = rows'.map Row.id := by
  induction h with
  | nil => rfl
  | cons hrq _ ih => rw [List.map_cons, List.map_cons, hrq.id_eq, ih]

/-- Such rows have the same fault. -/
theorem fault?_eq (h : r.SameButTitle q) : r.fault? = q.fault? := by
  have hcells : (fun f => (r.cells f).fault? f) = fun f => (q.cells f).fault? f := by
    funext f
    by_cases hf : f = .title
    · subst hf
      rcases h.title with heq | ⟨s, t, hs, ht, -⟩
      · exact congrArg (Cell.fault? .title) heq
      · exact (congrArg (Cell.fault? .title) hs).trans (congrArg (Cell.fault? .title) ht).symm
    · rw [h.others f hf]
  have hblank : r.title.isBlank = q.title.isBlank := by
    rcases h.title with heq | ⟨s, t, hs, ht, hst⟩
    · rw [heq]
    · rw [hs, ht]
      exact hst
  rw [fault?, fault?, hcells, hblank]

/-- Tasks that such rows are read as are the same but for the title. -/
theorem of_reads (h : r.SameButTitle q) {t u : Task} (ht : r.Reads t) (hu : q.Reads u) :
    t.SameButTitle u := by
  obtain ⟨htblank, htcells⟩ := reads_iff.mp ht
  obtain ⟨hublank, hucells⟩ := reads_iff.mp hu
  refine ⟨Task.cells_inj.mp (funext fun f => ?_), htblank.trans hublank.symm⟩
  by_cases hf : f = .title
  · subst hf
    rfl
  · have hsame : ({ t with title := u.title } : Task).cells f = t.cells f := by
      cases f <;> first | rfl | exact absurd rfl hf
    rw [hsame, htcells, hucells, h.others f hf]

/-- **Such rows are read alike.** -/
theorem ofCells (h : r.SameButTitle q) :
    Except.InRelation Task.SameButTitle (Task.ofCells r.cells) (Task.ofCells q.cells) := by
  cases hr : Task.ofCells r.cells with
  | error e =>
      have hfault := Row.fault?_eq_some_iff.mpr hr
      rw [h.fault?_eq] at hfault
      rw [Row.fault?_eq_some_iff.mp hfault]
      exact rfl
  | ok t =>
      have hfault := Row.fault?_eq_none_iff.mpr ⟨t, hr⟩
      rw [h.fault?_eq] at hfault
      obtain ⟨u, hq⟩ := Row.fault?_eq_none_iff.mp hfault
      rw [hq]
      exact h.of_reads hr hq

/-- A predicate that avoids the title selects both or neither. -/
theorem selects_eq [Engine] (h : r.SameButTitle q) {p : Predicate} (avoids : p.AvoidsTitle) :
    p.selects r.cells = p.selects q.cells :=
  avoids.selects_congr h.others

/-- A row is placed before the same rows. -/
theorem place (h : r.SameButTitle q) {rows rows' : List Row}
    (hrows : List.Forall₂ SameButTitle rows rows') :
    List.Forall₂ SameButTitle (r.place rows) (q.place rows') := by
  induction hrows with
  | nil => exact .cons h .nil
  | cons hab hrest ih =>
      rw [Row.place, Row.place, h.id_eq, hab.id_eq]
      split
      · exact .cons h (.cons hab hrest)
      · exact .cons hab ih

end Row.SameButTitle

/-- Tasks that are the same but for the title are written as such rows. -/
theorem Task.SameButTitle.row {t u : Task} (h : t.SameButTitle u) (id : Int64) :
    (Row.ofCells id t.cells).SameButTitle (.ofCells id u.cells) where
  others f hf := by
    by_cases hid : f = .id
    · rw [hid]
      rfl
    · rw [Row.cells_ofCells _ _ f hid, Row.cells_ofCells _ _ f hid, Task.cells, Task.cells,
        h.get_eq hf]
  title := .inr ⟨t.title, u.title, rfl, rfl, h.blank⟩

/-! ### Tables but for their titles -/

namespace Tables

/-- Two tables are **the same but for titles**. -/
structure SameButTitles (s s' : Tables) : Prop where
  rows : List.Forall₂ Row.SameButTitle s.tasks.rows s'.tasks.rows
  recurring : s.recurring = s'.recurring

variable {s s' : Tables} {t u : Task}

/-- What a statement answers and the tables that it leaves behind, in relation. -/
def Answered {α β : Type} (A : α → β → Prop) (x : α × Tables) (y : β × Tables) : Prop :=
  A x.1 y.1 ∧ x.2.SameButTitles y.2

/-- A row that is new to both tables, or to neither, is inserted in both or in neither. -/
theorem insert?_alike (h : s.SameButTitles s') {r q : Row} (hrq : r.SameButTitle q) :
    (s.tasks.insert? r = none ∧ s'.tasks.insert? q = none) ∨
      ∃ tasks tasks', s.tasks.insert? r = some tasks ∧ s'.tasks.insert? q = some tasks' ∧
        List.Forall₂ Row.SameButTitle tasks.rows tasks'.rows := by
  have hids := Row.SameButTitle.map_id_eq h.rows
  have hfresh : (∀ a ∈ s.tasks.rows, a.id ≠ r.id) ↔ ∀ a ∈ s'.tasks.rows, a.id ≠ q.id := by
    have hmap (rows : List Row) (id : Int64) :
        (∀ a ∈ rows, a.id ≠ id) ↔ id ∉ rows.map Row.id := by
      simp only [List.mem_map, not_exists, not_and, ne_eq]
    rw [hmap, hmap, hids, hrq.id_eq]
  by_cases fresh : ∀ a ∈ s.tasks.rows, a.id ≠ r.id
  · exact .inr ⟨_, _, dif_pos fresh, dif_pos (hfresh.mp fresh), hrq.place h.rows⟩
  · exact .inl ⟨dif_neg fresh, dif_neg (mt hfresh.mpr fresh)⟩

/-- Both rows refer to recurring tasks that exist, or neither does. -/
theorem refers_alike (h : s.SameButTitles s') {r q : Row} (hrq : r.SameButTitle q) :
    s.refers r.cells = s'.refers q.cells :=
  refers_congr h.recurring (hrq.others .createdFrom (by decide))

/-- An insertion gives out the same id, or it is refused for the same reason. -/
theorem insertTask_alike [Engine] (h : s.SameButTitles s') (htu : t.SameButTitle u) :
    Except.InRelation (Answered Eq) (s.insertTask t.cells) (s'.insertTask u.cells) := by
  have hchoose : Except.InRelation Eq (chooseId (s.tasks.rows.map Row.id) (t.cells .id))
      (chooseId (s'.tasks.rows.map Row.id) (u.cells .id)) := by
    have hid : t.cells .id = u.cells .id := by
      rw [Task.cells, Task.cells, htu.get_eq (by decide)]
    rw [Row.SameButTitle.map_id_eq h.rows, hid]
    exact .refl (fun _ => rfl) _
  refine hchoose.bind fun id _ hid => ?_
  subst hid
  have hcomplete : Except.InRelation Row.SameButTitle (complete id t.cells)
      (complete id u.cells) := by
    rw [complete_cells, complete_cells]
    exact htu.row id
  refine hcomplete.bind fun r q hrq => ?_
  rcases insert?_alike h hrq with ⟨hr, hq⟩ | ⟨tasks, tasks', hr, hq, hrows⟩
  · rw [hr, hq]
    exact rfl
  · rw [hr, hq, refers_alike h hrq]
    dsimp only
    split
    · exact ⟨rfl, hrows, h.recurring⟩
    · exact rfl

/-- An update finds its row or it does not, or it is refused for the same reason. -/
theorem updateTask_alike (h : s.SameButTitles s') (htu : t.SameButTitle u) (id : Int64) :
    Except.InRelation (Answered Eq) (s.updateTask id t.cells) (s'.updateTask id u.cells) := by
  have hfind : (s.tasks.find? id).isSome = (s'.tasks.find? id).isSome := by
    have hmap (rows : List Row) : (rows.map fun r => some r.id) = (rows.map Row.id).map some := by
      rw [List.map_map]
      rfl
    rw [Bool.eq_iff_iff, isSome_find?_iff, isSome_find?_iff, hmap, hmap,
      Row.SameButTitle.map_id_eq h.rows]
  have hcomplete : Except.InRelation Row.SameButTitle (complete id t.cells)
      (complete id u.cells) := by
    rw [complete_cells, complete_cells]
    exact htu.row id
  rw [updateTask, updateTask]
  cases hr : s.tasks.find? id <;> cases hq : s'.tasks.find? id <;> rw [hr, hq] at hfind
  · exact ⟨rfl, h⟩
  · cases hfind
  · cases hfind
  · refine hcomplete.bind fun r q hrq => ?_
    rw [refers_alike h hrq]
    split
    · refine ⟨rfl, ?_, h.recurring⟩
      refine List.rel_map (fun a b hab => ?_) h.rows
      rw [hab.id_eq, hrq.id_eq]
      split
      · exact hrq
      · exact hab
    · exact rfl

/-- Statements that answer alike run alike. -/
theorem write_alike {α β : Type} {A : α → β → Prop}
    {statement : Tables → Except SqlError (α × Tables)}
    {statement' : Tables → Except SqlError (β × Tables)}
    (h : ∀ s s', SameButTitles s s' →
      Except.InRelation (Answered A) (statement s) (statement' s')) :
    Alike SameButTitles A (write statement) (write statement') := by
  refine Alike.store.bind fun s s' hs => ?_
  refine (Alike.ofExcept ((h s s' hs).mapError _)).bind fun a b hab => ?_
  exact (Alike.setStore hab.2).bind fun _ _ _ => .pure hab.1

/-- Of a query there is one event, whatever it answers. -/
theorem events_query [Engine] (p : Predicate) (s : Tables) :
    (repository.query p s).events = [.querying p.clause.text p.clause.operands.length] := by
  cases hselect : s.select p with
  | error e => simp [repository, bind, Action.andThen, hselect, Except.mapError]
  | ok rows =>
      cases hread : rows.mapM fun r => Task.ofCells r.cells <;>
        simp [repository, bind, Action.andThen, hselect, hread, Except.mapError]

/-- A query that does not ask for titles selects the same rows, or it is refused. -/
theorem select_alike [Engine] (h : s.SameButTitles s') {p : Predicate} (avoids : p.AvoidsTitle) :
    Except.InRelation (List.Forall₂ Row.SameButTitle) (s.select p) (s'.select p) := by
  rw [select, select]
  cases p.fault? with
  | some e => exact rfl
  | none =>
      refine List.rel_filter (fun r q hrq => ?_) h.rows
      exact iff_of_eq (congrArg (· = true) (hrq.selects_eq avoids))

/-- A query that does not ask for titles runs alike. -/
theorem query_alike [Engine] {p : Predicate} (avoids : p.AvoidsTitle) :
    Alike SameButTitles (List.Forall₂ Task.SameButTitle) (repository.query p)
      (repository.query p) := by
  refine (Alike.record _).bind fun _ _ _ => Alike.store.bind fun s s' hs => ?_
  refine (Alike.ofExcept ((select_alike hs avoids).mapError _)).bind fun rows rows' hrows => ?_
  exact .ofExcept (.mapM hrows fun _ _ hrq => hrq.ofCells)

/-- Queries of one shape write the same event and change nothing. -/
theorem query_asked [Engine] {p q : Predicate} (h : p.SameShape q) (hs : s.SameButTitles s') :
    (repository.query p s).events = (repository.query q s').events ∧
      (repository.query p s).store.SameButTitles (repository.query q s').store := by
  obtain ⟨htext, hlength⟩ := h.clause
  rw [events_query, events_query, htext, hlength, store_query, store_query]
  exact ⟨rfl, hs⟩

/-- **The tables are discreet.** -/
theorem discreet [Engine] : repository.Discreet SameButTitles where
  insert := by
    intro t u h
    refine (h.validate_alike _).bind fun _ _ _ => ?_
    rw [h.id_eq]
    cases u.id with
    | some id => exact .fail _
    | none =>
        refine (write_alike fun _ _ hs => insertTask_alike hs h).bind fun id _ hid => ?_
        subst hid
        exact .pure (h.withId (some id))
  update := by
    intro t u h
    refine (h.validate_alike _).bind fun _ _ _ => ?_
    rw [h.id_eq]
    cases u.id with
    | none => exact .fail _
    | some id =>
        refine (write_alike fun _ _ hs => updateTask_alike hs h id).bind fun found _ hfound => ?_
        subst hfound
        cases found with
        | true => exact .pure rfl
        | false => exact .fail _
  query := query_alike
  asked := query_asked

/-- **A database that cannot be written is discreet.** -/
theorem discreet_frozen [Engine] (obstacle : SqlError) :
    (frozenRepository obstacle).Discreet SameButTitles where
  insert := by
    intro t u h
    refine (h.validate_alike _).bind fun _ _ _ => ?_
    rw [h.id_eq]
    cases u.id <;> exact .fail _
  update := by
    intro t u h
    refine (h.validate_alike _).bind fun _ _ _ => ?_
    rw [h.id_eq]
    cases u.id <;> exact .fail _
  query := query_alike
  asked := query_asked

end Tables

end Taskbook
