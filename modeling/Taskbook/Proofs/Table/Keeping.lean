import Taskbook.Proofs.Query.Agreement
import Taskbook.Proofs.Store.Keyed
import Taskbook.Proofs.Table.Codec
import Taskbook.Table.Tables

/-!
# Tables That Keep Tasks

A table keeps a list of tasks if its rows are read as these tasks, row by row. This module says
what the three operations do to the list: a query filters it, an insertion appends to it and an
update replaces in it. The cells of a task are what the columns keep unchanged, so writing a
task and reading it back loses nothing, and the order of the rows by their ids is the order of
the list, because a fresh id is greater than all others.

## Room convention

A fresh id is one after the greatest while all ids are *below the last* id of all. There is *room*
in a table if the fresh id is below the last one, too. Where the last id is taken the fresh id may
be any free one, and then a new row need not come last.

## Main results

* `Tables.Keeps.query_eq_truth`, `query_eq`: **a query filters the list**, for a predicate that is
  not refused, by its truth over the rows, which memory may agree with;
* `Tables.insert_of_belowLast`, `Keeps.insert_eq`: **an insertion appends** under the fresh id,
  below the last id of all;
* `Tables.update_of_mem`, `Keeps.update_eq`: **an update replaces** the task with the id.
-/

namespace Taskbook

/-! ### Rows -/

namespace Row

/-- A row is **read as** a task. -/
def Reads (r : Row) (t : Task) : Prop :=
  Task.ofCells r.cells = .ok t

/-- A row is read as the task whose cells it holds, if the title is not blank. -/
theorem reads_iff {r : Row} {t : Task} :
    r.Reads t ↔ Text.isBlankText t.title = false ∧ t.cells = r.cells :=
  Task.ofCells_eq_ok_iff

/-- The task that a row is read as has its id. -/
theorem Reads.id_eq {r : Row} {t : Task} (h : r.Reads t) : t.id = some r.id := by
  obtain ⟨-, hcells⟩ := reads_iff.mp h
  have hid : t.cells .id = .integer r.id := by rw [hcells]; rfl
  cases ht : t.id with
  | none =>
      have hnull : t.cells .id = .null := by rw [Task.cells, Task.get, ht]; rfl
      rw [hnull] at hid
      cases hid
  | some n =>
      have hn : t.cells .id = .integer n := by rw [Task.cells, Task.get, ht]; rfl
      rw [hn] at hid
      rw [Cell.integer.inj hid]

/-- The ids of tasks are those of the rows that they are read from. -/
theorem map_id_of_reads {rows : List Row} {ts : List Task} (h : List.Forall₂ Reads rows ts) :
    ts.map Task.id = rows.map fun r => some r.id := by
  induction h with
  | nil => rfl
  | cons hread _ ih => rw [List.map_cons, List.map_cons, hread.id_eq, ih]

/-- Every task of a list is read from a row, if the rows are read as the list. -/
theorem exists_reads {rows : List Row} {ts : List Task} (h : List.Forall₂ Reads rows ts) {t : Task}
    (ht : t ∈ ts) : ∃ r ∈ rows, r.Reads t := by
  induction h with
  | nil => cases ht
  | @cons r u rows ts hread _ ih =>
      rcases List.mem_cons.mp ht with rfl | ht
      · exact ⟨r, List.mem_cons_self, hread⟩
      · obtain ⟨v, hv, hvt⟩ := ih ht
        exact ⟨v, List.mem_cons_of_mem r hv, hvt⟩

/-- A row with a greater id than all others is placed last. -/
theorem place_eq_append {r : Row} {rows : List Row} (h : ∀ s ∈ rows, s.id < r.id) :
    r.place rows = rows ++ [r] := by
  induction rows with
  | nil => rfl
  | cons s rows ih =>
      have hs : ¬r.id < s.id := by
        have hlt := h s List.mem_cons_self
        rw [Int64.lt_iff_toInt_lt] at hlt ⊢
        omega
      rw [place, if_neg hs, ih fun u hu => h u (List.mem_cons_of_mem s hu), List.cons_append]

/-- The row that is written for a task with an id holds the task's cells. -/
theorem cells_ofCells_of_id {t : Task} {id : Int64} (hid : t.id = some id) :
    (ofCells id t.cells).cells = t.cells := by
  have hcell : t.cells .id = .integer id := by rw [Task.cells, Task.get, hid]; rfl
  funext f
  by_cases hf : f = .id
  · rw [hf, hcell]
    rfl
  · exact cells_ofCells id t.cells f hf

end Row

/-! ### Cells of a task as columns keep them -/

namespace Tables

/-- The columns keep the cells of a task as they are. -/
theorem kept_cells (t : Task) : kept t.cells = t.cells := by
  funext f
  have hcells : t.cells f = (t.row f).cell := rfl
  rw [kept, hcells]
  by_cases hf : f = .title
  · subst hf
    rfl
  · have haff : f.affinity = .integer := by cases f <;> first | rfl | exact absurd rfl hf
    rw [haff]
    rcases t.row_of_ne_title hf with hrow | ⟨n, hrow⟩ <;> rw [hrow] <;> rfl

/-- No required cell of a task is missing. -/
theorem missingColumn?_cells (t : Task) : missingColumn? t.cells = none := by
  rw [missingColumn?, List.find?_eq_none]
  intro f _
  cases f <;> simp [Field.required, Task.cells, Task.get, Value.stored, Stored.cell]

/-- A task is written as the row of its cells. -/
theorem complete_cells (id : Int64) (t : Task) :
    complete id t.cells = .ok (.ofCells id t.cells) := by
  rw [complete, kept_cells, missingColumn?_cells]

/-- A statement that runs leaves its store behind. -/
theorem write_of_ok {α : Type} {statement : Tables → Except SqlError (α × Tables)} {s s' : Tables}
    {a : α} (h : statement s = .ok (a, s')) : write statement s = ⟨.ok a, s', []⟩ := by
  simp [write, bind, Action.andThen, h, Except.mapError]

/-- A statement that is refused is passed on. -/
theorem write_of_error {α : Type} {statement : Tables → Except SqlError (α × Tables)}
    {e : SqlError} (h : statement s = .error e) :
    write statement s = ⟨.error (.cause (refusal e)), s, []⟩ := by
  simp [write, bind, Action.andThen, h, Except.mapError]

/-! ### Fresh ids -/

/-- A fresh id is one after the greatest, while that is in range. -/
theorem freshId_of_next [Engine] {ids : List Int64} {n next : Int64} (hmem : n ∈ ids)
    (hmax : ∀ i ∈ ids, i.toInt ≤ n.toInt) (hnext : Number.next? n = some next) :
    freshId ids = next := by
  have hgreatest : (ids.map Int64.toInt).max? = some n.toInt := by
    rw [List.max?_eq_some_iff]
    refine ⟨List.mem_map_of_mem hmem, ?_⟩
    intro z hz
    obtain ⟨i, hi, rfl⟩ := List.mem_map.mp hz
    exact hmax i hi
  have hword : Number.word? (n.toInt + 1) = some next := hnext
  rw [freshId, hgreatest]
  simp only [hword, Option.getD_some]

/-- A list of ids has a greatest one, or it is empty. -/
theorem exists_greatest (ids : List Int64) :
    ids = [] ∨ ∃ n ∈ ids, ∀ i ∈ ids, i.toInt ≤ n.toInt := by
  cases hmax : (ids.map Int64.toInt).max? with
  | none =>
      rw [List.max?_eq_none_iff, List.map_eq_nil_iff] at hmax
      exact .inl hmax
  | some z =>
      obtain ⟨hz, hle⟩ := List.max?_eq_some_iff.mp hmax
      obtain ⟨n, hn, rfl⟩ := List.mem_map.mp hz
      exact .inr ⟨n, hn, fun i hi => hle _ (List.mem_map_of_mem hi)⟩

/-- The id that a new row is given. -/
def nextId [Engine] (s : Tables) : Int64 :=
  freshId (s.tasks.rows.map Row.id)

/-- All ids are **below the last** id of all. -/
def BelowLast (s : Tables) : Prop :=
  ∀ r ∈ s.tasks.rows, r.id.toInt < Int64.maxValue.toInt

instance (s : Tables) : Decidable s.BelowLast :=
  inferInstanceAs (Decidable (∀ r ∈ s.tasks.rows, r.id.toInt < Int64.maxValue.toInt))

/-- Below the last id the fresh id is one, if there are no rows, or one after the greatest. -/
theorem BelowLast.nextId_cases [Engine] {s : Tables} (below : s.BelowLast) :
    s.tasks.rows = [] ∧ s.nextId = 1 ∨
      ∃ r ∈ s.tasks.rows, (∀ q ∈ s.tasks.rows, q.id.toInt ≤ r.id.toInt) ∧
        s.nextId.toInt = r.id.toInt + 1 := by
  rcases exists_greatest (s.tasks.rows.map Row.id) with hempty | ⟨n, hn, hmax⟩
  · have hrows : s.tasks.rows = [] := List.map_eq_nil_iff.mp hempty
    rw [nextId, hrows]
    exact .inl ⟨rfl, rfl⟩
  · obtain ⟨r, hr, rfl⟩ := List.mem_map.mp hn
    obtain ⟨next, hnext, hsucc⟩ := Number.exists_next? (below r hr)
    rw [nextId, freshId_of_next hn hmax hnext]
    exact .inr ⟨r, hr, fun q hq => hmax q.id (List.mem_map_of_mem hq), hsucc⟩

/-- Below the last id the fresh id is greater than all others. -/
theorem BelowLast.lt_nextId [Engine] {s : Tables} (below : s.BelowLast) :
    ∀ r ∈ s.tasks.rows, r.id.toInt < s.nextId.toInt := by
  intro r hr
  rcases below.nextId_cases with ⟨hrows, -⟩ | ⟨q, -, hmax, hnext⟩
  · rw [hrows] at hr
    cases hr
  · have hle := hmax r hr
    omega

/-- There is **room** for a new row: the id after the greatest is below the last id of all. -/
def HasRoom (s : Tables) : Prop :=
  ∀ r ∈ s.tasks.rows, r.id.toInt + 1 < Int64.maxValue.toInt

instance (s : Tables) : Decidable s.HasRoom :=
  inferInstanceAs (Decidable (∀ r ∈ s.tasks.rows, r.id.toInt + 1 < Int64.maxValue.toInt))

/-- Where there is room, all ids are below the last. -/
theorem HasRoom.belowLast {s : Tables} (room : s.HasRoom) : s.BelowLast := by
  intro r hr
  have hroom := room r hr
  omega

/-- Where there is room, the fresh id is greater than all others and not the last of all. -/
theorem HasRoom.nextId_spec [Engine] {s : Tables} (room : s.HasRoom) :
    (∀ r ∈ s.tasks.rows, r.id.toInt < s.nextId.toInt) ∧
      s.nextId.toInt < Int64.maxValue.toInt := by
  refine ⟨room.belowLast.lt_nextId, ?_⟩
  rcases room.belowLast.nextId_cases with ⟨-, hone⟩ | ⟨r, hr, -, hnext⟩
  · rw [hone]
    decide
  · rw [hnext]
    exact room r hr

/-! ### Querying -/

/-- The rows that a predicate **selects**. -/
def selected [Engine] (s : Tables) (p : Predicate) : List Row :=
  s.tasks.rows.filter fun r => p.selects r.cells

/-- A query that is not refused reads the selected rows, one after the other. -/
theorem query_of_accepted [Engine] {p : Predicate} (accepted : p.fault? = none) (s : Tables) :
    ∃ events, repository.query p s =
      ⟨((s.selected p).mapM fun r => Task.ofCells r.cells).mapError .cause, s, events⟩ := by
  have hselect : s.select p = .ok (s.selected p) := by
    rw [select, accepted]
    rfl
  refine ⟨[.querying p.clause.text p.clause.operands.length], ?_⟩
  cases hread : (s.selected p).mapM fun r => Task.ofCells r.cells <;>
    simp [repository, bind, Action.andThen, hselect, hread, Except.mapError]

/-! ### Writing back a row -/

/-- A row is found under an id if there is one with the id. -/
theorem isSome_find?_iff {s : Tables} {id : Int64} :
    (s.tasks.find? id).isSome = true ↔ some id ∈ s.tasks.rows.map fun r => some r.id := by
  rw [TaskTable.find?, List.find?_isSome, List.mem_map]
  simp only [beq_iff_eq, Option.some.injEq]

/-- The statement of an update finds no row, or it writes one unless that would refer to a recurring
task that does not exist. -/
theorem updateTask_eq {t : Task} {id : Int64} (hid : t.id = some id) (s : Tables) :
    s.updateTask id t.cells =
      if (s.tasks.find? id).isSome then
        if s.refers t.cells then
          .ok (true, { s with tasks := s.tasks.replace (.ofCells id t.cells) })
        else .error .foreignKey
      else .ok (false, s) := by
  rw [updateTask]
  cases s.tasks.find? id with
  | none => rfl
  | some r =>
      rw [complete_cells]
      show (if s.refers (Row.ofCells id t.cells).cells then _ else _) = _
      rw [Row.cells_ofCells_of_id hid]
      rfl

/-- Writing back a task that may be stored runs the statement for its id. -/
theorem update_eq [Engine] {t : Task} {id : Int64} (hid : t.id = some id)
    (htitle : Text.isBlankText t.title = false) (s : Tables) :
    repository.update t s =
      (write (fun s => s.updateTask id t.cells) >>= fun found =>
        if found then pure () else Action.fail (.notFound id)) s := by
  have hvalid : t.validate = .ok () := t.validate_eq_ok_iff.mpr htitle
  simp only [repository, hvalid, hid]
  rfl

/-- An update writes the cells of a task to the row with its id, whatever the other rows are. -/
theorem update_of_mem [Engine] {s : Tables} {r : Row} (hr : r ∈ s.tasks.rows) {t : Task}
    (hid : t.id = some r.id) (htitle : Text.isBlankText t.title = false)
    (hrefers : s.refers t.cells = true) :
    repository.update t s =
      ⟨.ok (), { s with tasks := s.tasks.replace (.ofCells r.id t.cells) }, []⟩ := by
  have hupdate := updateTask_eq hid s
  rw [if_pos (isSome_find?_iff.mpr (List.mem_map_of_mem hr)), if_pos hrefers] at hupdate
  rw [update_eq hid htitle, Action.bind_of_ok (write_of_ok hupdate)]
  rfl

/-! ### Inserting a row -/

/-- Whether a row refers to a recurring task that exists is a matter of one cell. -/
theorem refers_congr {s s' : Tables} {c d : Cells} (hs : s'.recurring = s.recurring)
    (h : c .createdFrom = d .createdFrom) : s'.refers c = s.refers d := by
  rw [refers, refers, h, hs]

/-- An insertion goes through the checks one after the other. -/
theorem insertTask_eq [Engine] {s : Tables} {cells : Cells} {id : Int64} {row : Row}
    {tasks : TaskTable} (hchoose : chooseId (s.tasks.rows.map Row.id) (cells .id) = .ok id)
    (hcomplete : complete id cells = .ok row) (hinsert : s.tasks.insert? row = some tasks)
    (hrefers : s.refers row.cells = true) :
    s.insertTask cells = .ok (id, { s with tasks := tasks }) := by
  simp only [insertTask, hchoose, hcomplete, hinsert, hrefers, bind, Except.bind, if_true]

/-- Below the last id an insertion appends a row with the cells of the task, whatever the other rows
are. -/
theorem insert_of_belowLast [Engine] {s : Tables} (below : s.BelowLast) {t : Task}
    (hid : t.id = none) (htitle : Text.isBlankText t.title = false)
    (hrefers : s.refers t.cells = true) :
    ∃ s', repository.insert t s = ⟨.ok { t with id := some s.nextId }, s', []⟩ ∧
      s'.recurring = s.recurring ∧
      s'.tasks.rows = s.tasks.rows ++ [.ofCells s.nextId t.cells] := by
  have hgreater := below.lt_nextId
  have hvalid : t.validate = .ok () := t.validate_eq_ok_iff.mpr htitle
  have hchoose : chooseId (s.tasks.rows.map Row.id) (t.cells .id) = .ok s.nextId := by
    have hnull : t.cells .id = .null := by rw [Task.cells, Task.get, hid]; rfl
    rw [chooseId, hnull]
    rfl
  have hfresh : ∀ r ∈ s.tasks.rows, r.id ≠ (Row.ofCells s.nextId t.cells).id := by
    intro r hr heq
    have hlt := hgreater r hr
    rw [heq, Row.id_ofCells] at hlt
    omega
  have hrow : s.refers (Row.ofCells s.nextId t.cells).cells = true := by
    rw [refers_congr rfl (Row.cells_ofCells _ _ _ (by decide)), hrefers]
  have hplace : (Row.ofCells s.nextId t.cells).place s.tasks.rows =
      s.tasks.rows ++ [.ofCells s.nextId t.cells] :=
    Row.place_eq_append fun r hr => Int64.lt_iff_toInt_lt.mpr (hgreater r hr)
  obtain ⟨tasks, htasks, hrows⟩ : ∃ tasks,
      s.tasks.insert? (.ofCells s.nextId t.cells) = some tasks ∧
        tasks.rows = s.tasks.rows ++ [.ofCells s.nextId t.cells] :=
    ⟨_, dif_pos hfresh, hplace⟩
  have hinsert := insertTask_eq hchoose (complete_cells _ t) htasks hrow
  refine ⟨{ s with tasks := tasks }, ?_, rfl, hrows⟩
  simp only [repository, hvalid, hid]
  show (write (fun s => s.insertTask t.cells) >>= fun id =>
    pure ({ t with id := some id } : Task)) s = _
  rw [Action.bind_of_ok (write_of_ok hinsert)]
  rfl

/-! ### Tables that keep a list of tasks -/

/-- The rows of the table are read as the tasks of a list, one by one. -/
def Keeps (s : Tables) (ts : List Task) : Prop :=
  List.Forall₂ Row.Reads s.tasks.rows ts

/-- A table keeps the list as which all its rows are read. -/
theorem keeps_iff {s : Tables} {ts : List Task} :
    s.Keeps ts ↔ s.tasks.rows.mapM (fun r => Task.ofCells r.cells) = .ok ts :=
  mapM_eq_ok_iff.symm

/-- Every row refers to a recurring task that exists, if it refers to one. -/
def Closed (s : Tables) : Prop :=
  ∀ r ∈ s.tasks.rows, s.refers r.cells = true

instance (s : Tables) : Decidable s.Closed :=
  inferInstanceAs (Decidable (∀ r ∈ s.tasks.rows, s.refers r.cells = true))

namespace Keeps

variable {s : Tables} {ts : List Task}

/-- The ids of the tasks are those of the rows. -/
theorem map_id (h : s.Keeps ts) : ts.map Task.id = s.tasks.rows.map fun r => some r.id :=
  Row.map_id_of_reads h

/-- **The tasks that a table keeps are keyed.** -/
theorem keyed (h : s.Keeps ts) : Keyed ts where
  identified := by
    intro t ht
    have hmem : t.id ∈ ts.map Task.id := List.mem_map_of_mem ht
    rw [h.map_id] at hmem
    obtain ⟨r, -, hr⟩ := List.mem_map.mp hmem
    exact ⟨r.id, hr.symm⟩
  distinct := by
    rw [h.map_id, List.nodup_iff_pairwise_ne, List.pairwise_map]
    refine s.tasks.ascending.imp fun {a b} hlt heq => ?_
    rw [Option.some.inj heq] at hlt
    exact Int64.lt_irrefl hlt

/-- Every task that is kept is read from a row. -/
theorem exists_reads (h : s.Keeps ts) {t : Task} (ht : t ∈ ts) :
    ∃ r ∈ s.tasks.rows, r.Reads t :=
  Row.exists_reads h ht

/-! ### Querying a list -/

/-- A query filters the list by the truth of the predicate over the rows. The predicate must not
be refused and must find ids exactly. -/
theorem query_eq_truth [Engine] (h : s.Keeps ts) {p : Predicate} (accepted : p.fault? = none)
    (finds : ∀ r ∈ s.tasks.rows, p.FindsExactly (.integer r.id)) :
    ∃ events, repository.query p s =
      ⟨.ok (ts.filter fun t => p.truth t.cells == .yes), s, events⟩ := by
  have hrows : (s.selected p).mapM (fun r => Task.ofCells r.cells) =
      .ok (ts.filter fun t => p.truth t.cells == .yes) := by
    refine mapM_eq_ok_iff.mpr (forall₂_filter h fun r hr t hread => ?_)
    rw [Predicate.selects_eq (finds r hr), (Row.reads_iff.mp hread).2]
  obtain ⟨events, hquery⟩ := query_of_accepted accepted s
  rw [hrows] at hquery
  exact ⟨events, hquery⟩

/-- **A query filters the list** by what holds in memory, if memory and tables agree. -/
theorem query_eq [Engine] (h : s.Keeps ts) {p : Predicate} (accepted : p.fault? = none)
    (finds : ∀ r ∈ s.tasks.rows, p.FindsExactly (.integer r.id)) (agrees : ∀ t ∈ ts, p.Agrees t) :
    ∃ events, repository.query p s = ⟨.ok (ts.filter p.holds), s, events⟩ := by
  have hfilter : ts.filter p.holds = ts.filter fun t => p.truth t.cells == .yes :=
    List.filter_congr agrees
  rw [hfilter]
  exact h.query_eq_truth accepted finds

/-- A refused query answers the refusal and changes nothing. -/
theorem query_eq_of_fault [Engine] {p : Predicate} {e : SqlError} (refused : p.fault? = some e)
    (s : Tables) :
    ∃ events, repository.query p s = ⟨.error (.cause (refusal e)), s, events⟩ := by
  have hselect : s.select p = .error e := by rw [select, refused]
  refine ⟨[.querying p.clause.text p.clause.operands.length], ?_⟩
  simp [repository, bind, Action.andThen, hselect, Except.mapError]

/-! ### Inserting -/

/-- A task that is written under a fresh id is kept behind the others. -/
theorem append (h : s.Keeps ts) {s' : Tables} {t : Task} {id : Int64}
    (htitle : Text.isBlankText t.title = false)
    (hrows : s'.tasks.rows = s.tasks.rows ++ [.ofCells id t.cells]) :
    s'.Keeps (ts ++ [{ t with id := some id }]) := by
  have hcells : (Row.ofCells id t.cells).cells = ({ t with id := some id } : Task).cells :=
    Row.cells_ofCells_of_id (t := { t with id := some id }) rfl
  rw [Keeps, hrows]
  exact List.rel_append h (.cons (Row.reads_iff.mpr ⟨htitle, hcells.symm⟩) .nil)

/-- **An insertion appends** the task under the fresh id, where there is room. -/
theorem insert_eq [Engine] (h : s.Keeps ts) (room : s.HasRoom) {t : Task} (hid : t.id = none)
    (hfrom : t.createdFrom = none) (htitle : Text.isBlankText t.title = false) :
    ∃ s', repository.insert t s = ⟨.ok { t with id := some s.nextId }, s', []⟩ ∧
      s'.Keeps (ts ++ [{ t with id := some s.nextId }]) ∧ s'.recurring = s.recurring ∧
      s'.tasks.rows = s.tasks.rows ++ [.ofCells s.nextId t.cells] := by
  have hrefers : s.refers t.cells = true := by
    rw [refers, Task.cells, Task.get, hfrom]
    rfl
  obtain ⟨s', hinsert, hrecurring, hrows⟩ := insert_of_belowLast room.belowLast hid htitle hrefers
  exact ⟨s', hinsert, h.append htitle hrows, hrecurring, hrows⟩

/-- The next id follows an appended row. -/
theorem nextId_of_append [Engine] {s s' : Tables} (room : s.HasRoom) {r : Row} {next : Int64}
    (hid : r.id = s.nextId) (hrows : s'.tasks.rows = s.tasks.rows ++ [r])
    (hnext : Number.next? s.nextId = some next) : s'.nextId = next := by
  obtain ⟨hgreater, -⟩ := room.nextId_spec
  rw [nextId, hrows, List.map_append, List.map_singleton]
  refine freshId_of_next (n := r.id) ?_ ?_ (hid.symm ▸ hnext)
  · exact List.mem_append_right _ (List.mem_singleton_self _)
  · intro i hi
    rcases List.mem_append.mp hi with hi | hi
    · obtain ⟨u, hu, rfl⟩ := List.mem_map.mp hi
      have hlt := hgreater u hu
      rw [hid]
      omega
    · exact Int.le_of_eq (congrArg Int64.toInt (List.mem_singleton.mp hi))

/-! ### Updating -/

/-- **An update replaces** the task with the id, if it refers to what that task refers to. -/
theorem update_eq [Engine] (h : s.Keeps ts) (closed : s.Closed) {t u : Task} {id : Int64}
    (hu : u ∈ ts) (huid : u.id = some id) (hid : t.id = some id)
    (hfrom : t.createdFrom = u.createdFrom) (htitle : Text.isBlankText t.title = false) :
    ∃ s', repository.update t s = ⟨.ok (), s', []⟩ ∧
      s'.Keeps (ts.map fun v => if v.id = some id then t else v) ∧ s'.Closed ∧
      s'.nextId = s.nextId := by
  obtain ⟨r, hr, hread⟩ := h.exists_reads hu
  obtain rfl : r.id = id := Option.some.inj (hread.id_eq.symm.trans huid)
  have hcells : (Row.ofCells r.id t.cells).cells = t.cells := Row.cells_ofCells_of_id hid
  have hrefers : s.refers t.cells = true := by
    have hsame : t.cells .createdFrom = r.cells .createdFrom := by
      rw [← (Row.reads_iff.mp hread).2, Task.cells, Task.cells, Task.get, Task.get, hfrom]
    rw [refers_congr rfl hsame]
    exact closed r hr
  refine ⟨{ s with tasks := s.tasks.replace (.ofCells r.id t.cells) }, ?_, ?_, ?_, ?_⟩
  · exact update_of_mem hr hid htitle hrefers
  · rw [Keeps, TaskTable.replace, List.forall₂_map_left_iff, List.forall₂_map_right_iff]
    refine List.Forall₂.imp ?_ h
    intro v w hvw
    rw [hvw.id_eq, Row.id_ofCells]
    by_cases hv : v.id = r.id
    · rw [if_pos hv, if_pos (congrArg some hv)]
      exact Row.reads_iff.mpr ⟨htitle, hcells.symm⟩
    · rw [if_neg hv, if_neg fun hsome => hv (Option.some.inj hsome)]
      exact hvw
  · intro v hv
    obtain ⟨w, hw, rfl⟩ := List.mem_map.mp hv
    by_cases hwid : w.id = (Row.ofCells r.id t.cells).id
    · rw [if_pos hwid, hcells]
      exact hrefers
    · rw [if_neg hwid]
      exact closed w hw
  · rw [nextId, nextId, TaskTable.replace, List.map_map]
    congr 1
    refine List.map_congr_left fun w _ => ?_
    by_cases hwid : w.id = (Row.ofCells r.id t.cells).id
    · rw [Function.comp_apply, if_pos hwid, hwid]
    · rw [Function.comp_apply, if_neg hwid]

end Keeps

end Tables

end Taskbook
