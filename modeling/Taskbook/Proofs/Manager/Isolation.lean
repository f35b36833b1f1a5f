import Taskbook.Proofs.Manager.Ledger
import Taskbook.Proofs.Table.Faults
import Taskbook.Proofs.Table.Keeping

/-!
# Corrupt Rows Are Isolated

A table may hold rows that are no tasks. The manager can change a task all the same as long as its
own row is read: it asks for the rows with one id, and there is no other such row. A change reads
the task, replaces one field and writes seven columns back, yet only one of them comes out
different. That is because reading a row is the inverse of writing it, so six of the cells that are
written are the ones that stood there.

If the row itself is not read, the manager passes on its fault and writes nothing.

## Write convention

What a change of a task comes to in a table is one *cell write*: a row, a column and the cell that
is to stand there. An instant is written as its milliseconds, a priority as its code, and the
instant that a reopened task was done at as a null.

## Main results

* `Tables.selected_hasId`: an id selects **its row and no other**, whatever is in the rows;
* `Session.change_writes_one_cell`: **a change is one cell write**, if the row of the task is read
  and if not, nothing.
-/

namespace Taskbook

/-! ### Cell writes -/

/-- The write of one cell: which row, which column, and what is to stand there. -/
structure CellWrite where
  id : Int64
  field : Field
  cell : Cell
  deriving DecidableEq

/-- A row **turns into** another one by a cell write: the two hold the same in every column, except
that the column that is written holds the new cell if the row is the one that is meant. -/
def CellWrite.Turns (w : CellWrite) (r r' : Row) : Prop :=
  ∀ f, r'.cells f = if r.id = w.id ∧ f = w.field then w.cell else r.cells f

/-- The cell write that a step comes to, if it changes a task. -/
def Step.write? (now : Instant) : Step → Option CellWrite
  | markDone id => some ⟨id, .doneOn, .integer now.millis⟩
  | reopen id => some ⟨id, .doneOn, .null⟩
  | postpone id until_ => some ⟨id, .postponedUntil, .integer until_.millis⟩
  | reprioritize id priority => some ⟨id, .priority, .integer priority.code⟩
  | _ => none

namespace Step

variable {now : Instant} {step : Step} {w : CellWrite}

/-- A step that writes a cell is a change of the task with the id. -/
theorem take_of_write {σ : Type} (repo : Repository σ) {s : Session σ}
    (hw : step.write? s.clock = some w) :
    ∃ change, step.take repo s =
      s.manage (fun _ => .done) (Manager.modify repo w.id change (step.alteration s.clock)) := by
  cases step <;> cases hw <;> exact ⟨_, rfl⟩

/-- A change replaces the content of one column and of no other. -/
theorem cells_alteration (hw : step.write? now = some w) (t : Task) (f : Field) :
    (step.alteration now t).cells f = if f = w.field then w.cell else t.cells f := by
  cases step <;> cases hw <;> cases f <;> rfl

end Step

/-! ### The row with an id -/

/-- Asking a row for an id is comparing the two ids. -/
theorem Predicate.selects_hasId [Engine] (id : Int64) (r : Row) :
    (hasId id).selects r.cells = (r.id == id) := by
  have hcolumn : Field.column? Field.id.name = some .id := by decide
  have htruth : (hasId id).truth r.cells =
      .ofBool (compare r.id.toInt id.toInt == .eq) := by
    simp only [hasId, truth, Condition.truth, hcolumn]
    rfl
  have hcompare : (compare r.id.toInt id.toInt == .eq) = (r.id == id) := by
    rw [Bool.eq_iff_iff, beq_iff_eq, beq_iff_eq, Int.compare_eq_eq, Int64.toInt_inj]
  rw [selects_eq ((plain_hasId id).findsExactly _), htruth, hcompare]
  cases r.id == id <;> rfl

namespace Tables

/-- **An id selects its row and no other.** -/
theorem selected_hasId [Engine] {s : Tables} {r : Row} (hr : r ∈ s.tasks.rows) :
    s.selected (.hasId r.id) = [r] := by
  have hselects : (fun q : Row => (Predicate.hasId r.id).selects q.cells) = fun q => q.id == r.id :=
    funext fun q => Predicate.selects_hasId r.id q
  rw [selected, hselects]
  have hasc := s.tasks.ascending
  generalize s.tasks.rows = rows at hr hasc
  induction rows with
  | nil => cases hr
  | cons q rows ih =>
      obtain ⟨hlt, hasc⟩ := List.pairwise_cons.mp hasc
      rcases List.mem_cons.mp hr with rfl | hr
      · have hothers : rows.filter (fun q => q.id == r.id) = [] := by
          rw [List.filter_eq_nil_iff]
          intro q hq heq
          have hless := hlt q hq
          rw [beq_iff_eq.mp heq] at hless
          exact Int64.lt_irrefl hless
        rw [List.filter_cons, if_pos (beq_self_eq_true r.id), hothers]
      · have hne : ¬(q.id == r.id) = true := by
          intro heq
          have hless := hlt r hr
          rw [beq_iff_eq.mp heq] at hless
          exact Int64.lt_irrefl hless
        rw [List.filter_cons, if_neg hne, ih hr hasc]

/-- A query for an id reads the row with the id. -/
theorem query_hasId [Engine] {s : Tables} {r : Row} (hr : r ∈ s.tasks.rows) :
    ∃ events, repository.query (.hasId r.id) s =
      ⟨((Task.ofCells r.cells).map fun t => [t]).mapError .cause, s, events⟩ := by
  obtain ⟨events, hquery⟩ := query_of_accepted (Predicate.plain_hasId r.id).fault? s
  have hread : [r].mapM (fun r => Task.ofCells r.cells) =
      (Task.ofCells r.cells).map fun t => [t] := by
    cases h : Task.ofCells r.cells <;> simp [h, Except.map, bind, Except.bind, pure, Except.pure]
  rw [selected_hasId hr, hread] at hquery
  exact ⟨events, hquery⟩

end Tables

/-! ### Changes of tasks -/

namespace Manager

variable {s : Tables} {r : Row}

/-- **Getting a task** whose row is read. -/
theorem get_of_reads [Engine] (hr : r ∈ s.tasks.rows) {t : Task} (hread : r.Reads t) :
    ∃ events, get Tables.repository r.id s = ⟨.ok t, s, events⟩ := by
  obtain ⟨events, hquery⟩ := Tables.query_hasId hr
  have hcells : Task.ofCells r.cells = .ok t := hread
  rw [hcells] at hquery
  rw [get_eq, Action.bind_of_ok (lift_eq_of_ok hquery)]
  exact ⟨_, rfl⟩

/-- **Getting a task** whose row is not read is refused for the fault of the row. -/
theorem get_of_fault [Engine] (hr : r ∈ s.tasks.rows) {fault : RepoError}
    (hfault : r.fault? = some fault) :
    ∃ events, get Tables.repository r.id s = ⟨.error (.cause (.ofRepo fault)), s, events⟩ := by
  obtain ⟨events, hquery⟩ := Tables.query_hasId hr
  rw [Row.fault?_eq_some_iff.mp hfault] at hquery
  rw [get_eq, Action.bind_of_error (lift_eq_of_error hquery)]
  exact ⟨_, rfl⟩

/-- **Changing a task** whose row is read writes it back, if the change leaves alone which task it
is, how it is called and which recurring task it refers to. -/
theorem modify_of_reads [Engine] (hr : r ∈ s.tasks.rows) {t : Task} (hread : r.Reads t)
    (hrefers : s.refers r.cells = true) {f : Task → Task} (hid : (f t).id = t.id)
    (htitle : (f t).title = t.title) (hfrom : (f t).createdFrom = t.createdFrom)
    (change : Change) :
    ∃ events, modify Tables.repository r.id change f s =
      ⟨.ok (), { s with tasks := s.tasks.replace (.ofCells r.id (f t).cells) }, events⟩ := by
  obtain ⟨hblank, hcells⟩ := Row.reads_iff.mp hread
  have hsame : s.refers (f t).cells = true := by
    have hcell : (f t).cells .createdFrom = r.cells .createdFrom := by
      rw [← hcells, Task.cells, Task.cells, Task.get, Task.get, hfrom]
    rw [Tables.refers_congr rfl hcell]
    exact hrefers
  obtain ⟨events, hget⟩ := get_of_reads hr hread
  have hupdate := Tables.update_of_mem hr (hid.trans hread.id_eq) (htitle.symm ▸ hblank) hsame
  rw [modify, Action.bind_of_ok hget, Action.bind_of_ok (lift_eq_of_ok hupdate)]
  exact ⟨_, rfl⟩

end Manager

/-- The fault of a row is passed on as it is: it is never that a task was not found. -/
theorem ManagerError.ofRepo_of_fault {r : Row} {fault : RepoError} (h : r.fault? = some fault) :
    ofRepo fault = .repo fault := by
  rw [Row.fault?] at h
  split at h
  · obtain rfl := Option.some.inj h
    rfl
  · split at h
    · obtain rfl := Option.some.inj h
      rfl
    · cases h

namespace Tables

/-- Two rows with one id are one row. -/
theorem eq_of_id_eq {s : Tables} {q r : Row} (hq : q ∈ s.tasks.rows) (hr : r ∈ s.tasks.rows)
    (hid : q.id = r.id) : q = r := by
  have distinct : (s.tasks.rows.map Row.id).Nodup := by
    rw [List.nodup_iff_pairwise_ne, List.pairwise_map]
    exact s.tasks.ascending.imp Int64.ne_of_lt
  exact List.inj_on_of_nodup_map distinct hq hr hid

/-- Writing back a changed task is a cell write in its row and leaves the other rows alone. -/
theorem replace_turns {s : Tables} {r : Row} (hr : r ∈ s.tasks.rows) {t : Task} (hread : r.Reads t)
    {now : Instant} {step : Step} {w : CellWrite} (hw : step.write? now = some w)
    (hid : r.id = w.id) :
    List.Forall₂ w.Turns s.tasks.rows
      (s.tasks.replace (.ofCells r.id (step.alteration now t).cells)).rows := by
  rw [TaskTable.replace, List.forall₂_map_right_iff, List.forall₂_same]
  intro q hq f
  rw [Row.id_ofCells]
  by_cases hqr : q.id = r.id
  · obtain rfl := eq_of_id_eq hq hr hqr
    have hkept : (step.alteration now t).id = some q.id :=
      (step.id_alteration now t).trans hread.id_eq
    rw [if_pos rfl, Row.cells_ofCells_of_id hkept, Step.cells_alteration hw,
      (Row.reads_iff.mp hread).2]
    simp only [hid, true_and]
  · have hother : ¬(q.id = w.id ∧ f = w.field) := fun h => hqr (h.1.trans hid.symm)
    rw [if_neg hqr, if_neg hother]

end Tables

/-- **A change is one cell write**, whatever the other rows hold.

The row with the id is read and refers to no recurring task that is missing: then the change is
done, and all that differs afterwards is the one cell of that row. The row has a fault: then the
change is refused for it, and nothing differs. -/
theorem Session.change_writes_one_cell [Engine] {s : Session Tables} {step : Step} {w : CellWrite}
    (hw : step.write? s.clock = some w) {r : Row} (hr : r ∈ s.store.tasks.rows)
    (hid : r.id = w.id) :
    let taken := step.take Tables.repository s
    ((∃ t, r.Reads t) → s.store.refers r.cells = true →
      taken.outcome = .done ∧ taken.session.clock = s.clock ∧
        taken.session.store.recurring = s.store.recurring ∧
        List.Forall₂ w.Turns s.store.tasks.rows taken.session.store.tasks.rows) ∧
    ∀ fault, r.fault? = some fault →
      taken.outcome = .refused (.repo fault) ∧ taken.session = s := by
  obtain ⟨change, htake⟩ := Step.take_of_write Tables.repository hw
  rw [htake, ← hid]
  constructor
  · rintro ⟨t, hread⟩ hrefers
    obtain ⟨events, hmodify⟩ := Manager.modify_of_reads hr hread hrefers
      (step.id_alteration s.clock t) (step.title_alteration s.clock t)
      (step.createdFrom_alteration s.clock t) change
    rw [Session.manage, Session.act, hmodify]
    exact ⟨rfl, rfl, rfl, Tables.replace_turns hr hread hw hid⟩
  · intro fault hfault
    obtain ⟨events, hget⟩ := Manager.get_of_fault hr hfault
    rw [Session.manage, Session.act, Manager.modify, Action.bind_of_error hget]
    exact ⟨congrArg Outcome.refused (ManagerError.ofRepo_of_fault hfault), rfl⟩

/-- A task between a row whose title is bytes and a row whose title is blank. Marking the task as
done at seven writes one cell; reopening the blank row is refused and writes none. -/
theorem Session.change_writes_one_cell_among_corrupt_rows :
    let _ : Engine := .scanning
    let good : Task := { id := some 2, title := "a", createdOn := ⟨5⟩ }
    let bytes : Row := { Row.ofCells 1 good.cells with title := .blob [0] }
    let blank : Row := { Row.ofCells 3 good.cells with title := .text " " }
    let s : Session Tables :=
      ⟨{ tasks := ⟨[bytes, .ofCells 2 good.cells, blank], by decide⟩, recurring := [] }, ⟨7⟩⟩
    let done := (Step.markDone 2).take Tables.repository s
    let reopened := (Step.reopen 3).take Tables.repository s
    (done.outcome = .done ∧
      List.Forall₂ (CellWrite.Turns ⟨2, .doneOn, .integer 7⟩) s.store.tasks.rows
        done.session.store.tasks.rows) ∧
    reopened.outcome = .refused (.repo (.validation .empty)) ∧ reopened.session = s := by
  intro _ good bytes blank s done reopened
  have hgood : Row.ofCells 2 good.cells ∈ s.store.tasks.rows :=
    List.mem_cons_of_mem _ List.mem_cons_self
  have hblank : blank ∈ s.store.tasks.rows :=
    List.mem_cons_of_mem _ (List.mem_cons_of_mem _ List.mem_cons_self)
  have hread : (Row.ofCells 2 good.cells).Reads good :=
    Row.reads_iff.mpr ⟨by decide, (Row.cells_ofCells_of_id rfl).symm⟩
  have hmark : (Step.markDone 2).write? s.clock = some ⟨2, .doneOn, .integer 7⟩ := rfl
  have hreopen : (Step.reopen 3).write? s.clock = some ⟨3, .doneOn, .null⟩ := rfl
  obtain ⟨hchanged, -⟩ := Session.change_writes_one_cell hmark hgood rfl
  obtain ⟨-, hrefused⟩ := Session.change_writes_one_cell hreopen hblank rfl
  obtain ⟨hdone, -, -, hturns⟩ := hchanged ⟨good, hread⟩ (by decide)
  exact ⟨⟨hdone, hturns⟩, hrefused _ (by decide)⟩

end Taskbook
