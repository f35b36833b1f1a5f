import Taskbook.Proofs.Table.Codec

/-!
# What Is Wrong with a Row

A row that is not read as a task is told by one fault, and this module says which. A cell has a
fault or has none by itself, whatever stands in the other columns: a double or bytes stand for no
value of a task, and a null, an integer or a text can be refused by the field. The fault of a row
is that of the first such column in table order. Only if every column is taken is the title looked
at, which must not be blank.

Reading goes another way about it. It writes cell after cell to a blank task and stops at the first
refusal; that a refusal does not depend on the task it is written to is what makes the two agree.

## Main results

* `Task.setCell_eq_error_iff`: a cell is refused **for what it is**;
* `Row.fault?_eq_some_iff`, `fault?_eq_none_iff`: a row is not read **for its fault**, and is read
  if it has none.
-/

namespace Taskbook

/-! ### Faults of cells and rows -/

/-- The kind of values that a field takes, as its refusals name it. -/
def Field.kind : Field → Kind
  | id | createdFrom => .integer
  | title => .text
  | priority => .priority
  | createdOn | doneOn | postponedUntil | dueDate => .timestamp

/-- What is wrong with a cell in the column of a field. -/
def Cell.fault? (f : Field) : Cell → Option DataFault
  | .real _ | .blob _ => some (.unexpectedType f)
  | .null => if f.required then some (.refused (.nullNotAllowed f)) else none
  | .text _ => if f = .title then none else some (.refused (.typeMismatch f f.kind .text))
  | .integer n =>
    if f = .title then some (.refused (.typeMismatch f f.kind .integer))
    else if f = .priority ∧ n ∉ Priority.codes.map Prod.snd then
      some (.refused (.unknownCode f n))
    else none

/-- Whether a cell is a blank text. -/
def Cell.isBlank : Cell → Bool
  | .text s => Text.isBlankText s
  | _ => false

/-- What is wrong with a row: the first faulty column in table order, or else a blank title. -/
def Row.fault? (r : Row) : Option RepoError :=
  match Field.all.findSome? fun f => (r.cells f).fault? f with
  | some fault => some (.invalidData fault)
  | none => if r.title.isBlank then some (.validation .empty) else none

/-! ### Refusals while a row is read -/

/-- What is wrong with the cell of a stored form is a refusal of the field. -/
theorem Cell.fault?_cell {f : Field} {s : Stored} {fault : DataFault}
    (h : s.cell.fault? f = some fault) : ∃ e, fault = .refused e := by
  cases s <;> simp only [Stored.cell, Cell.fault?] at h <;> split at h <;> grind

/-- A code is no priority if it is not among the codes. -/
theorem Priority.ofCode?_eq_none_iff {n : Int64} :
    ofCode? n = none ↔ n ∉ codes.map Prod.snd := by
  rw [ofCode?, Option.map_eq_none_iff, List.find?_eq_none]
  simp only [List.mem_map, beq_iff_eq, not_exists, not_and]

namespace Task

/-- A refusal is told by the fault that passes it on. -/
theorem refused_iff {x : Except FieldError Task} {fault? : Option DataFault} {d e : FieldError}
    (hx : x = .error d) (hfault : fault? = some (.refused d)) :
    x = .error e ↔ fault? = some (.refused e) := by
  rw [hx, hfault, Except.error.injEq, Option.some.injEq, DataFault.refused.injEq]

/-- Where nothing is refused there is no fault to tell. -/
theorem taken_iff {x : Except FieldError Task} {fault? : Option DataFault} {t : Task}
    {e : FieldError} (hx : x = .ok t) (hfault : fault? = none) :
    x = .error e ↔ fault? = some (.refused e) := by
  rw [hx, hfault]
  constructor <;> rintro ⟨⟩

/-- A value is refused by a field for what it is, whatever the task. -/
theorem set_eq_error_iff {t : Task} {f : Field} {s : Stored} {e : FieldError} :
    t.set f s.value = .error e ↔ s.cell.fault? f = some (.refused e) := by
  cases s with
  | null =>
      cases f with
      | title | createdOn | priority => exact refused_iff rfl rfl
      | id | doneOn | postponedUntil | createdFrom | dueDate => exact taken_iff rfl rfl
  | text s =>
      cases f with
      | title => exact taken_iff rfl rfl
      | _ => exact refused_iff rfl rfl
  | integer n =>
      cases f with
      | title => exact refused_iff rfl rfl
      | priority =>
          have hvalue : (Value.integer n).asPriority .priority =
              (Priority.ofCode? n).elim (.error (.unknownCode .priority n)) .ok := by
            rw [Value.asPriority.eq_def]
            dsimp only
            cases Priority.ofCode? n <;> rfl
          cases hcode : Priority.ofCode? n with
          | none =>
              rw [hcode] at hvalue
              have hunknown := Priority.ofCode?_eq_none_iff.mp hcode
              exact refused_iff (congrArg (Except.map _) hvalue) (if_pos ⟨rfl, hunknown⟩)
          | some p =>
              rw [hcode] at hvalue
              refine taken_iff (congrArg (Except.map _) hvalue) (if_neg ?_)
              rintro ⟨-, hunknown⟩
              rw [Priority.ofCode?_eq_none_iff.mpr hunknown] at hcode
              cases hcode
      | _ => exact taken_iff rfl rfl

/-- A cell is refused **for what it is**: the task that it is written to plays no part. -/
theorem setCell_eq_error_iff {cells : Cells} {t : Task} {f : Field} {fault : DataFault} :
    setCell cells t f = .error fault ↔ (cells f).fault? f = some fault := by
  have stored (s : Stored) (hs : cells f = s.cell) :
      setCell cells t f = .error fault ↔ (cells f).fault? f = some fault := by
    have hset : setCell cells t f = (t.set f s.value).mapError .refused := by
      rw [setCell, hs, Cell.value?_cell]
      rfl
    rw [hset, hs]
    cases h : t.set f s.value with
    | error e =>
        rw [set_eq_error_iff.mp h]
        simp [Except.mapError]
    | ok u =>
        have hnone : s.cell.fault? f = none := by
          cases hfault : s.cell.fault? f with
          | none => rfl
          | some d =>
              obtain ⟨e, rfl⟩ := Cell.fault?_cell hfault
              rw [set_eq_error_iff.mpr hfault] at h
              cases h
        simp [hnone, Except.mapError]
  cases hc : cells f with
  | null => simpa only [hc] using stored .null hc
  | integer n => simpa only [hc] using stored (.integer n) hc
  | text s => simpa only [hc] using stored (.text s) hc
  | real x | blob bytes => simp [setCell, hc, Cell.value?, Cell.fault?, bind, Except.bind]

/-- Writing cells one after the other stops at the first faulty one. -/
theorem foldlM_setCell_eq_error_iff {cells : Cells} {fs : List Field} {t : Task}
    {fault : DataFault} :
    fs.foldlM (setCell cells) t = .error fault ↔
      (fs.findSome? fun f => (cells f).fault? f) = some fault := by
  induction fs generalizing t with
  | nil =>
      constructor
      · rintro ⟨⟩
      · rintro ⟨⟩
  | cons f fs ih =>
      rw [List.foldlM_cons, List.findSome?_cons]
      cases h : setCell cells t f with
      | error d =>
          rw [setCell_eq_error_iff.mp h]
          simp [bind, Except.bind]
      | ok u =>
          rw [(Except.exists_ok_iff fun _ => setCell_eq_error_iff).mp ⟨u, h⟩]
          exact ih

end Task

/-! ### The fault of a row -/

namespace Row

/-- **A row is not read for its fault.** -/
theorem fault?_eq_some_iff {r : Row} {e : RepoError} :
    r.fault? = some e ↔ Task.ofCells r.cells = .error e := by
  rw [fault?, Task.ofCells]
  cases h : Field.all.foldlM (Task.setCell r.cells) Task.blank with
  | error fault =>
      rw [Task.foldlM_setCell_eq_error_iff.mp h]
      simp [bind, Except.bind, Except.mapError]
  | ok t =>
      have hnone : (Field.all.findSome? fun f => (r.cells f).fault? f) = none :=
        (Except.exists_ok_iff fun _ => Task.foldlM_setCell_eq_error_iff).mp ⟨t, h⟩
      have htitle : r.title = .text t.title :=
        ((Task.foldlM_setCell_eq_ok (by decide) h).1 .title (Field.mem_all _)).symm
      rw [hnone, htitle]
      by_cases hblank : Text.isBlankText t.title = true <;>
        simp [bind, Except.bind, pure, Except.pure, Except.mapError, Cell.isBlank, Task.validate,
          hblank]

/-- **A row without a fault is read.** -/
theorem fault?_eq_none_iff {r : Row} : r.fault? = none ↔ ∃ t, Task.ofCells r.cells = .ok t :=
  (Except.exists_ok_iff fun _ => fault?_eq_some_iff.symm).symm

end Row

end Taskbook
