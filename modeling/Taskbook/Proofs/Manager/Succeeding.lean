import Taskbook.Proofs.Manager.Telling

/-!
# What Successful Calls Leave in a Table

A call of the manager that succeeds has written a row, and the row is read as the task that the call
was to make. Nothing is asked of the table here, not that its other rows are read and not that it
has room: that the call has succeeded says enough.

## Main results

* `Manager.create_of_ok`: a task that has been **created** is in the table, as it was to be;
* `Manager.modify_of_ok`: a task that has been **changed** is in the table, as it was changed.
-/

namespace Taskbook

/-- A chain of two actions answers if both do, the second one on the store that the first one has
left behind. -/
theorem Action.bind_eq_ok {σ ε α β : Type} {x : Action σ ε α} {f : α → Action σ ε β} {s : σ} {b : β}
    (h : ((x >>= f) s).result = .ok b) :
    ∃ a s' events, x s = ⟨.ok a, s', events⟩ ∧ (f a s').result = .ok b ∧
      ((x >>= f) s).store = (f a s').store := by
  rcases hx : x s with ⟨result, s', events⟩
  cases result with
  | ok a =>
      rw [bind_of_ok hx] at h ⊢
      exact ⟨a, s', events, rfl, h, rfl⟩
  | error e =>
      rw [bind_of_error hx] at h
      cases h

namespace Tables

/-- The row that is completed for a task under an id is read as the task with the id. -/
theorem reads_of_complete {t : Task} {id : Int64} {row : Row}
    (htitle : Text.isBlankText t.title = false) (h : complete id t.cells = .ok row) :
    row.Reads { t with id := some id } := by
  rw [complete_cells] at h
  obtain rfl := Except.ok.inj h
  have hcells : Row.ofCells id t.cells = .ofCells id { t with id := some id }.cells := rfl
  rw [Row.reads_iff, hcells, Row.cells_ofCells_of_id rfl]
  exact ⟨htitle, rfl⟩

end Tables

namespace Manager

/-- What a repository's operation answers to the manager is its own answer. -/
theorem eq_of_lift_eq_ok {σ α : Type} {x : Action σ RepoError α} {s s' : σ} {a : α}
    {events : List Event} (h : lift x s = ⟨.ok a, s', events⟩) : x s = ⟨.ok a, s', events⟩ := by
  rcases hx : x s with ⟨result, s'', told⟩
  cases result with
  | ok b =>
      rw [lift_eq_of_ok hx] at h
      cases h
      rfl
  | error e =>
      rw [lift_eq_of_error hx] at h
      cases h

variable {s : Tables}

/-- **A task that has been created** is in the table, with the title and the date that it was
created with. -/
theorem create_of_ok [Engine] {now : Instant} {title : String} {due : Option Instant} {t : Task}
    (h : (create Tables.repository now title due s).result = .ok t) :
    (∃ id, t = { id := some id, title := title, createdOn := now, dueDate := due }) ∧
      ∃ r ∈ (create Tables.repository now title due s).store.tasks.rows, r.Reads t := by
  rw [create] at h ⊢
  by_cases hblank : Text.isBlankText title = true
  · rw [if_pos hblank] at h
    cases h
  · rw [if_neg hblank] at h ⊢
    obtain ⟨u, s', events, hlift, hrest, hstore⟩ := Action.bind_eq_ok h
    have hinsert := eq_of_lift_eq_ok hlift
    obtain rfl : u = t := Except.ok.inj hrest
    rcases Tables.insert_ways { title := title, createdOn := now, dueDate := due } s with
      ⟨e, hrefused, -⟩ | ⟨id, _, hrun, hdone⟩
    · rw [hrefused] at hinsert
      cases hinsert
    · rw [hdone] at hinsert
      cases hinsert
      obtain ⟨row, hrow, hrows⟩ := Tables.rows_of_insertTask hrun
      refine ⟨⟨id, rfl⟩, row, ?_, Tables.reads_of_complete (Bool.not_eq_true _ ▸ hblank) hrow⟩
      rw [hstore]
      show row ∈ s'.tasks.rows
      rw [hrows, Row.mem_place]
      exact .inl rfl

/-- **A task that has been found** is in the table, and the table is as it was. -/
theorem get_of_ok [Engine] {id : Int64} {t : Task} {s' : Tables} {events : List Event}
    (h : get Tables.repository id s = ⟨.ok t, s', events⟩) :
    s' = s ∧ t.id = some id ∧ ∃ r ∈ s.tasks.rows, r.Reads t := by
  have hresult : (get Tables.repository id s).result = .ok t := by rw [h]
  have hstore : (get Tables.repository id s).store = s' := by rw [h]
  rw [get_eq] at hresult hstore
  obtain ⟨ts, s'', told, hlift, hrest, hsame⟩ := Action.bind_eq_ok hresult
  have hquery := eq_of_lift_eq_ok hlift
  obtain rfl : s'' = s := by rw [← Tables.store_query s (.hasId id), hquery]
  cases ts with
  | nil => cases hrest
  | cons u us =>
      obtain rfl : u = t := Except.ok.inj hrest
      obtain ⟨r, hr, hid, hread⟩ := Tables.slotted.reads_of_query s''.nodup_ids
        (congrArg Reply.result hquery) List.mem_cons_self
      exact ⟨hstore.symm.trans hsame, hread.id_eq.trans hid, r, hr, hread⟩

/-- **A task that has been changed** is in the table, as it was changed. -/
theorem modify_of_ok [Engine] {id : Int64} {change : Change} {f : Task → Task}
    (hf : ∀ t, (f t).id = t.id) (h : (modify Tables.repository id change f s).result = .ok ()) :
    ∃ t, t.id = some id ∧ (∃ r ∈ s.tasks.rows, r.Reads t) ∧
      ∃ r ∈ (modify Tables.repository id change f s).store.tasks.rows, r.Reads (f t) := by
  rw [modify] at h ⊢
  obtain ⟨t, s₁, found, hget, hrest, hstore⟩ := Action.bind_eq_ok h
  obtain ⟨rfl, hid, hread⟩ := get_of_ok hget
  obtain ⟨⟨⟩, s₂, written, hlift, -, hstore'⟩ := Action.bind_eq_ok hrest
  have hupdate := eq_of_lift_eq_ok hlift
  obtain ⟨before, x, after, -, -, -, hslots, hwritten, -⟩ :=
    (Tables.slotted.updatesOne s₁.nodup_ids).replaced (f t) id ((hf t).trans hid)
      (congrArg Reply.result hupdate)
  refine ⟨t, hid, hread, _, ?_, hwritten⟩
  rw [hstore, hstore']
  show _ ∈ s₂.tasks.rows
  rw [hupdate] at hslots
  have hrows : s₂.tasks.rows = before ++ Tables.slotted.written (f t) :: after := hslots
  rw [hrows]
  exact List.mem_append_right _ List.mem_cons_self

end Manager

end Taskbook
