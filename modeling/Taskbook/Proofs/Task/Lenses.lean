import Mathlib.Data.Set.List
import Taskbook.Proofs.Task.Access

/-!
# Accessors of a Task

A task is written in place, field by field, by accessors that are looked up by name. An accessor of
a field reads the field and writes it, and writing is two things one after the other: the value is
converted, which may fail, and what comes of it is put in its place. A failure in between leaves the
task as it was. `Task.set` says the same in one value (`Field.run_assign`), and so the laws of an
accessor are laws of writing a field.

They are the laws of a lens, as far as lenient writing allows. What is read back is not the value
that was written but one with the same stored form; a value that was read is read back as it is.

## Order convention

The accessors stand in table order, and the first one whose name is the given one, whatever the case
of its letters, is found. No two of them have names that differ in case only.

## Main results

* `Accessor.find?_eq_some_iff`: which accessor is **found by a name**;
* `Field.lawful_accessor`: every accessor obeys the **laws of a lens**;
* `Accessor.run_copy`: writing all fields of a task to another one, in any order, **yields the
  task**;
* `accessors_are_lenses`: both, for every accessor that a name finds.
-/

namespace Taskbook

/-! ### Writing in place -/

/-- Writes to a task in place. What a failure comes after stays written. -/
abbrev Assignment := EStateM FieldError Task Unit

/-- Puts what was converted in its place. -/
def Assignment.put {α : Type} (converted : Except FieldError α) (place : α → Task → Task) :
    Assignment := do
  let x ← (match converted with
    | .ok x => pure x
    | .error e => throw e : EStateM FieldError Task α)
  modify (place x)

/-- Writes a value to a field in place. -/
def Field.assign (f : Field) (v : Value) : Assignment :=
  match f with
  | .id => .put (v.asInteger? f) fun x t => { t with id := x }
  | .title => .put (v.asText f) fun x t => { t with title := x }
  | .createdOn => .put (v.asInstant f) fun x t => { t with createdOn := x }
  | .doneOn => .put (v.asInstant? f) fun x t => { t with doneOn := x }
  | .priority => .put (v.asPriority f) fun x t => { t with priority := x }
  | .postponedUntil => .put (v.asInstant? f) fun x t => { t with postponedUntil := x }
  | .createdFrom => .put (v.asInteger? f) fun x t => { t with createdFrom := x }
  | .dueDate => .put (v.asInstant? f) fun x t => { t with dueDate := x }

/-- An **accessor** reads and writes a task under a name. -/
structure Accessor where
  name : String
  get : Task → Value
  set : Value → Assignment

/-- The accessor of a field. -/
def Field.accessor (f : Field) : Accessor where
  name := f.name
  get t := t.get f
  set := f.assign

namespace Accessor

/-- The accessors in table order. -/
def table : List Accessor :=
  Field.all.map Field.accessor

/-- The accessor with a name, whatever the case of its letters. -/
def find? (name : String) : Option Accessor :=
  table.find? fun a => Text.sameName a.name name

/-- Writes what accessors read of a task, one after the other. -/
def copy (s : Task) (accessors : List Accessor) : Assignment :=
  accessors.forM fun a => a.set (a.get s)

end Accessor

/-- What is put in its place is what was converted; where nothing was, the task stays. -/
theorem Assignment.run_put {α : Type} (converted : Except FieldError α) (place : α → Task → Task)
    (t : Task) :
    (put converted place).run t =
      match converted.map fun x => place x t with
      | .ok u => .ok () u
      | .error e => .error e t := by
  cases converted <;> rfl

/-- **Writing a field in place** is writing it; a refused value leaves the task as it was. -/
theorem Field.run_assign (f : Field) (v : Value) (t : Task) :
    (f.assign v).run t =
      match t.set f v with
      | .ok u => .ok () u
      | .error e => .error e t := by
  cases f <;> exact Assignment.run_put _ _ t

variable {f g : Field} {v w : Value} {s t u x : Task}

theorem Field.run_assign_eq_ok_iff : (f.assign v).run t = .ok () u ↔ t.set f v = .ok u := by
  rw [run_assign]
  cases t.set f v <;> simp

theorem Field.run_assign_eq_error_iff {e : FieldError} :
    (f.assign v).run t = .error e u ↔ t.set f v = .error e ∧ u = t := by
  rw [run_assign]
  cases t.set f v <;> simp [eq_comm]

/-! ### Two writes -/

namespace Task

/-- Whether a value is taken does not depend on the task. -/
theorem exists_set_of_set (h : s.set f v = .ok u) (t : Task) : ∃ x, t.set f v = .ok x := by
  cases f <;> obtain ⟨x, hx, -⟩ := Except.map_eq_ok_iff.mp h <;>
    exact ⟨_, Except.map_eq_ok_iff.mpr ⟨x, hx, rfl⟩⟩

/-- What is read of a field is determined by its stored form. -/
theorem get_eq_of_stored (h : (s.get f).stored = (t.get f).stored) : s.get f = t.get f := by
  obtain ⟨u, hu, hs⟩ := s.exists_set_value s f
  obtain ⟨x, hx, ht⟩ := s.exists_set_value t f
  rw [h, hx] at hu
  rw [← hs, ← ht, Except.ok.inj hu]

/-- The task after a write is the one that holds the value in the field and is otherwise as it
was. -/
theorem eq_of_set (h : t.set f v = .ok u) (hf : (x.get f).stored = v.stored)
    (hne : ∀ g ≠ f, x.get g = t.get g) : x = u := by
  refine ext_get fun g => ?_
  by_cases hg : g = f
  · rw [hg]
    exact get_eq_of_stored (hf.trans (stored_get_set h).symm)
  · rw [hne g hg, get_set_ne h hg]

/-- Of two writes to one field **only the last** matters. -/
theorem set_set (hv : t.set f v = .ok u) (hw : u.set f w = .ok x) : t.set f w = .ok x := by
  obtain ⟨y, hy⟩ := exists_set_of_set hw t
  have hsame : x = y := eq_of_set hy (stored_get_set hw) fun g hg => by
    rw [get_set_ne hw hg, get_set_ne hv hg]
  rw [hsame, hy]

/-- Writes to different fields **commute**. -/
theorem set_comm (hfg : f ≠ g) (hv : t.set f v = .ok u) (hw : u.set g w = .ok x) :
    ∃ y, t.set g w = .ok y ∧ y.set f v = .ok x := by
  obtain ⟨y, hy⟩ := exists_set_of_set hw t
  obtain ⟨z, hz⟩ := exists_set_of_set hv y
  have hsame : x = z := by
    refine eq_of_set hz ?_ fun k hk => ?_
    · rw [get_set_ne hw hfg, stored_get_set hv]
    · by_cases hkg : k = g
      · rw [hkg]
        exact get_eq_of_stored ((stored_get_set hw).trans (stored_get_set hy).symm)
      · rw [get_set_ne hw hkg, get_set_ne hv hk, get_set_ne hy hkg]
  exact ⟨y, hy, hsame ▸ hz⟩

end Task

/-! ### The laws of an accessor -/

/-- Different fields have different accessors. -/
theorem Field.accessor_injective : Function.Injective Field.accessor := by
  intro f g hfg
  have hname : f.name = g.name := congrArg Accessor.name hfg
  have hfound := f.find?_name
  rw [hname, find?_name] at hfound
  exact (Option.some.inj hfound).symm

namespace Accessor

/-- The **laws** of an accessor among all of the table. -/
structure Lawful (a : Accessor) : Prop where
  /-- A value that is refused leaves the task as it was. -/
  refused : ∀ {v t e u}, (a.set v).run t = .error e u → u = t
  /-- A value that is taken is read back in its stored form. -/
  stored : ∀ {v t u}, (a.set v).run t = .ok () u → (a.get u).stored = v.stored
  /-- What the other accessors read stays as it was. -/
  others : ∀ {v t u}, (a.set v).run t = .ok () u → ∀ b ∈ table, b ≠ a → b.get u = b.get t
  /-- What is read of one task is taken by any other one and is read back. -/
  taken : ∀ s t, ∃ u, (a.set (a.get s)).run t = .ok () u ∧ a.get u = a.get s
  /-- Of two writes only the last matters. -/
  last : ∀ {v w t u x}, (a.set v).run t = .ok () u → (a.set w).run u = .ok () x →
    (a.set w).run t = .ok () x
  /-- Writes by different accessors commute. -/
  commute : ∀ {v w t u x}, ∀ b ∈ table, b ≠ a → (a.set v).run t = .ok () u →
    (b.set w).run u = .ok () x → ∃ y, (b.set w).run t = .ok () y ∧ (a.set v).run y = .ok () x

/-- An accessor of the table is that of a field. -/
theorem mem_table_iff {a : Accessor} : a ∈ table ↔ ∃ f : Field, f.accessor = a := by
  simp [table]

/-- What is found by a name is the accessor of the field that is found by it. -/
theorem find?_eq_map (name : String) : find? name = (Field.find? name).map Field.accessor :=
  List.find?_map

/-- **The accessor that is found by a name** is the one of the table whose name it is. -/
theorem find?_eq_some_iff {name : String} {a : Accessor} :
    find? name = some a ↔ a ∈ table ∧ Text.sameName a.name name = true := by
  rw [find?_eq_map, Option.map_eq_some_iff, mem_table_iff]
  constructor
  · rintro ⟨f, hf, rfl⟩
    exact ⟨⟨f, rfl⟩, Field.find?_eq_some_iff.mp hf⟩
  · rintro ⟨⟨f, rfl⟩, hname⟩
    exact ⟨f, Field.find?_eq_some_iff.mpr hname, rfl⟩

end Accessor

/-- **The accessor of a field obeys the laws.** -/
theorem Field.lawful_accessor (f : Field) : f.accessor.Lawful where
  refused h := (run_assign_eq_error_iff.mp h).2
  stored h := Task.stored_get_set (run_assign_eq_ok_iff.mp h)
  others := by
    intro v t u h b hb hne
    obtain ⟨g, rfl⟩ := Accessor.mem_table_iff.mp hb
    exact Task.get_set_ne (run_assign_eq_ok_iff.mp h) (ne_of_apply_ne accessor hne)
  taken s t := by
    obtain ⟨u, hset, hget⟩ := t.exists_set_get s f
    exact ⟨u, run_assign_eq_ok_iff.mpr hset, hget⟩
  last hv hw :=
    run_assign_eq_ok_iff.mpr
      (Task.set_set (run_assign_eq_ok_iff.mp hv) (run_assign_eq_ok_iff.mp hw))
  commute := by
    intro v w t u x b hb hne hv hw
    obtain ⟨g, rfl⟩ := Accessor.mem_table_iff.mp hb
    obtain ⟨y, hy, hx⟩ := Task.set_comm (ne_of_apply_ne accessor hne).symm
      (run_assign_eq_ok_iff.mp hv) (run_assign_eq_ok_iff.mp hw)
    exact ⟨y, run_assign_eq_ok_iff.mpr hy, run_assign_eq_ok_iff.mpr hx⟩

namespace Accessor

/-! ### Writing all fields -/

/-- Fields that are written one after the other in place. -/
theorem run_copy_of_foldlM {fs : List Field} {s t u : Task}
    (h : fs.foldlM (fun t f => t.set f (s.get f)) t = .ok u) :
    (copy s (fs.map Field.accessor)).run t = .ok () u := by
  induction fs generalizing t with
  | nil =>
      obtain rfl := Except.ok.inj h
      rfl
  | cons f fs ih =>
      rw [List.foldlM_cons] at h
      obtain ⟨v, hv, h⟩ := Except.bind_eq_ok_iff.mp h
      have hcopy : copy s ((f :: fs).map Field.accessor) =
          f.assign (s.get f) >>= fun _ => copy s (fs.map Field.accessor) := rfl
      rw [hcopy, EStateM.run_bind, Field.run_assign_eq_ok_iff.mpr hv]
      exact ih h

/-- **Writing all fields of a task** to another one, in any order and however often, yields the
task. -/
theorem run_copy {order : List Accessor} (horder : ∀ a, a ∈ order ↔ a ∈ table) (s t : Task) :
    (copy s order).run t = .ok () s := by
  obtain ⟨fs, rfl⟩ : order ∈ Set.range (List.map Field.accessor) := by
    rw [Set.range_list_map]
    exact fun a ha => mem_table_iff.mp ((horder a).mp ha)
  have hwrite (x : Task) (f : Field) : ∃ u, x.set f (s.get f) = pure u ∧ u.get f = s.get f ∧
      ∀ g ≠ f, u.get g = x.get g := by
    obtain ⟨u, hset, hf⟩ := x.exists_set_get s f
    exact ⟨u, hset, hf, fun g => Task.get_set_ne hset⟩
  obtain ⟨u, hwritten, hget⟩ := Task.exists_foldlM_eq_pure hwrite fs t
  have hall (g : Field) : g ∈ fs := by
    have hg : g.accessor ∈ fs.map Field.accessor := (horder _).mpr (mem_table_iff.mpr ⟨g, rfl⟩)
    exact (List.mem_map_of_injective Field.accessor_injective).mp hg
  obtain rfl : u = s := Task.ext_get fun g => (hget g).trans (if_pos (hall g))
  exact run_copy_of_foldlM hwritten

end Accessor

/-- **Accessors are lenses.** There are eight of them, no two under names that differ in case only.
The one that is found by a name, whatever the case of its letters, obeys the laws of a lens; and
writing what the accessors read of a task, in any order, yields the task. -/
theorem accessors_are_lenses :
    (Accessor.table.length = 8 ∧
      Accessor.table.Pairwise fun a b => Text.sameName a.name b.name = false) ∧
    (∀ (name : String) (a : Accessor), Accessor.find? name = some a →
      a ∈ Accessor.table ∧ Text.sameName a.name name = true ∧ a.Lawful) ∧
    ∀ (order : List Accessor) (s t : Task), order.Perm Accessor.table →
      (Accessor.copy s order).run t = .ok () s := by
  refine ⟨⟨rfl, by decide⟩, ?_, ?_⟩
  · intro name a hfound
    obtain ⟨hmem, hname⟩ := Accessor.find?_eq_some_iff.mp hfound
    obtain ⟨f, rfl⟩ := Accessor.mem_table_iff.mp hmem
    exact ⟨hmem, hname, f.lawful_accessor⟩
  · exact fun order s t horder => Accessor.run_copy (fun _ => horder.mem_iff) s t

/-- A due date as an integer, a text in its place, which is refused, and a priority by its code,
under names in odd letters; and a task that is copied from its last field to its first. -/
theorem accessors_are_lenses_odd_letters :
    let due := Field.dueDate.accessor
    let urgency := Field.priority.accessor
    let t : Task := { title := "a", createdOn := ⟨5⟩ }
    let s : Task := { t with id := some 7, doneOn := some ⟨-1⟩, createdFrom := some 3 }
    Accessor.find? "DUE_date" = some due ∧ Accessor.find? "pRIORITY" = some urgency ∧
      (due.set (.integer 8)).run t = .ok () { t with dueDate := some ⟨8⟩ } ∧
      (due.get { t with dueDate := some ⟨8⟩ }).stored = .integer 8 ∧
      (∃ e, (due.set (.text "8")).run t = .error e t) ∧
      (urgency.set (.integer 2)).run t = .ok () { t with priority := .high } ∧
      (due.set (.integer 8)).run { t with priority := .high } =
        .ok () { t with priority := .high, dueDate := some ⟨8⟩ } ∧
      (due.set .null).run t = .ok () t ∧
      (Accessor.copy s Accessor.table.reverse).run t = .ok () s := by
  intro due urgency t s
  obtain ⟨-, hlaws, hcopy⟩ := accessors_are_lenses
  have hdue : Accessor.find? "DUE_date" = some due :=
    Accessor.find?_eq_some_iff.mpr ⟨Accessor.mem_table_iff.mpr ⟨_, rfl⟩, by decide⟩
  have hurgency : Accessor.find? "pRIORITY" = some urgency :=
    Accessor.find?_eq_some_iff.mpr ⟨Accessor.mem_table_iff.mpr ⟨_, rfl⟩, by decide⟩
  obtain ⟨-, -, hlawful⟩ := hlaws _ _ hdue
  obtain ⟨hmem, -, -⟩ := hlaws _ _ hurgency
  have hset : (due.set (.integer 8)).run t = .ok () { t with dueDate := some ⟨8⟩ } := rfl
  have hurgent : (urgency.set (.integer 2)).run { t with dueDate := some ⟨8⟩ } =
      .ok () { t with priority := .high, dueDate := some ⟨8⟩ } := rfl
  have hreset : (due.set .null).run { t with dueDate := some ⟨8⟩ } = .ok () t := rfl
  have hrefused : (due.set (.text "8")).run t =
      .error (.typeMismatch .dueDate .timestamp .text) t := rfl
  obtain ⟨y, hy, hboth⟩ :=
    hlawful.commute urgency hmem (Field.accessor_injective.ne (by decide)) hset hurgent
  have hsame : y = { t with priority := .high } := by
    cases hy
    rfl
  exact ⟨hdue, hurgency, hset, hlawful.stored hset, ⟨_, hrefused⟩, hsame ▸ hy, hsame ▸ hboth,
    hlawful.last hset hreset, hcopy _ s t (List.reverse_perm _)⟩

end Taskbook
