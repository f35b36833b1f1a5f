import Taskbook.Proofs.Results
import Taskbook.Task.Field

/-!
# Writing a Field and Reading It Back

Writing is lenient about kinds and reading is not, so what is read back after a write need not
be the value that was written. It has the same stored form, and the other fields are as they
were. Both facts are stated for every field at once, and the theory of rows is built on them
and never looks at a single field again.

## Main results

* `Task.stored_get_set`, `Task.get_set_ne`: **a write that is taken** stores the value and
  touches nothing else;
* `Task.exists_set_value`, `Task.exists_set_get`: a field's content is always taken back, as it is
  and in its stored form;
* `Task.foldlM_eq_pure`: **a task is made from the contents of its fields**, written one after the
  other to any other task.
-/

namespace Taskbook

/-- The value that a stored form is read as, before any field is known. -/
def Stored.value : Stored → Value
  | null => .null
  | integer n => .integer n
  | text s => .text s

/-! ### Contents of a field -/

namespace Value

/-- An instant that may be missing is stored as the value that it was given as. -/
theorem stored_of_asInstant? {f : Field} {v : Value} {x : Option Instant}
    (h : v.asInstant? f = .ok x) : (ofInstant? x).stored = v.stored := by
  cases v with
  | null | integer n | instant t =>
      obtain rfl := Except.ok.inj h
      rfl
  | _ => cases h

/-- An instant is stored as the value that it was given as. -/
theorem stored_of_asInstant {f : Field} {v : Value} {x : Instant}
    (h : v.asInstant f = .ok x) : (instant x).stored = v.stored := by
  rw [asInstant] at h
  cases hv : v.asInstant? f with
  | error e =>
      rw [hv] at h
      cases h
  | ok y =>
      rw [hv] at h
      cases y with
      | none => cases h
      | some t =>
          obtain rfl := Except.ok.inj h
          exact stored_of_asInstant? hv

/-- An integer that may be missing is stored as the value that it was given as. -/
theorem stored_of_asInteger? {f : Field} {v : Value} {x : Option Int64}
    (h : v.asInteger? f = .ok x) : (ofInteger? x).stored = v.stored := by
  cases v with
  | null | integer n =>
      obtain rfl := Except.ok.inj h
      rfl
  | _ => cases h

/-- A text is stored as the value that it was given as. -/
theorem stored_of_asText {f : Field} {v : Value} {x : String} (h : v.asText f = .ok x) :
    (text x).stored = v.stored := by
  cases v with
  | text s =>
      obtain rfl := Except.ok.inj h
      rfl
  | _ => cases h

/-- A priority is stored as the value that it was given as. -/
theorem stored_of_asPriority {f : Field} {v : Value} {x : Priority}
    (h : v.asPriority f = .ok x) : (priority x).stored = v.stored := by
  cases v with
  | integer n =>
      rw [asPriority.eq_def] at h
      dsimp only at h
      cases hp : Priority.ofCode? n with
      | none =>
          rw [hp] at h
          cases h
      | some p =>
          rw [hp] at h
          obtain rfl := Except.ok.inj h
          rw [Priority.ofCode?_eq_some_iff.mp hp]
          rfl
  | priority p =>
      obtain rfl := Except.ok.inj h
      rfl
  | _ => cases h

end Value

/-! ### Writing a field -/

namespace Task

/-- **A write that is taken** stores the value. -/
theorem stored_get_set {t u : Task} {f : Field} {v : Value} (h : t.set f v = .ok u) :
    (u.get f).stored = v.stored := by
  cases f with
  | id | createdFrom =>
      obtain ⟨x, hx, rfl⟩ := Except.map_eq_ok_iff.mp h
      exact Value.stored_of_asInteger? hx
  | title =>
      obtain ⟨x, hx, rfl⟩ := Except.map_eq_ok_iff.mp h
      exact Value.stored_of_asText hx
  | createdOn =>
      obtain ⟨x, hx, rfl⟩ := Except.map_eq_ok_iff.mp h
      exact Value.stored_of_asInstant hx
  | priority =>
      obtain ⟨x, hx, rfl⟩ := Except.map_eq_ok_iff.mp h
      exact Value.stored_of_asPriority hx
  | doneOn | postponedUntil | dueDate =>
      obtain ⟨x, hx, rfl⟩ := Except.map_eq_ok_iff.mp h
      exact Value.stored_of_asInstant? hx

/-- **A write that is taken** leaves the other fields alone. -/
theorem get_set_ne {t u : Task} {f g : Field} {v : Value} (h : t.set f v = .ok u)
    (hg : g ≠ f) : u.get g = t.get g := by
  cases f <;> obtain ⟨x, -, rfl⟩ := Except.map_eq_ok_iff.mp h <;> cases g <;>
    first | rfl | exact absurd rfl hg

/-- The content of a field is taken back. -/
theorem exists_set_get (t s : Task) (f : Field) :
    ∃ u, t.set f (s.get f) = .ok u ∧ u.get f = s.get f := by
  obtain ⟨id, title, createdOn, doneOn, postponedUntil, dueDate, priority, createdFrom⟩ := s
  cases f with
  | id => cases id <;> exact ⟨_, rfl, rfl⟩
  | title | createdOn | priority => exact ⟨_, rfl, rfl⟩
  | doneOn => cases doneOn <;> exact ⟨_, rfl, rfl⟩
  | postponedUntil => cases postponedUntil <;> exact ⟨_, rfl, rfl⟩
  | createdFrom => cases createdFrom <;> exact ⟨_, rfl, rfl⟩
  | dueDate => cases dueDate <;> exact ⟨_, rfl, rfl⟩

/-- The stored form of a field's content is taken as the content is. -/
theorem set_stored_get (t s : Task) (f : Field) :
    t.set f (s.get f).stored.value = t.set f (s.get f) := by
  obtain ⟨id, title, createdOn, doneOn, postponedUntil, dueDate, priority, createdFrom⟩ := s
  cases f with
  | id => cases id <;> rfl
  | title | createdOn => rfl
  | doneOn => cases doneOn <;> rfl
  | priority => cases priority <;> rfl
  | postponedUntil => cases postponedUntil <;> rfl
  | createdFrom => cases createdFrom <;> rfl
  | dueDate => cases dueDate <;> rfl

/-- The stored form of a field's content is taken back as that content. -/
theorem exists_set_value (t s : Task) (f : Field) :
    ∃ u, t.set f (s.get f).stored.value = .ok u ∧ u.get f = s.get f := by
  rw [set_stored_get]
  exact t.exists_set_get s f

/-! ### Writing all fields -/

section Fold

variable {m : Type → Type} [Monad m] [LawfulMonad m] {write : Task → Field → m Task} {s : Task}

/-- If every field can be given the content that it has in a task, the fields that are written have
that content in the end, and the others are as they were. -/
theorem exists_foldlM_eq_pure
    (hwrite : ∀ t f, ∃ u, write t f = pure u ∧ u.get f = s.get f ∧ ∀ g ≠ f, u.get g = t.get g)
    (fs : List Field) (t : Task) :
    ∃ u, fs.foldlM write t = pure u ∧
      ∀ g, u.get g = if g ∈ fs then s.get g else t.get g := by
  induction fs generalizing t with
  | nil => exact ⟨t, rfl, fun g => by simp⟩
  | cons f fs ih =>
      obtain ⟨v, hv, hf, hne⟩ := hwrite t f
      obtain ⟨u, hu, hget⟩ := ih v
      refine ⟨u, by rw [List.foldlM_cons, hv, pure_bind, hu], fun g => ?_⟩
      by_cases hfs : g ∈ fs
      · rw [hget, if_pos hfs, if_pos (List.mem_cons_of_mem f hfs)]
      · rw [hget, if_neg hfs]
        by_cases hg : g = f
        · rw [hg, hf, if_pos List.mem_cons_self]
        · rw [hne g hg, if_neg (List.mem_cons.not.mpr (not_or.mpr ⟨hg, hfs⟩))]

/-- **A task is made from the contents of its fields**, written one after the other to any other
task. -/
theorem foldlM_eq_pure
    (hwrite : ∀ t f, ∃ u, write t f = pure u ∧ u.get f = s.get f ∧ ∀ g ≠ f, u.get g = t.get g)
    (t : Task) : Field.all.foldlM write t = pure s := by
  obtain ⟨u, hu, hget⟩ := exists_foldlM_eq_pure hwrite Field.all t
  rw [hu, ext_get fun f => (hget f).trans (if_pos f.mem_all)]

end Fold

end Task

end Taskbook
