import Taskbook.Proofs.Manager.Following
import Taskbook.Proofs.Manager.Sorting

/-!
# Steps and Stores Under Other Ids

The two backends count from different ids: a new store in memory from ten thousand, a new table
from one. What is asked of one therefore has to be asked of the other under another id, and what
comes back is the same up to that *shift*. This module moves tasks, steps, outcomes and stores by
the difference and shows that effects do not notice: a step that is moved has the moved effect on
the moved store.

A predicate that never asks for the id does not notice either, in memory or over the rows.

## Range convention

The shift wraps around at the end of the range, like every sum of words. Different ids stay
different in any case. Only the next id must stay in the range, as the one after it does.

## Main results

* `Predicate.AvoidsId.holds_congr`, `truth_congr`: what is not asked for makes no difference;
* `Step.effect_shift`: **a moved step has the moved effect**;
* `MemoryStore.follow_shift`: a moved run is followed as the run is.
-/

namespace Taskbook

/-- The distance from the first id in a table to the first one in memory. -/
@[irreducible] def idOffset : Int64 := 9999

/-- The id in memory for an id in a table. -/
def shiftId (id : Int64) : Int64 :=
  id + idOffset

/-- Different ids stay different. -/
theorem shiftId_inj {a b : Int64} : shiftId a = shiftId b ↔ a = b := by
  rw [shiftId, shiftId, Int64.add_left_inj]

/-- In the range the shift is a sum of integers. -/
theorem toInt_shiftId {id : Int64} (h : id.toInt + 9999 ≤ Int64.maxValue.toInt) :
    (shiftId id).toInt = id.toInt + 9999 := by
  have hlow := id.minValue_le_toInt
  have hmin : Int64.minValue.toInt = -9223372036854775808 := by decide
  have hmax : Int64.maxValue.toInt = 9223372036854775807 := by decide
  have hoffset : idOffset.toInt = 9999 := by decide +kernel
  rw [shiftId, Int64.toInt_add, hoffset]
  exact Int.bmod_eq_of_le (by omega) (by omega)

/-- The id after a moved id is the moved one after it. -/
theorem next?_shiftId {id : Int64} (h : id.toInt + 9999 < Int64.maxValue.toInt) :
    ∃ next, Number.next? id = some next ∧ Number.next? (shiftId id) = some (shiftId next) ∧
      next.toInt = id.toInt + 1 := by
  obtain ⟨next, hnext, hsucc⟩ := Number.exists_next? (n := id) (by omega)
  refine ⟨next, hnext, ?_, hsucc⟩
  rw [Number.next?_eq_some_iff, toInt_shiftId (by omega), toInt_shiftId (by omega)]
  omega

/-! ### Predicates that do not ask for the id -/

namespace Predicate

/-- **In memory**, a predicate that avoids the id is about the other fields only. -/
theorem AvoidsId.holds_congr {p : Predicate} (avoids : p.AvoidsId) {s t : Task}
    (h : ∀ f ≠ Field.id, s.get f = t.get f) : p.holds s = p.holds t := by
  refine Predicate.holds_congr fun c hc f hf => h f ?_
  rintro rfl
  exact avoids c hc hf

/-- **Over the rows**, a predicate that names fields and avoids the id is about the other cells
only. -/
theorem AvoidsId.truth_congr {p : Predicate} (named : p.NamesFields) (avoids : p.AvoidsId)
    {s t : Task} (h : ∀ f ≠ Field.id, s.get f = t.get f) : p.truth s.cells = p.truth t.cells := by
  refine (seesAlike_of_conditions fun c hc f hcolumn => ?_).truth_eq
  have hne : f ≠ .id := by
    rintro rfl
    exact avoids c hc ((named.column?_eq hc).symm.trans hcolumn)
  rw [Task.cells, Task.cells, h f hne]

/-- Asking for the tasks to show is no asking for ids. -/
theorem avoidsId_relevantAt (now : Instant) : (relevantAt now).AvoidsId := by
  simp [AvoidsId, conditions, relevantAt, missing, before, Predicate.and, Predicate.or]

end Predicate

/-! ### The shift -/

/-- The task under its moved id. -/
def Task.shift (t : Task) : Task :=
  { t with id := t.id.map shiftId }

/-- Another id leaves the other fields alone. -/
theorem Task.get_withId (t : Task) (id : Option Int64) {f : Field} (hf : f ≠ .id) :
    ({ t with id := id } : Task).get f = t.get f := by
  cases f <;> first | rfl | exact absurd rfl hf

/-- A predicate that avoids the id holds of a moved task if it holds of the task. -/
theorem Predicate.AvoidsId.holds_shift {p : Predicate} (avoids : p.AvoidsId) (t : Task) :
    p.holds t.shift = p.holds t :=
  avoids.holds_congr fun _ hf => t.get_withId _ hf

/-- A predicate that avoids the id selects the moved tasks of those that it selects. -/
theorem Predicate.AvoidsId.filter_shift {p : Predicate} (avoids : p.AvoidsId) (ts : List Task) :
    (ts.map Task.shift).filter p.holds = (ts.filter p.holds).map Task.shift := by
  rw [List.filter_map]
  exact congrArg (List.map Task.shift) (List.filter_congr fun t _ => avoids.holds_shift t)

/-- Sorting does not look at ids. -/
theorem sortByPriority_shift (ts : List Task) :
    sortByPriority (ts.map Task.shift) = (sortByPriority ts).map Task.shift := by
  rw [sortByPriority_eq_flatMap, sortByPriority_eq_flatMap, List.map_flatMap]
  refine congrArg (fun f => Priority.all.flatMap f) (funext fun p => ?_)
  rw [List.filter_map]
  rfl

/-- The step about the moved id. -/
def Step.shift : Step → Step
  | get id => get (shiftId id)
  | markDone id => markDone (shiftId id)
  | reopen id => reopen (shiftId id)
  | postpone id until_ => postpone (shiftId id) until_
  | reprioritize id priority => reprioritize (shiftId id) priority
  | step => step

/-- The outcome with its ids moved. -/
def Outcome.shift : Outcome → Outcome
  | task t => task t.shift
  | tasks ts => tasks (ts.map Task.shift)
  | refused (.notFound id) => refused (.notFound (shiftId id))
  | outcome => outcome

namespace MemoryStore

/-- The store with its ids moved. -/
def shift (m : MemoryStore) : MemoryStore :=
  ⟨m.tasks.map Task.shift, shiftId m.nextId⟩

/-- A moved id finds the moved task. -/
theorem find?_shift (m : MemoryStore) (id : Int64) :
    m.shift.find? (shiftId id) = (m.find? id).map Task.shift := by
  rw [find?, find?, shift, List.find?_map]
  refine congrArg (Option.map Task.shift) (congrArg (fun p => m.tasks.find? p) (funext fun t => ?_))
  rw [Function.comp_apply, Task.shift, Bool.eq_iff_iff, beq_iff_eq, beq_iff_eq]
  cases t.id with
  | none => simp
  | some n => simp only [Option.map_some, Option.some.injEq, shiftId_inj]

/-- Changing a task has the moved effect, for a change that is moved too. -/
theorem change_shift (m : MemoryStore) (id : Int64) {f g : Task → Task}
    (hf : ∀ t, g t.shift = (f t).shift) :
    m.shift.change (shiftId id) g = ((m.change id f).1.shift, (m.change id f).2.shift) := by
  rw [change, change, find?_shift]
  cases m.find? id with
  | none => rfl
  | some t =>
      show (if Text.isBlankText t.title then _ else _) = _
      dsimp only
      by_cases hblank : Text.isBlankText t.title = true
      · rw [if_pos hblank, if_pos hblank]
        rfl
      · rw [if_neg hblank, if_neg hblank]
        refine Prod.ext rfl ?_
        have htasks : (m.shift.amend (shiftId id) g).tasks = (m.amend id f).shift.tasks := by
          simp only [amend, shift, List.map_map]
          refine List.map_congr_left fun u _ => ?_
          have hid : u.shift.id = some (shiftId id) ↔ u.id = some id := by
            rw [Task.shift]
            cases u.id with
            | none => simp
            | some n => simp only [Option.map_some, Option.some.injEq, shiftId_inj]
          simp only [Function.comp_apply, hid]
          by_cases hu : u.id = some id
          · rw [if_pos hu, if_pos hu, hf]
          · rw [if_neg hu, if_neg hu]
        exact congrArg (fun ts => (⟨ts, shiftId m.nextId⟩ : MemoryStore)) htasks

/-- Creating a task has the moved effect, while the moved counter can move on. -/
theorem enter_shift {m : MemoryStore} (h : m.nextId.toInt + 9999 < Int64.maxValue.toInt)
    (now : Instant) (title : String) (due : Option Instant) :
    m.shift.enter now title due =
      ((m.enter now title due).1.shift, (m.enter now title due).2.shift) := by
  obtain ⟨next, hnext, hshifted, -⟩ := next?_shiftId h
  have hcounter : Number.next? m.shift.nextId = some (shiftId next) := hshifted
  rw [enter, enter, hnext, hcounter]
  by_cases hblank : Text.isBlankText title = true
  · rw [if_pos hblank, if_pos hblank]
    rfl
  · rw [if_neg hblank, if_neg hblank]
    refine Prod.ext rfl ?_
    show (⟨m.tasks.map Task.shift ++ _, shiftId next⟩ : MemoryStore) = ⟨List.map _ (_ ++ _), _⟩
    rw [List.map_append]
    rfl

end MemoryStore

namespace Step

/-- A moved step replaces on a moved task what the step replaces. -/
theorem alteration_shift (step : Step) (now : Instant) (t : Task) :
    step.shift.alteration now t.shift = (step.alteration now t).shift := by
  cases step <;> rfl

/-- The clock does not depend on ids. -/
@[simp] theorem clockAfter_shift (step : Step) (now : Instant) :
    step.shift.clockAfter now = step.clockAfter now := by
  cases step with
  | get id | markDone id | reopen id | postpone id _ | reprioritize id _ => exact Eq.refl now
  | _ => rfl

/-- A moved step asks for what the step asks for. -/
theorem Asks.shift {P : Predicate → Prop} {step : Step} (h : step.Asks P) :
    step.shift.Asks P := by
  cases step with
  | query p => exact h
  | insert t | update t => exact h.elim
  | _ => exact trivial

/-- **A moved step has the moved effect** on the moved store. -/
theorem effect_shift {m : MemoryStore} (h : m.nextId.toInt + 9999 < Int64.maxValue.toInt)
    {step : Step} (hasks : step.Asks Predicate.AvoidsId) (now : Instant) :
    step.shift.effect now m.shift = ((step.effect now m).1.shift, (step.effect now m).2.shift) := by
  cases step with
  | create title due => exact MemoryStore.enter_shift h now title due
  | get id =>
      show (get (shiftId id)).effect now m.shift = _
      rw [effect_get, effect_get, MemoryStore.lookUp, MemoryStore.lookUp,
        MemoryStore.find?_shift]
      cases m.find? id <;> rfl
  | markDone id => exact m.change_shift id ((markDone id).alteration_shift now)
  | reopen id => exact m.change_shift id ((reopen id).alteration_shift now)
  | postpone id until_ => exact m.change_shift id ((postpone id until_).alteration_shift now)
  | reprioritize id priority =>
      exact m.change_shift id ((reprioritize id priority).alteration_shift now)
  | relevant =>
      have avoids := Predicate.avoidsId_relevantAt now
      show relevant.effect now m.shift = _
      rw [effect_relevant, MemoryStore.shift, avoids.filter_shift, sortByPriority_shift]
      rfl
  | listAll =>
      show listAll.effect now m.shift = _
      rw [effect_listAll, MemoryStore.shift, sortByPriority_shift]
      rfl
  | query p =>
      have avoids : p.AvoidsId := hasks
      show (query p).effect now m.shift = _
      rw [effect_query, MemoryStore.shift, avoids.filter_shift]
      rfl
  | insert t | update t => exact hasks.elim
  | _ => rfl

end Step

namespace MemoryStore

/-- A moved run that does not come to the end of the ids has room for its first step, and neither
does what is left of it come to that end. -/
theorem range_of_follow {m : MemoryStore} {now : Instant} {step : Step} {steps : List Step}
    (hrange : m.nextId.toInt + 9999 ≤ Int64.maxValue.toInt)
    (hasks : step.Asks Predicate.AvoidsId)
    (hlast : (m.shift.follow now ((step :: steps).map Step.shift)).2.nextId.toInt <
      Int64.maxValue.toInt) :
    m.nextId.toInt + 9999 < Int64.maxValue.toInt ∧
      (step.effect now m).2.nextId.toInt + 9999 ≤ Int64.maxValue.toInt ∧
      ((step.effect now m).2.shift.follow (step.clockAfter now) (steps.map Step.shift)).2.nextId.toInt
        < Int64.maxValue.toInt := by
  have hcounter := nextId_le_follow now m.shift ((step :: steps).map Step.shift)
  have hshift : m.shift.nextId.toInt = m.nextId.toInt + 9999 := toInt_shiftId hrange
  have hroom : m.nextId.toInt + 9999 < Int64.maxValue.toInt := by omega
  refine ⟨hroom, ?_, ?_⟩
  · rcases nextId_effect now m step with hsame | hsucc
    · rw [hsame]
      exact hrange
    · omega
  · rw [List.map_cons, follow, step.effect_shift hroom hasks now, Step.clockAfter_shift] at hlast
    exact hlast

/-- **A moved run is followed as the run is**, while the moved counter stays below the last id of
all. -/
theorem follow_shift {m : MemoryStore} {now : Instant} {steps : List Step}
    (hrange : m.nextId.toInt + 9999 ≤ Int64.maxValue.toInt)
    (hasks : ∀ step ∈ steps, step.Asks Predicate.AvoidsId)
    (hlast : (m.shift.follow now (steps.map Step.shift)).2.nextId.toInt < Int64.maxValue.toInt) :
    m.shift.follow now (steps.map Step.shift) =
      ((m.follow now steps).1.map Outcome.shift, (m.follow now steps).2.shift) := by
  induction steps generalizing m now with
  | nil => rfl
  | cons step steps ih =>
      have hstep := hasks step List.mem_cons_self
      obtain ⟨hroom, hrange', hlast'⟩ := range_of_follow hrange hstep hlast
      have hrest := ih hrange' (fun x hx => hasks x (List.mem_cons_of_mem step hx)) hlast'
      rw [List.map_cons, follow, step.effect_shift hroom hstep now, Step.clockAfter_shift, hrest]
      rfl

end MemoryStore

end Taskbook
