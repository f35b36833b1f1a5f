import Taskbook.Cli.Run
import Taskbook.Manager.Session
import Taskbook.Proofs.Manager.Succeeding
import Taskbook.Proofs.Task.Days

/-!
# Dates Counted in Days

Three things are counted in days: how far a session moves its clock, when a task is due that the
program adds, and until when it postpones one. All three come to `Instant.plusDays`, and nothing
else happens to the date on its way: what is printed of a date and what is read of it from the table
afterwards is the instant that was counted. So what is true of adding days is true of all of them.

## Main results

* `perform_add_of_ok`, `perform_postpone_of_ok`: the **dates of commands** that succeed, as they
  are printed and as they are stored;
* `days_counted`: where counting days is **exact or stops at the true end** of the range, and what
  comes out elsewhere, on a clock and in both commands.
-/

namespace Taskbook.Cli

open Taskbook.Number

variable {clock : Clock} {s : Tables} {output : String}

/-- **A task that has been added** to be due in some days is stored, and printed, with the instant
so many days later as its due date. -/
theorem perform_add_of_ok [Engine] {title : String} {days : Int64}
    (h : (perform Tables.repository clock (.add title (some days)) s).result = .ok output) :
    ∃ t : Task, t.dueDate = some (clock.counted.plusDays days) ∧
      output = "created " ++ taskLine t ++ "\n" ∧
      ∃ r ∈ (perform Tables.repository clock (.add title (some days)) s).store.tasks.rows,
        r.Reads t := by
  rw [perform] at h ⊢
  obtain ⟨t, s', events, hcreate, htext, hstore⟩ := Action.bind_eq_ok h
  rw [Action.pure_apply] at htext
  obtain ⟨⟨id, htask⟩, hread⟩ := Manager.create_of_ok (congrArg Reply.result hcreate)
  rw [hcreate] at hread
  rw [hstore]
  exact ⟨t, congrArg Task.dueDate htask, (Except.ok.inj htext).symm, hread⟩

/-- **A task that has been postponed** by some days is stored as hidden until the instant so many
days later, and that is printed. -/
theorem perform_postpone_of_ok [Engine] {id days : Int64}
    (h : (perform Tables.repository clock (.postpone id days) s).result = .ok output) :
    ∃ t : Task, t.id = some id ∧ t.postponedUntil = some (clock.counted.plusDays days) ∧
      output = "task " ++ decimal id ++ " postponed until " ++
        (clock.counted.plusDays days).text ++ "\n" ∧
      ∃ r ∈ (perform Tables.repository clock (.postpone id days) s).store.tasks.rows,
        r.Reads t := by
  rw [perform] at h ⊢
  obtain ⟨⟨⟩, s', events, hpostpone, htext, hstore⟩ := Action.bind_eq_ok h
  rw [Action.pure_apply] at htext
  rw [hstore]
  rw [Manager.postpone] at hpostpone
  have hdone := congrArg Reply.result hpostpone
  obtain ⟨t, hid, -, hread⟩ := Manager.modify_of_ok (fun _ => by rfl) hdone
  rw [hpostpone] at hread
  exact ⟨{ t with postponedUntil := some (clock.counted.plusDays days) }, hid, rfl,
    (Except.ok.inj htext).symm, hread⟩

open Instant in
/-- **Counting days is exact or stops at the true end** of the range, if and only if the days do not
reach across the epoch. If they do, they count as all the milliseconds that there are on their side;
the answer is on the right side of the instant and never beyond the sum. It is monotone in both. A
clock that is moved shows the instant that was counted, and the dates of the two commands are
that instant. -/
theorem days_counted [Engine] (t : Instant) (days : Int64) :
    (Holds (t.plusDays days).millis (t.millis.toInt + span days) ↔ ¬t.ReachAcross days) ∧
    (t.ReachAcross days → (t.plusDays days).millis.toInt = t.millis.toInt +
      if 0 < days.toInt then Int64.maxValue.toInt else Int64.minValue.toInt) ∧
    (0 ≤ days.toInt → t.millis.toInt ≤ (t.plusDays days).millis.toInt ∧
      (t.plusDays days).millis.toInt ≤ t.millis.toInt + span days) ∧
    (days.toInt ≤ 0 → (t.plusDays days).millis.toInt ≤ t.millis.toInt ∧
      t.millis.toInt + span days ≤ (t.plusDays days).millis.toInt) ∧
    (∀ (u : Instant) (more : Int64), t.millis ≤ u.millis → days ≤ more →
      (t.plusDays days).millis ≤ (u.plusDays more).millis) ∧
    (∀ {σ : Type} (repo : Repository σ) (store : σ),
      (Step.advanceDays days).take repo ⟨store, t⟩ =
        ⟨.clock (t.plusDays days), ⟨store, t.plusDays days⟩, []⟩) ∧
    (∀ (now : Instant) (s : Tables) (title output : String),
      (perform Tables.repository ⟨t, now⟩ (.add title (some days)) s).result = .ok output →
        ∃ u : Task, u.dueDate = some (t.plusDays days) ∧
          output = "created " ++ taskLine u ++ "\n" ∧
          ∃ r ∈ (perform Tables.repository ⟨t, now⟩ (.add title (some days)) s).store.tasks.rows,
            r.Reads u) ∧
    ∀ (now : Instant) (s : Tables) (id : Int64) (output : String),
      (perform Tables.repository ⟨t, now⟩ (.postpone id days) s).result = .ok output →
        ∃ u : Task, u.id = some id ∧ u.postponedUntil = some (t.plusDays days) ∧
          output = "task " ++ decimal id ++ " postponed until " ++ (t.plusDays days).text ++ "\n" ∧
          ∃ r ∈ (perform Tables.repository ⟨t, now⟩ (.postpone id days) s).store.tasks.rows,
            r.Reads u := by
  obtain ⟨hlater, hearlier⟩ := plusDays_between t days
  refine ⟨holds_plusDays_iff, toInt_plusDays_of_across, hlater, hearlier, ?_, ?_, ?_, ?_⟩
  · exact fun _ _ => plusDays_mono
  · exact fun _ _ => rfl
  · exact fun _ _ _ _ => perform_add_of_ok
  · exact fun _ _ _ _ => perform_postpone_of_ok

open Instant in
/-- Two days after an instant and one day before it; 213503982334 days after the earliest instant,
which reach across the epoch; a task that is added to be due in two days, and one that is postponed
until the day before. -/
theorem days_counted_near_and_far :
    let _ : Engine := .scanning
    let near : Instant := ⟨1000⟩
    let earliest : Instant := ⟨Int64.minValue⟩
    let row : Row := .ofCells 1 ({ id := some 1, title := "a", createdOn := ⟨5⟩ } : Task).cells
    let s : Tables := { tasks := ⟨[row], by decide⟩, recurring := [] }
    let added := perform Tables.repository near (.add "b" (some 2)) s
    let postponed := perform Tables.repository near (.postpone 1 (-1)) s
    (near.plusDays 2).millis.toInt = 172801000 ∧
      (near.plusDays (-1)).millis ≤ (near.plusDays 2).millis ∧
      earliest.ReachAcross 213503982334 ∧
      (earliest.plusDays 213503982334).millis.toInt = -1 ∧
      added.result = .ok "created #2 [normal] b due=172801000\n" ∧
      (∃ t : Task, t.dueDate = some ⟨172801000⟩ ∧ ∃ r ∈ added.store.tasks.rows, r.Reads t) ∧
      postponed.result = .ok "task 1 postponed until -86399000\n" ∧
      ∃ t : Task, t.id = some 1 ∧ t.postponedUntil = some ⟨-86399000⟩ ∧
        ∃ r ∈ postponed.store.tasks.rows, r.Reads t := by
  intro _ near earliest row s added postponed
  obtain ⟨hholds, -, -, -, -, -, hadd, -⟩ := days_counted near 2
  obtain ⟨-, -, -, -, hmono, -, -, hpostpone⟩ := days_counted near (-1)
  have hfar : earliest.ReachAcross 213503982334 := by decide
  have hacross := (days_counted earliest 213503982334).2.1 hfar
  have hlater : near.plusDays 2 = ⟨172801000⟩ := by decide
  have hearlier : near.plusDays (-1) = ⟨-86399000⟩ := by decide
  have hnear : ¬near.ReachAcross 2 := not_reachAcross_of_inRange (by decide)
  have hadded : added.result = .ok "created #2 [normal] b due=172801000\n" := by decide +kernel
  have hpostponed : postponed.result = .ok "task 1 postponed until -86399000\n" := by decide +kernel
  obtain ⟨t, hdue, -, hstored⟩ := hadd near s "b" _ hadded
  obtain ⟨u, hid, huntil, -, hchanged⟩ := hpostpone near s 1 _ hpostponed
  refine ⟨?_, hmono near 2 (by decide) (by decide), hfar, hacross.trans (by decide), hadded,
    ⟨t, hdue.trans (congrArg some hlater), hstored⟩, hpostponed, u, hid,
    huntil.trans (congrArg some hearlier), hchanged⟩
  exact ((hholds.mpr hnear).exact (by decide)).trans (by decide)

open Instant in
/-- **Not always**: 213503982334 days after the earliest instant there is an instant, but it is not
the one that is counted. -/
theorem days_not_always_counted :
    let earliest : Instant := ⟨Int64.minValue⟩
    earliest.millis.toInt + span 213503982334 = 9223372036802824192 ∧
      InRange (earliest.millis.toInt + span 213503982334) ∧
      earliest.plusDays 213503982334 = ⟨-1⟩ ∧
      ¬∀ (t : Instant) (days : Int64),
        Holds (t.plusDays days).millis (t.millis.toInt + span days) := by
  intro earliest
  have hin : InRange (earliest.millis.toInt + span 213503982334) := by decide
  refine ⟨by decide, hin, by decide, fun h => ?_⟩
  exact absurd ((h earliest 213503982334).exact hin) (by decide)

end Taskbook.Cli
