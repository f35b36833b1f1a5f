import Taskbook.Proofs.Table.Faults
import Taskbook.Proofs.Table.Keeping

/-!
# What a Query of Any Table Answers

A table may hold rows that are no tasks. A query reads the rows that its predicate selects, by
ascending id, and gives up at the first one with a fault. So it answers if and only if no selected
row has a fault, and it neither leaves a row out nor makes one up; the other rows play no part.

Selecting is done on the rows as they are stored and the reading comes after it. The other way
round, reading every row and keeping the tasks of which the predicate holds in memory, comes to the
same thing for some predicates only. Selecting and reading *commute* for these: a predicate must fit
into a statement, and for every task that can be stored it must select the cells of the task if and
only if it holds of the task. They commute for the plain predicates. They need not
where a text is compared with an integer column, since memory and tables overlook different blanks
around a numeral.

## Main results

* `Tables.query_eq_ok_iff`: a query **answers the selected rows**, if they are all read;
* `Tables.query_eq_error_iff`: or else the **fault of the first one** that is not;
* `Predicate.commutes_iff`: selecting and reading can be **interchanged** where they commute, and
  nowhere else;
* `Tables.query_spec`: all of it.
-/

namespace Taskbook

/-! ### Selecting by truth -/

/-- A predicate finds an id strictly inside the range of integers. -/
theorem Predicate.findsExactly_of_lt {id : Int64} (low : Int64.minValue.toInt < id.toInt)
    (high : id.toInt < Int64.maxValue.toInt) (p : Predicate) : p.FindsExactly (.integer id) :=
  findsExactly_of_conditions fun c _ _ _ => Cell.findsExactly_of_lt low high c.expected.stored

namespace Tables

variable [Engine] {s : Tables} {p : Predicate}

/-- The selected rows are those that the predicate is true of, where it finds their ids. -/
theorem mem_selected_iff {r : Row} (hr : r ∈ s.tasks.rows)
    (finds : p.FindsExactly (.integer r.id)) : r ∈ s.selected p ↔ p.truth r.cells = .yes := by
  rw [selected, List.mem_filter, Predicate.selects_eq finds, beq_iff_eq]
  exact and_iff_right hr

/-- The selected rows stand by ascending id. -/
theorem pairwise_selected (s : Tables) (p : Predicate) :
    (s.selected p).Pairwise fun a b => a.id < b.id :=
  s.tasks.ascending.sublist List.filter_sublist

/-! ### Answers and refusals -/

/-- A row is **blamed** for the failure of a query if it is the selected row with the smallest id
that has a fault. -/
structure Blames (s : Tables) (p : Predicate) (r : Row) (fault : RepoError) : Prop where
  selected : r ∈ s.selected p
  fault : r.fault? = some fault
  least : ∀ q ∈ s.selected p, q.fault? ≠ none → r.id ≤ q.id

/-- The rows in front of the blamed one are read, and it is the first that is not. -/
theorem blames_iff {r : Row} {fault : RepoError} :
    s.Blames p r fault ↔
      ∃ before after, s.selected p = before ++ r :: after ∧
        (∀ q ∈ before, ∃ t, q.Reads t) ∧ r.fault? = some fault := by
  constructor
  · intro h
    obtain ⟨before, after, hsplit⟩ := List.append_of_mem h.selected
    refine ⟨before, after, hsplit, ?_, h.fault⟩
    intro q hq
    have hlt : q.id < r.id := by
      have hasc := s.pairwise_selected p
      rw [hsplit, List.pairwise_append] at hasc
      exact hasc.2.2 q hq r List.mem_cons_self
    have hsel : q ∈ s.selected p := by
      rw [hsplit]
      exact List.mem_append_left _ hq
    by_contra hread
    have hle := h.least q hsel (mt Row.fault?_eq_none_iff.mp hread)
    rw [Int64.lt_iff_toInt_lt] at hlt
    rw [Int64.le_iff_toInt_le] at hle
    omega
  · rintro ⟨before, after, hsplit, hbefore, hfault⟩
    refine ⟨?_, hfault, ?_⟩
    · rw [hsplit]
      exact List.mem_append_right _ List.mem_cons_self
    · intro q hq hqfault
      rw [hsplit] at hq
      rcases List.mem_append.mp hq with hq | hq
      · exact absurd (Row.fault?_eq_none_iff.mpr (hbefore q hq)) hqfault
      · rcases List.mem_cons.mp hq with rfl | hq
        · exact Int64.le_refl _
        · have hasc := s.pairwise_selected p
          rw [hsplit, List.pairwise_append] at hasc
          have hlt := (List.pairwise_cons.mp hasc.2.1).1 q hq
          rw [Int64.lt_iff_toInt_lt] at hlt
          rw [Int64.le_iff_toInt_le]
          omega

/-- A query leaves the tables as they are. -/
theorem store_query (s : Tables) (p : Predicate) : (repository.query p s).store = s := by
  cases hfault : p.fault? with
  | some e =>
      obtain ⟨events, hquery⟩ := Keeps.query_eq_of_fault hfault s
      rw [hquery]
  | none =>
      obtain ⟨events, hquery⟩ := query_of_accepted hfault s
      rw [hquery]

/-- A query that is not refused **answers the selected rows**, if they are all read. -/
theorem query_eq_ok_iff (accepted : p.fault? = none) {ts : List Task} :
    (repository.query p s).result = .ok ts ↔ List.Forall₂ Row.Reads (s.selected p) ts := by
  obtain ⟨events, hquery⟩ := query_of_accepted accepted s
  rw [hquery]
  exact Except.mapError_eq_ok_iff.trans mapM_eq_ok_iff

/-- A query of a predicate that does not fit is **refused for a limit that it exceeds**, whatever is
in the tables. -/
theorem exists_query_eq_refusal (named : p.NamesFields) (hlarge : ¬p.Fits) :
    ∃ e, p.Exceeds e ∧ ∀ s, (repository.query p s).result = .error (.cause (refusal e)) := by
  obtain ⟨e, hexceeds, hfault⟩ := Predicate.exists_fault?_of_not_fits named hlarge
  refine ⟨e, hexceeds, fun s => ?_⟩
  obtain ⟨events, hquery⟩ := Keeps.query_eq_of_fault hfault s
  rw [hquery]

/-- Every task that a query answers is read from a selected row. -/
theorem exists_reads_of_query {ts : List Task} {t : Task}
    (h : (repository.query p s).result = .ok ts) (ht : t ∈ ts) :
    ∃ r ∈ s.selected p, r.Reads t := by
  cases hfault : p.fault? with
  | some e =>
      obtain ⟨events, hquery⟩ := Keeps.query_eq_of_fault hfault s
      rw [hquery] at h
      cases h
  | none => exact Row.exists_reads ((query_eq_ok_iff hfault).mp h) ht

/-- A query that is not refused fails for the **fault of the first selected row** that has one. -/
theorem query_eq_error_iff (accepted : p.fault? = none) {e : Failure RepoError} :
    (repository.query p s).result = .error e ↔
      ∃ r fault, s.Blames p r fault ∧ e = .cause fault := by
  obtain ⟨events, hquery⟩ := query_of_accepted accepted s
  have hmap (x : Except RepoError (List Task)) :
      x.mapError Failure.cause = .error e ↔ ∃ fault, x = .error fault ∧ e = .cause fault := by
    cases x <;> simp [Except.mapError, eq_comm]
  rw [hquery, hmap]
  constructor
  · rintro ⟨fault, hread, rfl⟩
    obtain ⟨before, r, after, hsplit, hbefore, hr⟩ := mapM_eq_error_iff.mp hread
    exact ⟨r, fault,
      blames_iff.mpr ⟨before, after, hsplit, hbefore, Row.fault?_eq_some_iff.mpr hr⟩, rfl⟩
  · rintro ⟨r, fault, hblames, rfl⟩
    obtain ⟨before, after, hsplit, hbefore, hr⟩ := blames_iff.mp hblames
    exact ⟨fault, mapM_eq_error_iff.mpr
      ⟨before, r, after, hsplit, hbefore, Row.fault?_eq_some_iff.mp hr⟩, rfl⟩

/-- A query that is not refused answers if and only if **no selected row has a fault**. -/
theorem exists_query_eq_ok_iff (accepted : p.fault? = none) :
    (∃ ts, (repository.query p s).result = .ok ts) ↔ ∀ r ∈ s.selected p, r.fault? = none := by
  simp only [query_eq_ok_iff accepted, exists_forall₂_iff, Row.fault?_eq_none_iff]
  exact Iff.rfl

/-- The answer to a query stands by ascending id. -/
theorem ids_of_query_eq_ok (accepted : p.fault? = none) {ts : List Task}
    (h : (repository.query p s).result = .ok ts) :
    ∃ ids : List Int64, ts.map Task.id = ids.map some ∧ ids.Pairwise (· < ·) := by
  refine ⟨(s.selected p).map Row.id, ?_, ?_⟩
  · rw [Row.map_id_of_reads ((query_eq_ok_iff accepted).mp h), List.map_map]
    rfl
  · rw [List.pairwise_map]
    exact s.pairwise_selected p

end Tables

/-! ### Selecting before reading and after it -/

/-- Selecting and reading **commute** for a predicate that fits into a statement and that, for every
task that can be stored, selects the cells of the task if it holds of the task. -/
structure Predicate.Commutes [Engine] (p : Predicate) : Prop where
  fits : p.Fits
  selects : ∀ t : Task, t.id.isSome = true → Text.isBlankText t.title = false →
    p.holds t = p.selects t.cells

namespace Predicate

variable [Engine] {p : Predicate}

/-- Selecting and reading commute for a plain predicate. -/
theorem Plain.commutes (plain : p.Plain) : p.Commutes where
  fits := plain.fits
  selects t _ _ := by
    rw [selects_eq (plain.findsExactly (t.cells .id))]
    exact plain.agrees t

/-- Selecting rows and then reading them gives the tasks of which the predicate holds. -/
theorem Commutes.forall₂_filter (h : p.Commutes) {rows : List Row} {ts : List Task}
    (hread : List.Forall₂ Row.Reads rows ts) :
    List.Forall₂ Row.Reads (rows.filter fun r => p.selects r.cells) (ts.filter p.holds) := by
  refine Taskbook.forall₂_filter hread fun r _ t hr => ?_
  obtain ⟨htitle, hcells⟩ := Row.reads_iff.mp hr
  have hid : t.id.isSome = true := by rw [hr.id_eq]; rfl
  rw [h.selects t hid htitle, hcells]

end Predicate

namespace Tables

/-- The tables whose only row holds a task with an id, next to the recurring task that it refers
to. -/
def single (id : Int64) (t : Task) : Tables where
  tasks := ⟨[.ofCells id t.cells], List.pairwise_singleton _ _⟩
  recurring := t.createdFrom.toList

/-- A single row is read as its task. -/
theorem keeps_single {t : Task} {id : Int64} (hid : t.id = some id)
    (htitle : Text.isBlankText t.title = false) : (single id t).Keeps [t] :=
  .cons (Row.reads_iff.mpr ⟨htitle, (Row.cells_ofCells_of_id hid).symm⟩) .nil

end Tables

/-- **Selecting and reading can be interchanged** on every table all of whose rows are read, if and
only if they commute for the predicate. -/
theorem Predicate.commutes_iff [Engine] {p : Predicate} (named : p.NamesFields) :
    (∀ (s : Tables) (ts : List Task), s.Keeps ts →
        (Tables.repository.query p s).result = .ok (ts.filter p.holds)) ↔ p.Commutes := by
  constructor
  · intro h
    have fits : p.Fits := by
      by_contra hlarge
      obtain ⟨e, -, hrefused⟩ := Tables.exists_query_eq_refusal named hlarge
      have hempty := h .empty [] .nil
      rw [hrefused] at hempty
      cases hempty
    refine ⟨fits, ?_⟩
    intro t hid htitle
    obtain ⟨id, hid⟩ := Option.isSome_iff_exists.mp hid
    have hanswer := h _ _ (Tables.keeps_single hid htitle)
    have hread := (Tables.query_eq_ok_iff ((fault?_eq_none_iff named).mpr fits)).mp hanswer
    have hcells : (Row.ofCells id t.cells).cells = t.cells := Row.cells_ofCells_of_id hid
    have hlength := hread.length_eq
    cases hholds : p.holds t <;> cases hselects : p.selects t.cells <;>
      simp [Tables.selected, Tables.single, hcells, hholds, hselects] at hlength ⊢
  · intro h s ts hkeeps
    exact (Tables.query_eq_ok_iff ((fault?_eq_none_iff named).mpr h.fits)).mpr
      (h.forall₂_filter hkeeps)

/-- **What a query of any table answers**, for a predicate that names fields.

The tables stay as they are. A predicate that does not fit into a statement is refused for a limit
that it exceeds. Any other one answers the selected rows, each read as its task and all by ascending
id, if and only if none of them has a fault, and otherwise the fault of the blamed row. A row whose
id is found exactly, as it is strictly inside the range of ids, is selected if and only if the
predicate is true of its cells, whatever the engine is. That the answer is the tasks of which the
predicate holds in memory, whenever all rows are read, is so if and only if selecting and reading
commute for the predicate. -/
theorem Tables.query_spec [Engine] {p : Predicate} (named : p.NamesFields) :
    (∀ s, (repository.query p s).store = s) ∧
    (¬p.Fits → ∃ e, p.Exceeds e ∧
      ∀ s, (repository.query p s).result = .error (.cause (refusal e))) ∧
    (p.Fits → ∀ s,
      ((∃ ts, (repository.query p s).result = .ok ts) ↔ ∀ r ∈ s.selected p, r.fault? = none) ∧
      (∀ ts, (repository.query p s).result = .ok ts ↔
        List.Forall₂ Row.Reads (s.selected p) ts) ∧
      (∀ ts, (repository.query p s).result = .ok ts →
        ∃ ids : List Int64, ts.map Task.id = ids.map some ∧ ids.Pairwise (· < ·)) ∧
      ∀ e, (repository.query p s).result = .error e ↔
        ∃ r fault, s.Blames p r fault ∧ e = .cause fault) ∧
    (∀ s : Tables, ∀ r ∈ s.tasks.rows, p.FindsExactly (.integer r.id) →
      (r ∈ s.selected p ↔ p.truth r.cells = .yes)) ∧
    (∀ id : Int64, Int64.minValue.toInt < id.toInt → id.toInt < Int64.maxValue.toInt →
      p.FindsExactly (.integer id)) ∧
    ((∀ (s : Tables) (ts : List Task), s.Keeps ts →
      (repository.query p s).result = .ok (ts.filter p.holds)) ↔ p.Commutes) := by
  refine ⟨?_, ?_, ?_, ?_, ?_, ?_⟩
  · exact fun s => s.store_query p
  · exact exists_query_eq_refusal named
  · intro hfits s
    have accepted : p.fault? = none := (Predicate.fault?_eq_none_iff named).mpr hfits
    refine ⟨?_, ?_, ?_, ?_⟩
    · exact exists_query_eq_ok_iff accepted
    · exact fun ts => query_eq_ok_iff accepted
    · exact fun ts => ids_of_query_eq_ok accepted
    · exact fun e => query_eq_error_iff accepted
  · exact fun s r hr finds => mem_selected_iff hr finds
  · exact fun id low high => p.findsExactly_of_lt low high
  · exact Predicate.commutes_iff named

/-- A table of three rows: the first is a task, the second has an unknown priority, and in the third
the title is a number. What was created at five is the first row alone, and the query answers it.
Everything is all three rows, and the query is refused for the second. -/
theorem Tables.query_spec_corrupt_rows :
    let _ : Engine := .scanning
    let good : Task := { id := some 1, title := "a", createdOn := ⟨5⟩ }
    let unknown : Row :=
      { Row.ofCells 2 good.cells with createdOn := .integer 6, priority := .integer 9 }
    let untitled : Row :=
      { Row.ofCells 3 good.cells with createdOn := .integer 7, title := .integer 1 }
    let s : Tables :=
      { tasks := ⟨[.ofCells 1 good.cells, unknown, untitled], by decide⟩, recurring := [] }
    let fromFive : Predicate := .condition ⟨"created_on", .equals, .integer 5, by decide, rfl⟩
    (repository.query fromFive s).result = .ok [good] ∧
      (repository.query fromFive s).store = s ∧
      (repository.query .always s).result =
        .error (.cause (.invalidData (.refused (.unknownCode .priority 9)))) := by
  intro _ good unknown untitled s fromFive
  obtain ⟨hstore, -, hanswer, -⟩ := query_spec (p := fromFive) (by decide)
  obtain ⟨-, hok, -⟩ := hanswer (by decide) s
  obtain ⟨-, -, hrefused, -⟩ := query_spec Predicate.plain_always.named
  obtain ⟨-, -, -, herror⟩ := hrefused (by decide) s
  have hselected : s.selected fromFive = [.ofCells 1 good.cells] := by decide
  have hall : s.selected .always = s.tasks.rows := by decide
  refine ⟨(hok _).mpr ?_, hstore s, (herror _).mpr ⟨unknown, _, ⟨?_, ?_, ?_⟩, rfl⟩⟩
  · rw [hselected]
    exact .cons (Row.reads_iff.mpr ⟨by decide, (Row.cells_ofCells_of_id rfl).symm⟩) .nil
  · rw [hall]
    exact List.mem_cons_of_mem _ List.mem_cons_self
  · decide
  · rw [hall]
    decide

/-- **An answer need not be what holds in memory**, although all rows are read and whatever the engine
is. In memory a task that was created at five was created at the numeral five behind a space that
does not break; in a table the operand stays a text, which equals no number. -/
theorem Tables.query_ne_filter_of_padded_numeral :
    ¬∃ _ : Engine, ∀ (p : Predicate) (s : Tables) (ts : List Task), p.NamesFields → s.Keeps ts →
      (repository.query p s).result = .ok (ts.filter p.holds) := by
  rintro ⟨_, h⟩
  let padded : Predicate := .condition ⟨"created_on", .equals, .text "\u00a05", by decide, rfl⟩
  have hnamed : padded.NamesFields := by decide
  have hcommutes : padded.Commutes :=
    (Predicate.commutes_iff hnamed).mp fun s ts hkeeps => h padded s ts hnamed hkeeps
  have hfound (id : Cell) : padded.FindsExactly id :=
    Predicate.AvoidsId.findsExactly hnamed (by decide) id
  have hsame := hcommutes.selects { id := some 1, title := "a", createdOn := ⟨5⟩ } rfl (by decide)
  rw [Predicate.selects_eq (hfound _)] at hsame
  exact absurd hsame (by decide)

end Taskbook
