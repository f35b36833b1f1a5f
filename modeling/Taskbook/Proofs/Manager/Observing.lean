import Taskbook.Proofs.Manager.Overwriting
import Taskbook.Proofs.Store.InPlace

/-!
# Queries After an Insertion

An insertion adds one task behind the others, and every later query should see exactly that: the
answer that it would have given before, and behind it the new task if the predicate holds of it. In
memory this is so for every predicate. In tables it is so for a predicate that fits into a statement
and that selects the row of the new task if and only if it holds of the task, and for no other. The
row holds the task, so nothing is lost on the way into the table and back, whatever the timestamps
and the title are.

## Main results

* `MemoryStore.insert_observed`: in memory **every query observes** an insertion;
* `Tables.insert_observed`: tables **take a new task** in a row behind the others;
* `Tables.query_append`: in tables **a query answers the row** behind what it answered before;
* `Tables.observes_iff`: **which queries observe** an insertion;
* `insertion_observed`: **what an insertion does** and what is seen of it, on both backends.
-/

namespace Taskbook

/-- A query **observes** that a task was added between two stores: it answers the second one with
what it answers the first one with, and behind that the task if the predicate holds of it. -/
def Repository.Observes {σ : Type} (repo : Repository σ) (s s' : σ) (new : Task) (p : Predicate) :
    Prop :=
  ∃ before, (repo.query p s).result = .ok before ∧
    (repo.query p s').result = .ok (before ++ [new].filter p.holds)

/-! ### The store in memory -/

namespace MemoryStore

/-- In memory **every query observes** that a task was appended. -/
theorem observes (s : MemoryStore) (new : Task) (next : Int64) (p : Predicate) :
    repository.Observes s ⟨s.tasks ++ [new], next⟩ new p :=
  ⟨s.tasks.filter p.holds, rfl, congrArg Except.ok (List.filter_append _ _)⟩

/-- A sound store whose counter is below the last id **takes a new task**, and every query observes
it. -/
theorem insert_observed {s : MemoryStore} (h : s.Sound)
    (below : s.nextId.toInt < Int64.maxValue.toInt) {t : Task} (hid : t.id = none)
    (htitle : Text.isBlankText t.title = false) :
    let new : Task := { t with id := some s.nextId }
    ∃ s', insertInPlace ⟨s, t⟩ = ⟨.ok (), ⟨s', new⟩, []⟩ ∧
      (repository.query (.hasId s.nextId) s').result = .ok [new] ∧
      ∀ p, repository.Observes s s' new p := by
  intro new
  obtain ⟨next, hnext, -⟩ := Number.exists_next? below
  have hinsert := insert_eq hid htitle s
  rw [hnext] at hinsert
  refine ⟨⟨s.tasks ++ [new], next⟩, ?_, ?_, fun p => s.observes new next p⟩
  · rw [insertInPlace_eq, hinsert]
    rfl
  · have hkeyed : Keyed (s.tasks ++ [new]) := h.keyed.append rfl h.fresh
    exact congrArg Except.ok
      (hkeyed.filter_hasId (List.mem_append_right _ (List.mem_singleton_self new)) rfl)

end MemoryStore

/-! ### Tables -/

namespace Tables

variable {s s' : Tables} {ts : List Task} {t : Task} {id : Int64} {p : Predicate}

/-- What a table is asked before and after a row is appended: **the same, and then the row**. -/
theorem selected_append [Engine] {r : Row} (hrows : s'.tasks.rows = s.tasks.rows ++ [r])
    (p : Predicate) :
    s'.selected p = s.selected p ++ if p.selects r.cells then [r] else [] := by
  rw [selected, selected, hrows, List.filter_append, List.filter_cons, List.filter_nil]

/-- In tables a query that is not refused **answers the new task** behind what it answered before,
if the predicate selects its row. -/
theorem query_append [Engine] (h : s.Keeps ts) (accepted : p.fault? = none)
    (htitle : Text.isBlankText t.title = false)
    (hrows : s'.tasks.rows = s.tasks.rows ++ [.ofCells id t.cells]) :
    let new : Task := { t with id := some id }
    ∃ before, (repository.query p s).result = .ok before ∧
      (repository.query p s').result =
        .ok (before ++ if p.selects new.cells then [new] else []) := by
  intro new
  have hcells : (Row.ofCells id t.cells).cells = new.cells :=
    Row.cells_ofCells_of_id (t := new) rfl
  have hread : (Row.ofCells id t.cells).Reads new := Row.reads_iff.mpr ⟨htitle, hcells.symm⟩
  have hall : ∀ r ∈ s.tasks.rows, ∃ u, r.Reads u := exists_forall₂_iff.mp ⟨ts, h⟩
  obtain ⟨before, hbefore⟩ : ∃ before, List.Forall₂ Row.Reads (s.selected p) before :=
    exists_forall₂_iff.mpr fun r hr => hall r (List.mem_of_mem_filter hr)
  refine ⟨before, (query_eq_ok_iff accepted).mpr hbefore, (query_eq_ok_iff accepted).mpr ?_⟩
  rw [selected_append hrows, hcells]
  refine List.rel_append hbefore ?_
  split
  · exact .cons hread .nil
  · exact .nil

/-- **Which queries observe** that a task was appended: those of a predicate that fits into a
statement and that selects the cells of the task if it holds of the task. -/
theorem observes_iff [Engine] (h : s.Keeps ts) (named : p.NamesFields)
    (htitle : Text.isBlankText t.title = false)
    (hrows : s'.tasks.rows = s.tasks.rows ++ [.ofCells id t.cells]) :
    let new : Task := { t with id := some id }
    repository.Observes s s' new p ↔ p.Fits ∧ p.holds new = p.selects new.cells := by
  intro new
  have hfilter : [new].filter p.holds = if p.holds new then [new] else [] := by
    rw [List.filter_cons, List.filter_nil]
  rw [Repository.Observes, hfilter]
  by_cases hfits : p.Fits
  · obtain ⟨before, hbefore, hafter⟩ :=
      query_append h ((Predicate.fault?_eq_none_iff named).mpr hfits) htitle hrows
    rw [hbefore, hafter]
    constructor
    · rintro ⟨_, ⟨⟩, hsame⟩
      have hrest := List.append_cancel_left (Except.ok.inj hsame)
      refine ⟨hfits, ?_⟩
      cases hholds : p.holds new <;> cases hselects : p.selects new.cells <;>
        simp [new, hholds, hselects] at hrest ⊢
    · rintro ⟨-, hsame⟩
      exact ⟨before, rfl, by rw [hsame]⟩
  · obtain ⟨e, -, hrefused⟩ := exists_query_eq_refusal named hfits
    rw [hrefused]
    constructor
    · rintro ⟨before, ⟨⟩, -⟩
    · rintro ⟨h, -⟩
      exact absurd h hfits

/-- The query for the id of an appended row answers its task. -/
theorem query_hasId_of_append [Engine] (htitle : Text.isBlankText t.title = false)
    (hrows : s'.tasks.rows = s.tasks.rows ++ [.ofCells id t.cells]) :
    (repository.query (.hasId id) s').result = .ok [{ t with id := some id }] := by
  have hmem : Row.ofCells id t.cells ∈ s'.tasks.rows := by
    rw [hrows]
    exact List.mem_append_right _ (List.mem_singleton_self _)
  have hread : (Row.ofCells id t.cells).Reads { t with id := some id } :=
    Row.reads_iff.mpr ⟨htitle, (Row.cells_ofCells_of_id (t := { t with id := some id }) rfl).symm⟩
  exact slotted.query_hasId s'.nodup_ids hmem rfl hread

/-- The fresh id of tables whose ids are below the last is that of no task that they keep. -/
theorem Keeps.ne_nextId [Engine] (h : s.Keeps ts) (below : s.BelowLast) :
    ∀ u ∈ ts, u.id ≠ some s.nextId := by
  intro u hu huid
  obtain ⟨r, hr, hread⟩ := h.exists_reads hu
  have hlt := below.lt_nextId r hr
  rw [Option.some.inj (hread.id_eq.symm.trans huid)] at hlt
  omega

/-- Tables whose ids are below the last **take a new task**, in a row behind the others. -/
theorem insert_observed [Engine] (h : s.Keeps ts) (below : s.BelowLast) (hid : t.id = none)
    (htitle : Text.isBlankText t.title = false)
    (hfrom : ∀ id, t.createdFrom = some id → id ∈ s.recurring) :
    let new : Task := { t with id := some s.nextId }
    ∃ s', insertInPlace ⟨s, t⟩ = ⟨.ok (), ⟨s', new⟩, []⟩ ∧
      (repository.query (.hasId s.nextId) s').result = .ok [new] ∧ s'.Keeps (ts ++ [new]) ∧
      s'.tasks.rows = s.tasks.rows ++ [.ofCells s.nextId t.cells] := by
  intro new
  have hrefers : s.refers t.cells = true := by
    rw [refers_cells, Option.all_eq_true]
    exact fun id hid => List.contains_iff_mem.mpr (hfrom id hid)
  obtain ⟨s', hinsert, -, hrows⟩ := insert_of_belowLast below hid htitle hrefers
  refine ⟨s', ?_, query_hasId_of_append htitle hrows, h.append htitle hrows, hrows⟩
  rw [insertInPlace_eq, hinsert]
  rfl

end Tables

/-- **What an insertion does, and what is seen of it.** A task without an id and with a title is
taken by every store in memory that can be reached and whose counter is below the last id, and by
all tables whose rows are read and whose ids are below the last, if its recurring task exists. It is
given an id that no other task has, the id is written into the variable and nothing else is, and
the query for the id answers it in all its fields. In memory every query observes the insertion. In
tables a query of a plain predicate does; any query answers the new task behind what it answered
before if the row is selected, unless it does not fit into a statement and is refused for that
before and after; and a query observes the insertion exactly if it fits and selects the row if the
predicate holds of the task. That is so for every engine. -/
theorem insertion_observed [Engine] {t : Task} (hid : t.id = none)
    (htitle : Text.isBlankText t.title = false) :
    (∀ s : MemoryStore, s.Reachable → s.nextId.toInt < Int64.maxValue.toInt →
      ∃ id s', (∀ u ∈ s.tasks, u.id ≠ some id) ∧
        let new : Task := { t with id := some id }
        MemoryStore.insertInPlace ⟨s, t⟩ = ⟨.ok (), ⟨s', new⟩, []⟩ ∧
          (MemoryStore.repository.query (.hasId id) s').result = .ok [new] ∧
          ∀ p, MemoryStore.repository.Observes s s' new p) ∧
      ∀ (s : Tables) (ts : List Task), s.Keeps ts → s.BelowLast →
        (∀ id, t.createdFrom = some id → id ∈ s.recurring) →
        ∃ id s', (∀ u ∈ ts, u.id ≠ some id) ∧
          let new : Task := { t with id := some id }
          Tables.insertInPlace ⟨s, t⟩ = ⟨.ok (), ⟨s', new⟩, []⟩ ∧
            (Tables.repository.query (.hasId id) s').result = .ok [new] ∧
            s'.Keeps (ts ++ [new]) ∧
            ∀ p : Predicate, p.NamesFields →
              (p.Plain → Tables.repository.Observes s s' new p) ∧
              (p.Fits →
                ∃ before, (Tables.repository.query p s).result = .ok before ∧
                  (Tables.repository.query p s').result =
                    .ok (before ++ if p.selects new.cells then [new] else [])) ∧
              (¬p.Fits → ∃ e, p.Exceeds e ∧ ∀ s,
                (Tables.repository.query p s).result = .error (.cause (Tables.refusal e))) ∧
              (Tables.repository.Observes s s' new p ↔
                p.Fits ∧ p.holds new = p.selects new.cells) := by
  constructor
  · intro s hreach below
    obtain ⟨s', hinsert, hquery, hobserves⟩ :=
      MemoryStore.insert_observed hreach.sound below hid htitle
    exact ⟨s.nextId, s', hreach.sound.fresh, hinsert, hquery, hobserves⟩
  · intro s ts h below hfrom
    obtain ⟨s', hinsert, hquery, hkeeps, hrows⟩ :=
      Tables.insert_observed h below hid htitle hfrom
    refine ⟨s.nextId, s', h.ne_nextId below, hinsert, hquery, hkeeps, fun p named =>
      ⟨?_, ?_, Tables.exists_query_eq_refusal named,
        Tables.observes_iff h named htitle hrows⟩⟩
    · intro plain
      exact (Tables.observes_iff h named htitle hrows).mpr
        ⟨plain.fits, plain.commutes.selects _ rfl htitle⟩
    · intro hfits
      exact Tables.query_append h ((Predicate.fault?_eq_none_iff named).mpr hfits) htitle hrows

/-- A task with the extreme timestamps and a title of quotes and a character outside the first plane
is inserted into the empty store in memory and behind a row of tables, and the query for what is to
be shown observes it in both. -/
theorem insertion_observed_extremes :
    let _ : Engine := .scanning
    let old : Task := { id := some 5, title := "old", createdOn := ⟨0⟩ }
    let t : Task :=
      { title := "\"'\x00😀", createdOn := ⟨-9223372036854775808⟩,
        dueDate := some ⟨9223372036854775807⟩, createdFrom := some 9 }
    let s : Tables := { tasks := ⟨[.ofCells 5 old.cells], by decide⟩, recurring := [9] }
    let shown : Predicate := .relevantAt ⟨0⟩
    (∃ id m, MemoryStore.insertInPlace ⟨.empty, t⟩ =
        ⟨.ok (), ⟨m, { t with id := some id }⟩, []⟩ ∧
      MemoryStore.repository.Observes .empty m { t with id := some id } shown) ∧
    ∃ id s', id ≠ 5 ∧
      Tables.insertInPlace ⟨s, t⟩ = ⟨.ok (), ⟨s', { t with id := some id }⟩, []⟩ ∧
      (Tables.repository.query (.hasId id) s').result = .ok [{ t with id := some id }] ∧
      Tables.repository.Observes s s' { t with id := some id } shown := by
  intro _ old t s shown
  obtain ⟨hmemory, htables⟩ := insertion_observed (t := t) rfl (by decide)
  obtain ⟨id, m, -, hinsert, -, hobserves⟩ :=
    hmemory .empty MemoryStore.reachable_empty (by decide)
  have hkeeps : s.Keeps [old] := Tables.keeps_single rfl (by decide)
  obtain ⟨id', s', hfresh, hinsert', hquery, -, hobserves'⟩ :=
    htables s [old] hkeeps (by decide) fun _ hid =>
      List.mem_singleton.mpr (Option.some.inj hid).symm
  have hplain : shown.Plain := Predicate.plain_relevantAt ⟨0⟩
  refine ⟨⟨id, m, hinsert, hobserves shown⟩, id', s', ?_, hinsert', hquery,
    (hobserves' shown hplain.named).1 hplain⟩
  rintro rfl
  exact hfresh old (List.mem_singleton_self old) rfl

/-- **Not every query observes an insertion**, although all rows are read and whatever the engine
is. In memory a task that was created at five was created at the numeral five behind a space that
does not break; in a table the operand stays a text, which equals no number. -/
theorem insertion_not_observed_of_padded_numeral :
    ¬∃ _ : Engine, ∀ (s s' : Tables) (ts : List Task) (t new : Task) (p : Predicate),
      p.NamesFields → s.Keeps ts → s.BelowLast → t.id = none → Text.isBlankText t.title = false →
      (∀ id, t.createdFrom = some id → id ∈ s.recurring) →
      Tables.insertInPlace ⟨s, t⟩ = ⟨.ok (), ⟨s', new⟩, []⟩ →
      Tables.repository.Observes s s' new p := by
  rintro ⟨_, h⟩
  let t : Task := { title := "a", createdOn := ⟨5⟩ }
  let padded : Predicate := .condition ⟨"created_on", .equals, .text "\u00a05", by decide, rfl⟩
  have hkeeps : Tables.empty.Keeps [] := .nil
  have hnamed : padded.NamesFields := by decide
  have hfound (id : Cell) : padded.FindsExactly id :=
    Predicate.AvoidsId.findsExactly hnamed (by decide) id
  obtain ⟨s', hinsert, -, -, hrows⟩ :=
    Tables.insert_observed (t := t) hkeeps (by decide) rfl (by decide) nofun
  have hobserves := h _ _ _ t _ padded hnamed hkeeps (by decide) rfl (by decide) nofun hinsert
  obtain ⟨-, hsame⟩ := (Tables.observes_iff hkeeps hnamed (by decide) hrows).mp hobserves
  have hfirst : Tables.empty.nextId = 1 := rfl
  rw [hfirst, Predicate.selects_eq (hfound _)] at hsame
  exact absurd hsame (by decide)

end Taskbook
