import Mathlib.Data.List.Nodup
import Taskbook.Store.Repository

/-!
# Repositories with Slots

Whatever a repository keeps its tasks in, it keeps them in *slots*: a list of places, each under the
id of its task, next to something else that no update touches. An update writes one task to the
slot with its id. From this alone follows everything that is said of updates here: which of them
are refused and for what, that one slot changes and no other, and what two updates come to.

## Refusal convention

An update is refused for the first of four faults that applies: a blank title, an id that is
missing, an id that no slot has, and a recurring task that does not exist.

## Main results

* `overwrite_comm`, `overwrite_overwrite`, `overwrite_self`: **how two writes to slots go
  together**;
* `Slotted.update_cases`: **what an update can do**;
* `Slotted.updatesOne`: **an update replaces exactly one task**, in every repository with slots.
-/

namespace Taskbook

/-! ### Writing to slots -/

section Slots

variable {α : Type} {key : α → Option Int64} {n m : Int64} {a b : α} {xs : List α}

/-- The slots with what is under an id replaced. -/
def overwrite (key : α → Option Int64) (n : Int64) (a : α) (xs : List α) : List α :=
  xs.map fun x => if key x = some n then a else x

/-- Writing to a slot leaves the ids as they are. -/
theorem map_key_overwrite (ha : key a = some n) :
    (overwrite key n a xs).map key = xs.map key := by
  rw [overwrite, List.map_map]
  refine List.map_congr_left fun x _ => ?_
  by_cases hx : key x = some n
  · rw [Function.comp_apply, if_pos hx, ha, hx]
  · rw [Function.comp_apply, if_neg hx]

/-- Writes to different slots **commute**. -/
theorem overwrite_comm (ha : key a = some n) (hb : key b = some m) (hne : n ≠ m) :
    overwrite key n a (overwrite key m b xs) = overwrite key m b (overwrite key n a xs) := by
  have hna : key a ≠ some m := fun h => hne (Option.some.inj (ha.symm.trans h))
  have hmb : key b ≠ some n := fun h => hne (Option.some.inj (h.symm.trans hb))
  rw [overwrite, overwrite, overwrite, overwrite, List.map_map, List.map_map]
  refine List.map_congr_left fun x _ => ?_
  rw [Function.comp_apply, Function.comp_apply]
  by_cases hx : key x = some n
  · have hxm : key x ≠ some m := fun h => hne (Option.some.inj (hx.symm.trans h))
    rw [if_neg hxm, if_pos hx, if_neg hna]
  · by_cases hxm : key x = some m
    · rw [if_pos hxm, if_neg hmb, if_neg hx, if_pos hxm]
    · rw [if_neg hxm, if_neg hx, if_neg hxm]

/-- Of two writes to one slot **the last one counts**. -/
theorem overwrite_overwrite (ha : key a = some n) :
    overwrite key n b (overwrite key n a xs) = overwrite key n b xs := by
  rw [overwrite, overwrite, overwrite, List.map_map]
  refine List.map_congr_left fun x _ => ?_
  by_cases hx : key x = some n
  · rw [Function.comp_apply, if_pos hx, if_pos ha, if_pos hx]
  · rw [Function.comp_apply, if_neg hx]

/-- What is written to a slot that no other one shares its id with stands **in its place**. -/
theorem overwrite_split (distinct : (xs.map key).Nodup) (hn : some n ∈ xs.map key) (a : α) :
    ∃ before x after, xs = before ++ x :: after ∧ key x = some n ∧
      (∀ y ∈ before ++ after, key y ≠ some n) ∧
      overwrite key n a xs = before ++ a :: after := by
  obtain ⟨x, hx, hxn⟩ := List.mem_map.mp hn
  obtain ⟨before, after, rfl⟩ := List.append_of_mem hx
  have hothers : ∀ y ∈ before ++ after, key y ≠ some n := by
    have hperm : ((x :: (before ++ after)).map key).Nodup :=
      (List.perm_middle.map key).nodup_iff.mp distinct
    obtain ⟨hnotin, -⟩ := List.nodup_cons.mp hperm
    exact fun y hy hyn => hnotin (List.mem_map.mpr ⟨y, hy, hyn.trans hxn.symm⟩)
  have hsame (ys : List α) (h : ∀ y ∈ ys, key y ≠ some n) : overwrite key n a ys = ys := by
    have hkept : ∀ y ∈ ys, (if key y = some n then a else y) = y := fun y hy => if_neg (h y hy)
    rw [overwrite, List.map_congr_left hkept, List.map_id']
  refine ⟨before, x, after, rfl, hxn, hothers, ?_⟩
  have hbefore := hsame before fun y hy => hothers y (List.mem_append_left _ hy)
  have hafter := hsame after fun y hy => hothers y (List.mem_append_right _ hy)
  rw [overwrite, List.map_append, List.map_cons, if_pos hxn, ← overwrite, ← overwrite, hbefore,
    hafter]

/-- Writing back what is in a slot **changes nothing**. -/
theorem overwrite_self (distinct : (xs.map key).Nodup) (ha : a ∈ xs) (hn : key a = some n) :
    overwrite key n a xs = xs := by
  have hkept : ∀ x ∈ xs, (if key x = some n then a else x) = x := by
    intro x hx
    by_cases hxn : key x = some n
    · rw [if_pos hxn]
      exact List.inj_on_of_nodup_map distinct ha hx (hn.trans hxn.symm)
    · rw [if_neg hxn]
  rw [overwrite, List.map_congr_left hkept, List.map_id']

end Slots

/-! ### Repositories with slots -/

/-- What writing a task back is **refused for**, the first that applies, given the ids that are
there and whether the recurring task exists that the task refers to. -/
def Task.updateFault? (t : Task) (ids : List (Option Int64)) (refers : Bool) : Option RepoError :=
  if Text.isBlankText t.title then some (.validation .empty)
  else
    match t.id with
    | none => some .missingId
    | some n =>
      if !ids.contains (some n) then some (.notFound n)
      else if refers then none else some (.db (.sql .foreignKey))

/-- Nothing is refused if no fault applies. -/
theorem Task.updateFault?_eq_none_iff {t : Task} {ids : List (Option Int64)} {refers : Bool} :
    t.updateFault? ids refers = none ↔
      Text.isBlankText t.title = false ∧ ∃ n, t.id = some n ∧ some n ∈ ids ∧ refers = true := by
  rw [updateFault?]
  cases Text.isBlankText t.title with
  | true => simp
  | false =>
      cases t.id with
      | none => simp
      | some n => by_cases hn : some n ∈ ids <;> simp [hn]

/-- The four faults, each where those before it do not apply. -/
theorem Task.updateFault?_eq_some {t : Task} {ids : List (Option Int64)} {refers : Bool}
    {e : RepoError} (h : t.updateFault? ids refers = some e) :
    (Text.isBlankText t.title = true ∧ e = .validation .empty) ∨
      Text.isBlankText t.title = false ∧
        ((t.id = none ∧ e = .missingId) ∨
          ∃ n, t.id = some n ∧
            ((some n ∉ ids ∧ e = .notFound n) ∨
              (some n ∈ ids ∧ refers = false ∧ e = .db (.sql .foreignKey)))) := by
  rw [updateFault?] at h
  cases hblank : Text.isBlankText t.title with
  | true => simp_all
  | false =>
      cases hid : t.id with
      | none => simp_all
      | some n => by_cases hn : some n ∈ ids <;> simp_all

/-- A repository that keeps its tasks in **slots**. -/
structure Slotted {σ : Type} (repo : Repository σ) where
  /-- What a task is kept in. -/
  Slot : Type
  /-- What a store consists of beside its slots. -/
  Rest : Type
  slots : σ → List Slot
  rest : σ → Rest
  ext : ∀ {s s'}, slots s = slots s' → rest s = rest s' → s = s'
  /-- The id that a slot is under. -/
  key : Slot → Option Int64
  /-- The slot that a task is written as. -/
  written : Task → Slot
  /-- Whether a slot is read as a task. -/
  Reads : Slot → Task → Prop
  key_written : ∀ {t n}, t.id = some n → key (written t) = some n
  reads_written : ∀ {t n}, t.id = some n → Text.isBlankText t.title = false → Reads (written t) t
  written_of_reads : ∀ {x t}, Reads x t → written t = x ∧ t.id = key x
  /-- Whether the recurring task exists that a task refers to. -/
  refers : Rest → Task → Bool
  update_of_fault : ∀ {s t e}, ((slots s).map key).Nodup →
    t.updateFault? ((slots s).map key) (refers (rest s) t) = some e →
    repo.update t s = ⟨.error (.cause e), s, []⟩
  update_of_none : ∀ {s t n}, ((slots s).map key).Nodup → t.id = some n →
    t.updateFault? ((slots s).map key) (refers (rest s) t) = none →
    ∃ s', repo.update t s = ⟨.ok (), s', []⟩ ∧
      slots s' = overwrite key n (written t) (slots s) ∧ rest s' = rest s
  query_hasId : ∀ {s n x t}, ((slots s).map key).Nodup → x ∈ slots s → key x = some n →
    Reads x t → (repo.query (.hasId n) s).result = .ok [t]
  reads_of_query : ∀ {s n ts t}, ((slots s).map key).Nodup →
    (repo.query (.hasId n) s).result = .ok ts → t ∈ ts → ∃ x ∈ slots s, key x = some n ∧ Reads x t

namespace Slotted

variable {σ : Type} {repo : Repository σ} (V : Slotted repo)

/-- The ids of a store. -/
def ids (s : σ) : List (Option Int64) :=
  (V.slots s).map V.key

/-- What an update of a store is refused for. -/
def fault? (s : σ) (t : Task) : Option RepoError :=
  t.updateFault? (V.ids s) (V.refers (V.rest s) t)

/-- An update **replaces exactly one task** of a store. -/
structure UpdatesOne (s : σ) : Prop where
  /-- An update succeeds exactly if the title is not blank, the id is there and the reference is to
  a recurring task that exists. -/
  done_iff : ∀ t, (repo.update t s).result = .ok () ↔
    Text.isBlankText t.title = false ∧
      ∃ n, t.id = some n ∧ some n ∈ V.ids s ∧ V.refers (V.rest s) t = true
  /-- Otherwise it is refused for the first fault that applies and changes nothing. -/
  refused : ∀ t, (repo.update t s).result ≠ .ok () →
    ∃ e, V.fault? s t = some e ∧ repo.update t s = ⟨.error (.cause e), s, []⟩
  /-- The slot with the id is read as the task afterwards, and all else is as it was. -/
  replaced : ∀ t n, t.id = some n → (repo.update t s).result = .ok () →
    ∃ before x after, V.slots s = before ++ x :: after ∧ V.key x = some n ∧
      (∀ y ∈ before ++ after, V.key y ≠ some n) ∧
      V.slots (repo.update t s).store = before ++ V.written t :: after ∧
      V.Reads (V.written t) t ∧ V.rest (repo.update t s).store = V.rest s
  /-- A query for the id answers the task. -/
  answered : ∀ t n, t.id = some n → (repo.update t s).result = .ok () →
    (repo.query (.hasId n) (repo.update t s).store).result = .ok [t]
  /-- Updates of different ids commute. -/
  commute : ∀ t u, t.id ≠ u.id → (repo.update t s).result = .ok () →
    (repo.update u (repo.update t s).store).result = .ok () →
    (repo.update u s).result = .ok () ∧ (repo.update t (repo.update u s).store).result = .ok () ∧
      (repo.update t (repo.update u s).store).store = (repo.update u (repo.update t s).store).store
  /-- Of two updates of one id only the last matters. -/
  last : ∀ t u, t.id = u.id → (repo.update t s).result = .ok () →
    (repo.update u (repo.update t s).store).result = .ok () →
    (repo.update u s).result = .ok () ∧
      (repo.update u (repo.update t s).store).store = (repo.update u s).store
  /-- An update with what has just been read changes nothing. -/
  same : ∀ n ts t, (repo.query (.hasId n) s).result = .ok ts → t ∈ ts →
    (repo.update t s).store = s

variable {V} {s : σ} {t u : Task}

/-- **What an update can do**: it is refused for its fault and changes nothing, or it has none and
writes to the slot with the id. -/
theorem update_cases (distinct : (V.ids s).Nodup) (t : Task) :
    (∃ e, V.fault? s t = some e ∧ repo.update t s = ⟨.error (.cause e), s, []⟩) ∨
      V.fault? s t = none ∧ ∃ n s', t.id = some n ∧ repo.update t s = ⟨.ok (), s', []⟩ ∧
        V.slots s' = overwrite V.key n (V.written t) (V.slots s) ∧ V.rest s' = V.rest s := by
  cases hfault : V.fault? s t with
  | some e => exact .inl ⟨e, rfl, V.update_of_fault distinct hfault⟩
  | none =>
      obtain ⟨-, n, hid, -, -⟩ := Task.updateFault?_eq_none_iff.mp hfault
      obtain ⟨s', hupdate, hslots, hrest⟩ := V.update_of_none distinct hid hfault
      exact .inr ⟨rfl, n, s', hid, hupdate, hslots, hrest⟩

/-- An update succeeds if and only if it has no fault. -/
theorem result_eq_ok_iff (distinct : (V.ids s).Nodup) :
    (repo.update t s).result = .ok () ↔ V.fault? s t = none := by
  rcases update_cases distinct t with ⟨e, hfault, hupdate⟩ | ⟨hfault, n, s', -, hupdate, -⟩
  · simp [hfault, hupdate]
  · simp [hfault, hupdate]

/-- An update that succeeds writes to the slot with the id. -/
theorem slots_of_ok (distinct : (V.ids s).Nodup) {n : Int64} (hid : t.id = some n)
    (h : (repo.update t s).result = .ok ()) :
    V.slots (repo.update t s).store = overwrite V.key n (V.written t) (V.slots s) := by
  rcases update_cases distinct t with ⟨e, -, hupdate⟩ | ⟨-, m, s', hid', hupdate, hslots, -⟩
  · rw [hupdate] at h
    cases h
  · obtain rfl := Option.some.inj (hid.symm.trans hid')
    rw [hupdate, hslots]

/-- An update leaves the ids as they are. -/
theorem ids_update (distinct : (V.ids s).Nodup) (t : Task) :
    V.ids (repo.update t s).store = V.ids s := by
  rcases update_cases distinct t with ⟨e, -, hupdate⟩ | ⟨-, n, s', hid, hupdate, hslots, -⟩
  · rw [hupdate]
  · rw [hupdate, ids, hslots, map_key_overwrite (V.key_written hid), ← ids]

/-- The ids are different after an update, too. -/
theorem nodup_update (distinct : (V.ids s).Nodup) (t : Task) :
    (V.ids (repo.update t s).store).Nodup :=
  ids_update distinct t ▸ distinct

/-- An update leaves what is beside the slots as it is. -/
theorem rest_update (distinct : (V.ids s).Nodup) (t : Task) :
    V.rest (repo.update t s).store = V.rest s := by
  rcases update_cases distinct t with ⟨e, -, hupdate⟩ | ⟨-, n, s', -, hupdate, -, hrest⟩
  · rw [hupdate]
  · rw [hupdate, hrest]

/-- An update makes no difference to what another one is refused for. -/
theorem fault?_update (distinct : (V.ids s).Nodup) (t u : Task) :
    V.fault? (repo.update t s).store u = V.fault? s u := by
  rw [fault?, fault?, ids_update distinct, rest_update distinct]

/-- An update of another one's result succeeds if and only if it would have without it. -/
theorem result_update_eq_ok_iff (distinct : (V.ids s).Nodup) (t u : Task) :
    (repo.update u (repo.update t s).store).result = .ok () ↔
      (repo.update u s).result = .ok () := by
  rw [result_eq_ok_iff (nodup_update distinct t), result_eq_ok_iff distinct, fault?_update distinct]

/-- The slots after two updates that succeed. -/
theorem slots_update_of_ok (distinct : (V.ids s).Nodup) {n m : Int64} (ht : t.id = some n)
    (hu : u.id = some m) (h : (repo.update t s).result = .ok ())
    (h' : (repo.update u (repo.update t s).store).result = .ok ()) :
    V.slots (repo.update u (repo.update t s).store).store =
      overwrite V.key m (V.written u) (overwrite V.key n (V.written t) (V.slots s)) := by
  rw [slots_of_ok (nodup_update distinct t) hu h', slots_of_ok distinct ht h]

/-- Two updates leave what is beside the slots as it is. -/
theorem rest_update_update (distinct : (V.ids s).Nodup) (t u : Task) :
    V.rest (repo.update u (repo.update t s).store).store = V.rest s := by
  rw [rest_update (nodup_update distinct t), rest_update distinct]

/-- An update that succeeds has an id that is there. -/
theorem exists_id_of_ok (distinct : (V.ids s).Nodup) (h : (repo.update t s).result = .ok ()) :
    Text.isBlankText t.title = false ∧ ∃ n, t.id = some n ∧ some n ∈ V.ids s := by
  obtain ⟨htitle, n, hid, hn, -⟩ :=
    Task.updateFault?_eq_none_iff.mp ((result_eq_ok_iff distinct).mp h)
  exact ⟨htitle, n, hid, hn⟩

/-- An update with what a slot is read as **changes nothing**. -/
theorem store_update_of_reads (distinct : (V.ids s).Nodup) {x : V.Slot} (hx : x ∈ V.slots s)
    (hread : V.Reads x t) : (repo.update t s).store = s := by
  obtain ⟨rfl, hid⟩ := V.written_of_reads hread
  rcases update_cases distinct t with ⟨e, -, hupdate⟩ | ⟨-, m, s', hm, hupdate, hslots, hrest⟩
  · rw [hupdate]
  · have hxm : V.key (V.written t) = some m := hid.symm.trans hm
    rw [hupdate]
    exact V.ext (hslots.trans (overwrite_self distinct hx hxm)) hrest

/-- **An update replaces exactly one task**, in every repository with slots. -/
theorem updatesOne (V : Slotted repo) (distinct : (V.ids s).Nodup) : V.UpdatesOne s where
  done_iff t := (result_eq_ok_iff distinct).trans Task.updateFault?_eq_none_iff
  refused t h := by
    rcases update_cases distinct t with hrefused | ⟨-, n, s', -, hupdate, -⟩
    · exact hrefused
    · rw [hupdate] at h
      exact absurd rfl h
  replaced t n hid h := by
    obtain ⟨htitle, m, hid', hm⟩ := exists_id_of_ok distinct h
    obtain rfl := Option.some.inj (hid.symm.trans hid')
    obtain ⟨before, x, after, hsplit, hx, hothers, hover⟩ :=
      overwrite_split distinct hm (V.written t)
    exact ⟨before, x, after, hsplit, hx, hothers, (slots_of_ok distinct hid h).trans hover,
      V.reads_written hid htitle, rest_update distinct t⟩
  answered t n hid h := by
    obtain ⟨htitle, m, hid', hm⟩ := exists_id_of_ok distinct h
    obtain rfl := Option.some.inj (hid.symm.trans hid')
    obtain ⟨before, x, after, -, -, -, hover⟩ := overwrite_split distinct hm (V.written t)
    have hmem : V.written t ∈ V.slots (repo.update t s).store := by
      rw [slots_of_ok distinct hid h, hover]
      exact List.mem_append_right _ List.mem_cons_self
    exact V.query_hasId (nodup_update distinct t) hmem (V.key_written hid)
      (V.reads_written hid htitle)
  commute t u hne ht hu := by
    have hu' := (result_update_eq_ok_iff distinct t u).mp hu
    have ht' := (result_update_eq_ok_iff distinct u t).mpr ht
    obtain ⟨-, n, hn, -⟩ := exists_id_of_ok distinct ht
    obtain ⟨-, m, hm, -⟩ := exists_id_of_ok distinct hu'
    have hnm : n ≠ m := fun h => hne (hn.trans (h ▸ hm.symm))
    refine ⟨hu', ht', V.ext ?_ ?_⟩
    · rw [slots_update_of_ok distinct hm hn hu' ht', slots_update_of_ok distinct hn hm ht hu,
        overwrite_comm (V.key_written hn) (V.key_written hm) hnm]
    · rw [rest_update_update distinct, rest_update_update distinct]
  last t u hsame ht hu := by
    have hu' := (result_update_eq_ok_iff distinct t u).mp hu
    obtain ⟨-, n, hn, -⟩ := exists_id_of_ok distinct ht
    have hm : u.id = some n := hsame ▸ hn
    refine ⟨hu', V.ext ?_ ?_⟩
    · rw [slots_update_of_ok distinct hn hm ht hu, slots_of_ok distinct hm hu',
        overwrite_overwrite (V.key_written hn)]
    · rw [rest_update_update distinct, rest_update distinct]
  same n ts t hquery ht := by
    obtain ⟨x, hx, -, hread⟩ := V.reads_of_query distinct hquery ht
    exact store_update_of_reads distinct hx hread

end Slotted

end Taskbook
