import Taskbook.Table.Selection

/-!
# Planning: The Engine That Looks Rows Up

Plans make a lawful engine. Where the id of a row is found exactly, a plan leads to the row if and
only if its predicate is true of it (`Predicate.leadsTo_eq`). And a plan checks conditions of the
predicate and looks up ids, so it leads to both of two rows with one id that the predicate sees
alike, or to neither.

The program runs with this engine. What is proved of tables is proved for every engine.

## Main results

* `Predicate.SeesAlike.leadsTo_eq`: **what is not asked for makes no difference** to a plan;
* `Engine.planning`: the engine that follows plans.
-/

namespace Taskbook

/-- A term is **indifferent** to the difference between two rows if its predicate is as true of the
one as of the other, and its route, if it has one, leads to both or to neither by each way. -/
structure Term.Indifferent (a b : Cells) (t : Term) : Prop where
  truth : t.predicate.truth a = t.predicate.truth b
  route : ∀ r, t.route = some r → ∀ w ∈ r.ways, w.reaches a = w.reaches b

namespace Term

variable {a b : Cells}

/-- A condition that is as true of the one row as of the other is indifferent, if the rows have the
same id. -/
theorem indifferent_ofCondition (hid : a .id = b .id) {c : Condition}
    (h : c.truth a = c.truth b) : (ofCondition c).Indifferent a b := by
  have hlookedUp (operand : Stored) : (⟨some [operand], []⟩ : Way).reaches a =
      (⟨some [operand], []⟩ : Way).reaches b := by
    simp only [Way.reaches, hid, List.all_nil]
  have hchecked : (⟨none, [.condition c]⟩ : Way).reaches a =
      (⟨none, [.condition c]⟩ : Way).reaches b := by
    simp only [Way.reaches, Option.all_none, Bool.true_and, List.all_cons, List.all_nil,
      Predicate.truth, h]
  have hsingle {n : Nat} {v : Way} (hv : v.reaches a = v.reaches b) (r : Route)
      (hr : some ⟨n, [v]⟩ = some r) : ∀ w ∈ r.ways, w.reaches a = w.reaches b := by
    obtain rfl := Option.some.inj hr
    exact List.forall_mem_singleton.mpr hv
  unfold ofCondition
  dsimp only
  split
  · exact ⟨h, hsingle (hlookedUp _)⟩
  · exact ⟨h, hsingle hchecked⟩
  · exact ⟨h, hsingle hchecked⟩
  · exact ⟨h, by rintro _ ⟨⟩⟩
  · exact ⟨h, by rintro _ ⟨⟩⟩

/-- The route of a conjunction leads to both rows or to neither by each way, if its terms are
indifferent. -/
theorem conjunctionRoute_indifferent {cost : Term → Option Nat} {terms : List Term}
    (ht : ∀ t ∈ terms, t.Indifferent a b) {r : Route} (h : conjunctionRoute? cost terms = some r) :
    ∀ w ∈ r.ways, w.reaches a = w.reaches b := by
  obtain ⟨t, i, route, hmem, hroute, hways⟩ := conjunctionRoute_cases h
  rw [hways, List.forall_mem_map]
  intro v hv
  have hfound := (ht t (List.mem_of_getElem? hmem)).route route hroute v hv
  have hothers : ((terms.eraseIdx i).map predicate).all (fun p => p.truth a == .yes) =
      ((terms.eraseIdx i).map predicate).all fun p => p.truth b == .yes := by
    rw [Bool.eq_iff_iff]
    simp only [List.all_eq_true, List.mem_map, forall_exists_index, and_imp,
      forall_apply_eq_imp_iff₂]
    exact forall₂_congr fun u hu => by rw [(ht u (List.mem_of_mem_eraseIdx hu)).truth]
  rw [Way.reaches, Way.reaches] at hfound ⊢
  rw [List.all_append, List.all_append, ← Bool.and_assoc, ← Bool.and_assoc, hfound, hothers]

/-- The route of each alternative leads to both rows or to neither by each way, if its terms are
indifferent. -/
theorem alternatives_indifferent {alternatives : List (List Term)} {routes : List Route}
    (ht : ∀ ts ∈ alternatives, ∀ t ∈ ts, t.Indifferent a b)
    (h : alternatives.mapM alternativeRoute? = some routes) :
    ∀ r ∈ routes, ∀ w ∈ r.ways, w.reaches a = w.reaches b := by
  induction alternatives generalizing routes with
  | nil =>
      cases h
      exact fun r hr => nomatch hr
  | cons ts alternatives ih =>
      obtain ⟨r, rest, hroute, hrest, rfl⟩ := alternatives_cons h
      intro q hq
      rcases List.mem_cons.mp hq with rfl | hq
      · exact conjunctionRoute_indifferent (ht ts List.mem_cons_self) hroute
      · exact ih (fun us hus => ht us (List.mem_cons_of_mem ts hus)) hrest q hq

/-- A disjunction of indifferent terms is indifferent, if the rows have the same id. -/
theorem indifferent_ofAlternatives (hid : a .id = b .id) {p : Predicate}
    (hp : p.truth a = p.truth b) {alternatives : List (List Term)}
    (ht : ∀ ts ∈ alternatives, ∀ t ∈ ts, t.Indifferent a b) :
    (ofAlternatives p alternatives).Indifferent a b := by
  unfold ofAlternatives
  split
  · next keys hkeys =>
    refine ⟨hp, ?_⟩
    rintro r ⟨⟩ w hw
    rw [List.mem_singleton.mp hw]
    simp only [Way.reaches, hid, List.all_nil]
  · refine ⟨hp, fun r hr w hw => ?_⟩
    obtain ⟨routes, hroutes, rfl⟩ := Option.map_eq_some_iff.mp hr
    obtain ⟨route, hroute, hw⟩ := List.mem_flatMap.mp hw
    exact alternatives_indifferent ht hroutes route hroute w hw

end Term

namespace Predicate

variable {p : Predicate} {a b : Cells}

/-- The terms and the alternatives of a predicate that sees two rows with one id alike are
indifferent to the difference between them. -/
theorem SeesAlike.indifferent (hid : a .id = b .id) (h : p.SeesAlike a b) :
    (∀ t ∈ p.terms, t.Indifferent a b) ∧ ∀ ts ∈ p.alternatives, ∀ t ∈ ts, t.Indifferent a b := by
  induction p with
  | always =>
      have hconstant : (⟨always, .constant, none⟩ : Term).Indifferent a b :=
        ⟨rfl, fun _ h => nomatch h⟩
      simp only [terms, alternatives, List.forall_mem_singleton]
      exact ⟨hconstant, hconstant⟩
  | condition c =>
      have hcondition : (Term.ofCondition c).Indifferent a b :=
        Term.indifferent_ofCondition hid (SeesAlike.truth_eq h)
      simp only [terms, alternatives, List.forall_mem_singleton]
      exact ⟨hcondition, hcondition⟩
  | combine k l r ihl ihr =>
      obtain ⟨hlt, hla⟩ := ihl h.1
      obtain ⟨hrt, hra⟩ := ihr h.2
      have hterms : ∀ t ∈ l.terms ++ r.terms, t.Indifferent a b :=
        List.forall_mem_append.mpr ⟨hlt, hrt⟩
      have halternatives : ∀ ts ∈ l.alternatives ++ r.alternatives, ∀ t ∈ ts, t.Indifferent a b :=
        List.forall_mem_append.mpr ⟨hla, hra⟩
      cases k with
      | and =>
          simp only [terms, alternatives, List.forall_mem_singleton]
          exact ⟨hterms, hterms⟩
      | or =>
          simp only [terms, alternatives, List.forall_mem_singleton]
          exact ⟨Term.indifferent_ofAlternatives hid h.truth_eq halternatives,
            halternatives⟩

/-- **What a predicate does not ask for makes no difference** to where its plan leads. -/
theorem SeesAlike.leadsTo_eq (hid : a .id = b .id) (h : p.SeesAlike a b) :
    p.leadsTo a = p.leadsTo b := by
  have hways : ∀ w ∈ p.plan, w.reaches a = w.reaches b := by
    unfold plan
    split
    · next r hr => exact Term.conjunctionRoute_indifferent (h.indifferent hid).1 hr
    · intro w hw
      rw [List.mem_singleton.mp hw]
      simp only [Way.reaches, Option.all_none, List.all_cons, h.truth_eq, List.all_nil]
  rw [leadsTo, leadsTo, Bool.eq_iff_iff, List.any_eq_true, List.any_eq_true]
  exact exists_congr fun w => and_congr_right fun hw => by rw [hways w hw]

end Predicate

/-- The engine that follows plans, and gives out the least free id after the last one. -/
@[reducible] def Engine.planning : Engine where
  reaches := Predicate.leadsTo
  reaches_eq := Predicate.leadsTo_eq
  reaches_congr hid h := h.leadsTo_eq hid
  draw := firstFreeId

/-- The engine that the program runs with. -/
instance : Engine := .planning

end Taskbook
