import Taskbook.Table.Engine
import Taskbook.Table.Plan

/-!
# Selection: Plans and Truth

Looking rows up instead of comparing them all is meant to change nothing, and it changes nothing
where the id of a row is found exactly. The terms of a predicate carry the argument: each of them
leads to the rows that it is true of, if it leads to any, and a choice among them cannot matter as
the others are checked.

## Main results

* `Predicate.leadsTo_eq`: a plan leads to a row **if and only if its predicate is true of it**,
  provided that the id of the row is found exactly.
-/

namespace Taskbook

/-- A conjunction is true if and only if both its parts are. -/
theorem Truth.and_beq_yes (a b : Truth) : (a.and b == .yes) = (a == .yes && b == .yes) := by
  cases a <;> cases b <;> rfl

/-- A disjunction is true if and only if one of its parts is. -/
theorem Truth.or_beq_yes (a b : Truth) : (a.or b == .yes) = (a == .yes || b == .yes) := by
  cases a <;> cases b <;> rfl

/-- Operands that find exactly find an id together if one of them equals it. -/
theorem Way.finds_eq_any {id : Cell} {operands : List Stored}
    (h : ∀ s ∈ operands, id.FindsExactly s) :
    Way.finds operands id =
      operands.any fun s => id.order (Affinity.integer.keep s.cell) == some .eq := by
  unfold Way.finds
  dsimp only
  cases hfind : (operands.map fun s => Affinity.integer.keep s.cell).reverse.find?
      fun c => id.order c == some .eq with
  | none =>
      rw [List.find?_eq_none] at hfind
      refine (List.any_eq_false.mpr fun s hs => ?_).symm
      exact hfind _ (List.mem_reverse.mpr (List.mem_map_of_mem hs))
  | some c =>
      have hequal := List.find?_some hfind
      obtain ⟨s, hs, rfl⟩ :=
        List.mem_map.mp (List.mem_reverse.mp (List.mem_of_find?_eq_some hfind))
      obtain ⟨n, hn⟩ := h s hs (beq_iff_eq.mp hequal)
      simp only [hn]
      exact (List.any_eq_true.mpr ⟨s, hs, hequal⟩).symm

namespace Term

/-- A term leads to the rows that it is true of, and an equality on the id finds exactly. -/
structure Sound (cells : Cells) (t : Term) : Prop where
  route : ∀ r, t.route = some r →
    (r.ways.any fun w => w.reaches cells) = (t.predicate.truth cells == .yes)
  key : ∀ s, t.kind = .key s →
    (t.predicate.truth cells == .yes) =
      ((cells .id).order (Affinity.integer.keep s.cell) == some .eq)
  finds : ∀ s, t.kind = .key s → (cells .id).FindsExactly s

variable {cells : Cells}

/-- A term that is no equality on the id is sound if its route is. -/
theorem Sound.of_route {t : Term} (hkind : ∀ s, t.kind ≠ .key s)
    (route : ∀ r, t.route = some r →
      (r.ways.any fun w => w.reaches cells) = (t.predicate.truth cells == .yes)) :
    t.Sound cells :=
  ⟨route, fun s hs => absurd hs (hkind s), fun s hs => absurd hs (hkind s)⟩

/-- An equality on the id is true of the rows whose id equals its operand. -/
theorem truth_beq_yes_of_id {c : Condition} (hid : Field.column? c.field = some .id)
    (hequals : c.comparison = .equals) : ((Predicate.condition c).truth cells == .yes) =
      ((cells .id).order (Affinity.integer.keep c.expected.stored.cell) == some .eq) := by
  simp only [Predicate.truth, Condition.truth, hid, hequals, Comparison.truth, Cell.orderOperand,
    Field.affinity]
  cases (cells .id).order (Affinity.integer.keep c.expected.stored.cell) with
  | none => rfl
  | some o => cases o <;> rfl

/-- A condition leads to the rows that it is true of. -/
theorem sound_ofCondition {c : Condition}
    (h : Field.column? c.field = some .id → c.comparison = .equals →
      (cells .id).FindsExactly c.expected.stored) :
    (ofCondition c).Sound cells := by
  have hchecked {n : Nat} (r : Route) (hr : some ⟨n, [⟨none, [.condition c]⟩]⟩ = some r) :
      (r.ways.any fun w => w.reaches cells) = ((Predicate.condition c).truth cells == .yes) := by
    obtain rfl := Option.some.inj hr
    simp only [List.any_cons, List.any_nil, Bool.or_false, Way.reaches, Option.all_none,
      Bool.true_and, List.all_cons, List.all_nil, Bool.and_true]
  unfold ofCondition
  dsimp only
  split
  · next hid hequals =>
    have htruth : ((Predicate.condition c).truth cells == .yes) =
        ((cells .id).order (Affinity.integer.keep c.expected.stored.cell) == some .eq) :=
      truth_beq_yes_of_id hid hequals
    have hfound := Way.finds_eq_any (List.forall_mem_singleton.mpr (h hid hequals))
    refine ⟨?_, ?_, ?_⟩
    · rintro r ⟨⟩
      simp only [List.any_cons, List.any_nil, Bool.or_false, Way.reaches, Option.all_some, hfound,
        List.all_nil, Bool.and_true, htruth]
    · rintro s ⟨⟩
      exact htruth
    · rintro s ⟨⟩
      exact h hid hequals
  · exact .of_route (by rintro s ⟨⟩) hchecked
  · exact .of_route (by rintro s ⟨⟩) hchecked
  · exact .of_route (by rintro s ⟨⟩) (by rintro r ⟨⟩)
  · exact .of_route (by rintro s ⟨⟩) (by rintro r ⟨⟩)

/-- Further checks hold back the rows that fail them. -/
theorem any_append_checks (ways : List Way) (others : List Predicate) (cells : Cells) :
    ((ways.map fun w => { w with checks := w.checks ++ others }).any fun w => w.reaches cells) =
      ((ways.any fun w => w.reaches cells) && others.all fun p => p.truth cells == .yes) := by
  have hone (w : Way) : Way.reaches { w with checks := w.checks ++ others } cells =
      (w.reaches cells && others.all fun p => p.truth cells == .yes) := by
    simp [Way.reaches, Bool.and_assoc]
  induction ways with
  | nil => rfl
  | cons w ways ih => simp only [List.map_cons, List.any_cons, ih, hone, Bool.and_or_distrib_right]

/-- The chosen term stands where its number says. -/
theorem choose_mem {cost : Term → Option Nat} {terms : List Term} {t : Term} {i : Nat}
    (h : choose cost terms = some (t, i)) : terms[i]? = some t := by
  have hnumbered : ∀ x ∈ (terms.zipIdx.filter fun t =>
      (terms.filterMap cost).min?.isSome && cost t.1 == (terms.filterMap cost).min?),
      terms[x.2]? = some x.1 := by
    intro x hx
    exact List.mem_zipIdx_iff_getElem?.mp (List.mem_filter.mp hx).1
  unfold choose at h
  dsimp only at h
  split at h
  · next hhead =>
    split at h
    · exact hnumbered _ (List.mem_of_getLast? h)
    · cases h
      exact hnumbered _ (List.mem_of_head? hhead)
  · cases h

/-- The ways of a conjunction look up one of its terms and check the others. -/
theorem conjunctionRoute_cases {cost : Term → Option Nat} {terms : List Term} {r : Route}
    (h : conjunctionRoute? cost terms = some r) :
    ∃ (t : Term) (i : Nat) (route : Route), terms[i]? = some t ∧ t.route = some route ∧
      r.ways = route.ways.map fun w =>
        { w with checks := w.checks ++ (terms.eraseIdx i).map predicate } := by
  simp only [conjunctionRoute?, Option.bind_eq_bind, Option.bind_eq_some_iff, Option.pure_def,
    Option.some.injEq] at h
  obtain ⟨⟨t, i⟩, hchoose, route, hroute, rfl⟩ := h
  exact ⟨t, i, route, choose_mem hchoose, hroute, rfl⟩

/-- The routes of alternatives are those of conjunctions, one by one. -/
theorem alternatives_cons {ts : List Term} {alternatives : List (List Term)} {routes : List Route}
    (h : (ts :: alternatives).mapM alternativeRoute? = some routes) :
    ∃ r rest, conjunctionRoute? innerCost ts = some r ∧
      alternatives.mapM alternativeRoute? = some rest ∧ routes = r :: rest := by
  simp only [List.mapM_cons, Option.bind_eq_bind, Option.bind_eq_some_iff, Option.pure_def,
    Option.some.injEq] at h
  obtain ⟨r, hr, rest, hrest, rfl⟩ := h
  rw [alternativeRoute?] at hr
  exact ⟨r, rest, (Option.ite_none_right_eq_some.mp hr).2, hrest, rfl⟩

/-- Whichever term is chosen, the ways of a conjunction lead to the rows that all terms are
true of. -/
theorem conjunctionRoute_sound {cost : Term → Option Nat} {terms : List Term}
    (hs : ∀ t ∈ terms, t.Sound cells) {r : Route} (h : conjunctionRoute? cost terms = some r) :
    (r.ways.any fun w => w.reaches cells) =
      terms.all fun t => t.predicate.truth cells == .yes := by
  obtain ⟨t, i, route, hmem, hroute, hways⟩ := conjunctionRoute_cases h
  rw [hways, any_append_checks, (hs t (List.mem_of_getElem? hmem)).route route hroute,
    List.all_map]
  -- The chosen term is checked by its look-up, the terms before it and behind it one by one.
  obtain ⟨hi, rfl⟩ := List.getElem?_eq_some_iff.mp hmem
  rw [List.eraseIdx_eq_take_drop_succ]
  conv => rhs; rw [← List.take_append_drop i terms, List.drop_eq_getElem_cons hi]
  rw [List.all_append, List.all_append, List.all_cons]
  exact Bool.and_left_comm _ _ _

/-- The routes of alternatives lead to the rows that one alternative is true of. -/
theorem alternatives_any {alternatives : List (List Term)} {routes : List Route}
    (hs : ∀ ts ∈ alternatives, ∀ t ∈ ts, t.Sound cells)
    (h : alternatives.mapM alternativeRoute? = some routes) :
    (routes.any fun r => r.ways.any fun w => w.reaches cells) =
      alternatives.any fun ts => ts.all fun t => t.predicate.truth cells == .yes := by
  induction alternatives generalizing routes with
  | nil =>
      cases h
      rfl
  | cons ts alternatives ih =>
      obtain ⟨r, rest, hroute, hrest, rfl⟩ := alternatives_cons h
      rw [List.any_cons, List.any_cons, ih (fun ts h => hs ts (List.mem_cons_of_mem _ h)) hrest,
        conjunctionRoute_sound (hs ts List.mem_cons_self) hroute]

/-- A list of equalities consists of terms that are such equalities, with the operands in
order. -/
theorem keyList_cons {ts : List Term} {alternatives : List (List Term)} {keys : List Stored}
    (h : keyList? (ts :: alternatives) = some keys) :
    ∃ t k rest, ts = [t] ∧ t.kind = .key k ∧ keyList? alternatives = some rest ∧
      keys = k :: rest := by
  unfold keyList? at h ⊢
  simp only [List.mapM_cons, Option.bind_eq_bind, Option.bind_eq_some_iff, Option.pure_def,
    Option.some.injEq] at h
  obtain ⟨k, hk, rest, hrest, rfl⟩ := h
  split at hk
  · next t =>
    refine ⟨t, k, rest, rfl, ?_, hrest, rfl⟩
    cases hkind : t.kind <;> simp_all [TermKind.key?]
  · cases hk

/-- The operands of a list of equalities find exactly. -/
theorem keyList_finds {alternatives : List (List Term)} {keys : List Stored}
    (hs : ∀ ts ∈ alternatives, ∀ t ∈ ts, t.Sound cells)
    (h : keyList? alternatives = some keys) : ∀ s ∈ keys, (cells .id).FindsExactly s := by
  induction alternatives generalizing keys with
  | nil =>
    obtain rfl : keys = [] := by simpa [keyList?] using h.symm
    simp
  | cons ts alternatives ih =>
    obtain ⟨t, k, rest, rfl, hkind, hrest, rfl⟩ := keyList_cons h
    intro s hs'
    rcases List.mem_cons.mp hs' with rfl | hs'
    · exact (hs [t] List.mem_cons_self t List.mem_cons_self).finds s hkind
    · exact ih (fun ts h => hs ts (List.mem_cons_of_mem _ h)) hrest s hs'

/-- One of the operands of a list equals the id if and only if one of the equalities is
true. -/
theorem keyList_any {alternatives : List (List Term)} {keys : List Stored}
    (hs : ∀ ts ∈ alternatives, ∀ t ∈ ts, t.Sound cells)
    (h : keyList? alternatives = some keys) :
    (keys.any fun s => (cells .id).order (Affinity.integer.keep s.cell) == some .eq) =
      alternatives.any fun ts => ts.all fun t => t.predicate.truth cells == .yes := by
  induction alternatives generalizing keys with
  | nil =>
    obtain rfl : keys = [] := by simpa [keyList?] using h.symm
    rfl
  | cons ts alternatives ih =>
    obtain ⟨t, k, rest, rfl, hkind, hrest, rfl⟩ := keyList_cons h
    rw [List.any_cons, List.any_cons, ih (fun ts h => hs ts (List.mem_cons_of_mem _ h)) hrest]
    simp [← (hs [t] List.mem_cons_self t List.mem_cons_self).key k hkind]

/-- A disjunction leads to the rows that it is true of. -/
theorem sound_ofAlternatives {p : Predicate} {alternatives : List (List Term)}
    (hs : ∀ ts ∈ alternatives, ∀ t ∈ ts, t.Sound cells)
    (hp : (p.truth cells == .yes) =
      alternatives.any fun ts => ts.all fun t => t.predicate.truth cells == .yes) :
    (ofAlternatives p alternatives).Sound cells := by
  unfold ofAlternatives
  split
  · next keys hkeys =>
    refine .of_route (by rintro s ⟨⟩) ?_
    rintro r ⟨⟩
    have hfound := Way.finds_eq_any (keyList_finds hs hkeys)
    simp only [List.any_cons, List.any_nil, Bool.or_false, Way.reaches, Option.all_some,
      List.all_nil, Bool.and_true, hfound, hp]
    exact keyList_any hs hkeys
  · refine .of_route (by rintro s ⟨⟩) fun r hr => ?_
    obtain ⟨routes, hroutes, rfl⟩ := Option.map_eq_some_iff.mp hr
    simp only [Route.joined, List.any_flatMap, hp]
    exact alternatives_any hs hroutes

/-- A condition as a term stands for itself. -/
theorem predicate_ofCondition (c : Condition) : (ofCondition c).predicate = .condition c := by
  unfold ofCondition
  dsimp only
  split <;> rfl

/-- A disjunction as a term stands for itself. -/
theorem predicate_ofAlternatives (p : Predicate) (alternatives : List (List Term)) :
    (ofAlternatives p alternatives).predicate = p := by
  unfold ofAlternatives
  split <;> rfl

end Term

namespace Predicate

variable {cells : Cells} {p : Predicate}

/-- A predicate is, on a row, the **conjunction** of terms that are sound. -/
structure Conjoins (cells : Cells) (p : Predicate) (terms : List Term) : Prop where
  sound : ∀ t ∈ terms, t.Sound cells
  truth : (p.truth cells == .yes) = terms.all fun t => t.predicate.truth cells == .yes

/-- A predicate is, on a row, the **disjunction** of alternatives whose terms are sound. -/
structure Disjoins (cells : Cells) (p : Predicate) (alternatives : List (List Term)) : Prop where
  sound : ∀ ts ∈ alternatives, ∀ t ∈ ts, t.Sound cells
  truth : (p.truth cells == .yes) =
    alternatives.any fun ts => ts.all fun t => t.predicate.truth cells == .yes

/-- A sound term is the conjunction of itself. -/
theorem conjoins_singleton {t : Term} (h : t.Sound cells) : Conjoins cells t.predicate [t] where
  sound := List.forall_mem_singleton.mpr h
  truth := by rw [List.all_cons, List.all_nil, Bool.and_true]

/-- A conjunction is the only alternative of itself. -/
theorem Conjoins.disjoins {terms : List Term} (h : Conjoins cells p terms) :
    Disjoins cells p [terms] where
  sound := List.forall_mem_singleton.mpr h.sound
  truth := by rw [h.truth, List.any_cons, List.any_nil, Bool.or_false]

/-- A disjunction is a term. -/
theorem Disjoins.conjoins {alternatives : List (List Term)} (h : Disjoins cells p alternatives) :
    Conjoins cells p [.ofAlternatives p alternatives] := by
  have hterm := conjoins_singleton (Term.sound_ofAlternatives h.sound h.truth)
  rwa [Term.predicate_ofAlternatives] at hterm

/-- The terms and the alternatives of a predicate are sound, and it is true if and only if its
terms are, or those of one alternative. -/
theorem conjoins_terms (h : p.FindsExactly (cells .id)) :
    Conjoins cells p p.terms ∧ Disjoins cells p p.alternatives := by
  induction p with
  | always =>
      have hconstant : Conjoins cells always [⟨always, .constant, none⟩] :=
        conjoins_singleton (t := ⟨always, .constant, none⟩)
          (.of_route (by rintro s ⟨⟩) (by rintro r ⟨⟩))
      rw [terms, alternatives]
      exact ⟨hconstant, hconstant.disjoins⟩
  | condition c =>
      have hcondition := conjoins_singleton (Term.sound_ofCondition h)
      rw [Term.predicate_ofCondition] at hcondition
      rw [terms, alternatives]
      exact ⟨hcondition, hcondition.disjoins⟩
  | combine k l r ihl ihr =>
      obtain ⟨hlt, hla⟩ := ihl h.1
      obtain ⟨hrt, hra⟩ := ihr h.2
      cases k with
      | and =>
          have hterms : Conjoins cells (combine .and l r) (l.terms ++ r.terms) := by
            refine ⟨List.forall_mem_append.mpr ⟨hlt.sound, hrt.sound⟩, ?_⟩
            rw [List.all_append, ← hlt.truth, ← hrt.truth]
            exact Truth.and_beq_yes _ _
          rw [terms, alternatives]
          exact ⟨hterms, hterms.disjoins⟩
      | or =>
          have halternatives :
              Disjoins cells (combine .or l r) (l.alternatives ++ r.alternatives) := by
            refine ⟨List.forall_mem_append.mpr ⟨hla.sound, hra.sound⟩, ?_⟩
            rw [List.any_append, ← hla.truth, ← hra.truth]
            exact Truth.or_beq_yes _ _
          rw [terms, alternatives]
          exact ⟨halternatives.conjoins, halternatives⟩

/-- A plan leads to the rows that its predicate is true of. -/
theorem leadsTo_eq (h : p.FindsExactly (cells .id)) :
    p.leadsTo cells = (p.truth cells == .yes) := by
  obtain ⟨hterms, -⟩ := conjoins_terms h
  unfold leadsTo plan
  split
  · next r hr => rw [Term.conjunctionRoute_sound hterms.sound hr, hterms.truth]
  · simp only [List.any_cons, List.any_nil, Bool.or_false, Way.reaches, Option.all_none,
      Bool.true_and, List.all_cons, List.all_nil, Bool.and_true]

end Predicate

end Taskbook
