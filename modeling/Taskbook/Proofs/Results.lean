import Mathlib.Data.List.Forall2

/-!
# Results That Are There

What it says of the parts of a computation that it succeeds. Reading a row, writing a field and
running a statement are chains of steps each of which may be refused, and these lemmas take such
a chain apart from its end. Where a list is not read as a whole, the first of its elements that is
not read says why.
-/

namespace Taskbook

variable {α β ε δ : Type}

/-- A mapped result is there if the result is. -/
theorem Except.map_eq_ok_iff {f : α → β} {x : Except ε α} {b : β} :
    x.map f = .ok b ↔ ∃ a, x = .ok a ∧ f a = b := by
  cases x with
  | ok a => simp [Except.map]
  | error e => simp [Except.map]

/-- A chain of two steps ends well if both do. -/
theorem Except.bind_eq_ok_iff {f : α → Except ε β} {x : Except ε α} {b : β} :
    x >>= f = .ok b ↔ ∃ a, x = .ok a ∧ f a = .ok b := by
  cases x with
  | ok a => simp [bind, Except.bind]
  | error e => simp [bind, Except.bind]

/-- A chain of two steps ends with the error of the first one, or of the second one after it. -/
theorem Except.bind_eq_error_iff {f : α → Except ε β} {x : Except ε α} {e : ε} :
    x >>= f = .error e ↔ x = .error e ∨ ∃ a, x = .ok a ∧ f a = .error e := by
  cases x with
  | ok a => simp [bind, Except.bind]
  | error e => simp [bind, Except.bind]

/-- Another wording of the error changes nothing about a result that is there. -/
theorem Except.mapError_eq_ok_iff {f : ε → δ} {x : Except ε α} {a : α} :
    x.mapError f = .ok a ↔ x = .ok a := by
  cases x with
  | ok b => simp [Except.mapError]
  | error e => simp [Except.mapError]

/-- A result is there if there is no error, where the errors are known. -/
theorem Except.exists_ok_iff {x : Except ε α} {fault? : Option ε}
    (h : ∀ e, x = .error e ↔ fault? = some e) : (∃ a, x = .ok a) ↔ fault? = none := by
  cases x with
  | error e => simp [(h e).mp rfl]
  | ok a =>
      cases fault? with
      | none => simp
      | some e => cases (h e).mpr rfl

/-- A list is read as a whole if each element is read, and the answers stand in its order. -/
theorem mapM_eq_ok_iff {f : α → Except ε β} {xs : List α} {ys : List β} :
    xs.mapM f = .ok ys ↔ List.Forall₂ (fun x y => f x = .ok y) xs ys := by
  induction xs generalizing ys with
  | nil =>
      constructor
      · intro h
        obtain rfl := Except.ok.inj h
        exact .nil
      · rintro ⟨⟩
        rfl
  | cons x xs ih =>
      rw [List.mapM_cons, Except.bind_eq_ok_iff]
      constructor
      · rintro ⟨y, hy, h⟩
        obtain ⟨zs, hzs, he⟩ := Except.bind_eq_ok_iff.mp h
        obtain rfl := Except.ok.inj he
        exact .cons hy (ih.mp hzs)
      · rintro ⟨⟩
        next y zs hy hzs =>
        exact ⟨y, hy, Except.bind_eq_ok_iff.mpr ⟨zs, ih.mpr hzs, rfl⟩⟩

/-- A list is read as a whole if and only if each element is. -/
theorem exists_forall₂_iff {R : α → β → Prop} {xs : List α} :
    (∃ ys, List.Forall₂ R xs ys) ↔ ∀ x ∈ xs, ∃ y, R x y := by
  induction xs with
  | nil => exact ⟨fun _ _ h => (List.not_mem_nil h).elim, fun _ => ⟨[], .nil⟩⟩
  | cons x xs ih =>
      rw [List.forall_mem_cons, ← ih]
      constructor
      · rintro ⟨ys, h⟩
        obtain ⟨y, zs, hy, hzs, -⟩ := List.forall₂_cons_left_iff.mp h
        exact ⟨⟨y, hy⟩, ⟨zs, hzs⟩⟩
      · rintro ⟨⟨y, hy⟩, ⟨zs, hzs⟩⟩
        exact ⟨y :: zs, .cons hy hzs⟩

/-- Elements that are chosen together with their partners keep them. -/
theorem forall₂_filter {R : α → β → Prop} {p : α → Bool} {q : β → Bool} {xs : List α} {ys : List β}
    (h : List.Forall₂ R xs ys) (hsame : ∀ x ∈ xs, ∀ y, R x y → p x = q y) :
    List.Forall₂ R (xs.filter p) (ys.filter q) := by
  have hmem : List.Forall₂ (fun x y => x ∈ xs ∧ R x y) xs ys :=
    (List.forall₂_and_left _ _).mpr ⟨fun _ hx => hx, h⟩
  have hfilter : List.Forall₂ (fun x y => x ∈ xs ∧ R x y) (xs.filter p) (ys.filter q) :=
    List.rel_filter (fun x y hxy => iff_of_eq (congrArg (· = true) (hsame x hxy.1 y hxy.2))) hmem
  exact hfilter.imp fun _ _ hxy => hxy.2

/-- A list is not read as a whole for the reason of the first element that is not read. -/
theorem mapM_eq_error_iff {f : α → Except ε β} {xs : List α} {e : ε} :
    xs.mapM f = .error e ↔
      ∃ before x after, xs = before ++ x :: after ∧ (∀ y ∈ before, ∃ b, f y = .ok b) ∧
        f x = .error e := by
  induction xs with
  | nil =>
      constructor
      · rintro ⟨⟩
      · rintro ⟨before, x, after, hsplit, -⟩
        cases before <;> cases hsplit
  | cons x xs ih =>
      rw [List.mapM_cons]
      cases hx : f x with
      | error d =>
          constructor
          · rintro ⟨⟩
            exact ⟨[], x, xs, rfl, by simp, hx⟩
          · rintro ⟨before, y, after, hsplit, hbefore, hy⟩
            cases before with
            | nil =>
                obtain ⟨rfl, -⟩ := List.cons.inj hsplit
                rw [← hx, hy]
                rfl
            | cons z before =>
                obtain ⟨rfl, -⟩ := List.cons.inj hsplit
                obtain ⟨b, hb⟩ := hbefore x List.mem_cons_self
                rw [hx] at hb
                cases hb
      | ok b =>
          have hrest : (xs.mapM f >>= fun bs => .ok (b :: bs)) = .error e ↔
              xs.mapM f = .error e := by
            cases xs.mapM f <;> simp [bind, Except.bind]
          refine Iff.trans hrest (ih.trans ?_)
          constructor
          · rintro ⟨before, y, after, rfl, hbefore, hy⟩
            refine ⟨x :: before, y, after, rfl, ?_, hy⟩
            intro z hz
            rcases List.mem_cons.mp hz with rfl | hz
            · exact ⟨b, hx⟩
            · exact hbefore z hz
          · rintro ⟨before, y, after, hsplit, hbefore, hy⟩
            cases before with
            | nil =>
                obtain ⟨rfl, -⟩ := List.cons.inj hsplit
                rw [hx] at hy
                cases hy
            | cons z before =>
                obtain ⟨rfl, rfl⟩ := List.cons.inj hsplit
                exact ⟨before, y, after, rfl,
                  fun w hw => hbefore w (List.mem_cons_of_mem x hw), hy⟩

/-- A fold is not carried through for the reason of the first step that fails. -/
theorem foldlM_eq_error_iff {f : β → α → Except ε β} {xs : List α} {b : β} {e : ε} :
    xs.foldlM f b = .error e ↔
      ∃ before x after c, xs = before ++ x :: after ∧ before.foldlM f b = .ok c ∧
        f c x = .error e := by
  induction xs generalizing b with
  | nil =>
      constructor
      · rintro ⟨⟩
      · rintro ⟨before, x, after, c, hsplit, -⟩
        cases before <;> cases hsplit
  | cons x xs ih =>
      rw [List.foldlM_cons]
      cases hx : f b x with
      | error d =>
          constructor
          · rintro ⟨⟩
            exact ⟨[], x, xs, b, rfl, rfl, hx⟩
          · rintro ⟨before, y, after, c, hsplit, hbefore, hy⟩
            cases before with
            | nil =>
                obtain ⟨rfl, -⟩ := List.cons.inj hsplit
                obtain rfl := Except.ok.inj hbefore
                exact hx.symm.trans hy
            | cons z before =>
                obtain ⟨rfl, -⟩ := List.cons.inj hsplit
                rw [List.foldlM_cons, hx] at hbefore
                cases hbefore
      | ok d =>
          refine Iff.trans ih ?_
          constructor
          · rintro ⟨before, y, after, c, rfl, hbefore, hy⟩
            exact ⟨x :: before, y, after, c, rfl, by rw [List.foldlM_cons, hx]; exact hbefore, hy⟩
          · rintro ⟨before, y, after, c, hsplit, hbefore, hy⟩
            cases before with
            | nil =>
                obtain ⟨rfl, -⟩ := List.cons.inj hsplit
                obtain rfl := Except.ok.inj hbefore
                rw [hx] at hy
                cases hy
            | cons z before =>
                obtain ⟨rfl, rfl⟩ := List.cons.inj hsplit
                rw [List.foldlM_cons, hx] at hbefore
                exact ⟨before, y, after, c, rfl, hbefore, hy⟩

end Taskbook
