import Taskbook.Proofs.Json.Grammar
import Taskbook.Proofs.Task.Exchange

/-!
# Reading a Task among Other Members

A task is read from every text of an object that carries it: the members that are named after the
fields hold the contents of the fields, each field has at most one, and a field without a member is
null. Nothing else about the text matters. The members may stand in any order, with any others
between them, and the values of the others may be anything that the grammar of JSON texts derives.
What is wrong with a known member is noticed wherever it stands: a field that has two members, and
a field that must not be null without a member or with a null.

## Name convention

A name is looked for among keys, and a key is a string of units. So a key *names* a text when its
units stand for the characters of the text, whichever of them are escapes, and a known member is one
whose key names a field. A key with a surrogate that stands alone names nothing, and an object with
such a key is refused.

## Main results

* `Json.fieldValue?_of_heldBy`: **a value that holds the content of a field** is read as this
  content;
* `Task.ofJson?_of_carriedBy`, `Task.ofJson?_of_forall₂`: **an object that carries a task**, and the
  array of its values, stand for the task;
* `Task.ofJson?_insert`: a member that is not known **makes no difference**;
* `Task.reads_known_members`: **a task is read from its known members**, from the text of any such
  object.
-/

namespace Taskbook

/-! ### What a JSON value and an object hold -/

/-- A JSON value **holds** a value: integers and instants in plain decimal digits, texts as strings
with whatever escapes, and priorities by their names, in either of the two forms. -/
inductive Value.HeldBy : Value → Json → Prop
  | null : HeldBy .null .null
  | integer (n : Int64) : HeldBy (.integer n) (.number (Json.numberOf n))
  | instant (t : Instant) : HeldBy (.instant t) (.number (Json.numberOf t.millis))
  | text {s : String} {us : List Json.StringUnit} :
      Json.Names us s → HeldBy (.text s) (.string us)
  | priority {p : Priority} {us : List Json.StringUnit} :
      Json.Names us p.name → HeldBy (.priority p) (.string us)
  | priorityKey {p : Priority} {us : List Json.StringUnit} :
      Json.Names us p.name → HeldBy (.priority p) (.object [(us, .null)])

namespace Json

/-- Every member has a **key** that names a text. -/
def Keyed (members : List Member) : Prop :=
  ∀ m ∈ members, ∃ name, Names m.1 name

/-- A field occurs **twice** among members. -/
def Twice (members : List Member) (f : Field) : Prop :=
  ∃ m n, [m, n].Sublist members ∧ Names m.1 f.name ∧ Names n.1 f.name

end Json

/-- Members **carry** a task: no field occurs twice, the members of the fields hold their contents,
and a field without a member is null. -/
structure Task.CarriedBy (t : Task) (members : List Json.Member) : Prop where
  once : ∀ f, ¬ Json.Twice members f
  held : ∀ m ∈ members, ∀ f, Json.Names m.1 f.name → (t.get f).HeldBy m.2
  absent : ∀ f, (∀ m ∈ members, ¬ Json.Names m.1 f.name) → t.get f = .null

/-! ### Contents of fields -/

namespace Json

/-- **A value that holds the content of a field** is read as this content. -/
theorem fieldValue?_of_heldBy {t : Task} {f : Field} {j : Json} (h : (t.get f).HeldBy j) :
    fieldValue? f (some j) = some (t.get f) := by
  obtain ⟨id, title, createdOn, doneOn, postponedUntil, dueDate, priority, createdFrom⟩ := t
  have hinteger (n : Int64) :
      (integer? (.number (numberOf n))).map Value.integer = some (.integer n) :=
    congrArg (Option.map Value.integer) (integer?_numberOf n)
  have hinstant (n : Instant) :
      (integer? (.number (numberOf n.millis))).map (fun n => Value.instant ⟨n⟩) =
        some (.instant n) :=
    congrArg (Option.map fun n => Value.instant ⟨n⟩) (integer?_numberOf n.millis)
  have hpriority {us : List StringUnit} {p : Priority} (hus : Names us p.name) :
      ((spell us).bind priorityNamed?).map Value.priority = some (.priority p) := by
    rw [spell_of_names hus, Option.bind_some, priorityNamed?_name, Option.map_some]
  cases f with
  | id => rcases id with - | n <;> cases h; exacts [rfl, hinteger n]
  | createdFrom => rcases createdFrom with - | n <;> cases h; exacts [rfl, hinteger n]
  | title =>
      cases h with
      | text hus => exact congrArg (Option.map Value.text) (spell_of_names hus)
  | createdOn =>
      cases h
      exact hinstant createdOn
  | priority => cases h <;> exact hpriority ‹_›
  | doneOn => rcases doneOn with - | n <;> cases h; exacts [rfl, hinstant n]
  | postponedUntil => rcases postponedUntil with - | n <;> cases h; exacts [rfl, hinstant n]
  | dueDate => rcases dueDate with - | n <;> cases h; exacts [rfl, hinstant n]

/-- A missing member is read as the null that it stands for. -/
theorem fieldValue?_none_of_get {t : Task} {f : Field} (h : t.get f = .null) :
    fieldValue? f none = some (t.get f) := by
  rw [h]
  cases f with
  | title | createdOn | priority => cases h
  | _ => rfl

/-- A field that must not be null has no content without a value. -/
theorem fieldValue?_eq_none {f : Field} (hf : f.required = true) {value : Option Json}
    (h : ∀ j, value = some j → j = .null) : fieldValue? f value = none := by
  cases value with
  | none => rw [fieldValue?, if_pos hf]
  | some j => rw [h j rfl, fieldValue?, if_pos hf]

/-! ### Members under their names -/

/-- A member under the text that its key spells. -/
def Member.named (m : Member) : String × Json :=
  ((spell m.1).getD "", m.2)

/-- The text that a key names is the one that the member is found under. -/
theorem Member.named_fst {m : Member} {name : String} (h : Names m.1 name) :
    (Member.named m).1 = name := by
  rw [named, spell_of_names h, Option.getD_some]

/-- A member is found under the text that its key spells. -/
theorem namedMembers?_cons (m : Member) (members : List Member) :
    namedMembers? (m :: members) = (spell m.1).bind fun name =>
      (namedMembers? members).map fun named => (name, m.2) :: named := by
  rw [namedMembers?, List.mapM_cons]
  cases hm : spell m.1 with
  | none => rfl
  | some name =>
      rw [← namedMembers?]
      cases namedMembers? members <;> rfl

/-- Members are found part by part. -/
theorem namedMembers?_append (before behind : List Member) :
    namedMembers? (before ++ behind) = (namedMembers? before).bind fun xs =>
      (namedMembers? behind).map fun ys => xs ++ ys := by
  induction before with
  | nil => simp [namedMembers?]
  | cons m before ih =>
      rw [List.cons_append, namedMembers?_cons, namedMembers?_cons, ih]
      cases spell m.1 <;> cases namedMembers? before <;> cases namedMembers? behind <;> rfl

/-- If the members are found at all, each is found under the text that its key spells. -/
theorem namedMembers?_eq_some {members : List Member} {named : List (String × Json)}
    (h : namedMembers? members = some named) : named = members.map Member.named := by
  induction members generalizing named with
  | nil => exact (Option.some.inj h).symm
  | cons m members ih =>
      rw [namedMembers?_cons] at h
      obtain ⟨name, hname, h⟩ := Option.bind_eq_some_iff.mp h
      obtain ⟨rest, hrest, rfl⟩ := Option.map_eq_some_iff.mp h
      rw [List.map_cons, ← ih hrest, Member.named, hname, Option.getD_some]

/-- Members whose keys name texts are found. -/
theorem namedMembers?_of_keyed {members : List Member} (h : Keyed members) :
    namedMembers? members = some (members.map Member.named) := by
  induction members with
  | nil => rfl
  | cons m members ih =>
      obtain ⟨⟨name, hname⟩, hrest⟩ := List.forall_mem_cons.mp h
      rw [namedMembers?_cons, spell_of_names hname, Option.bind_some, ih hrest, Option.map_some,
        List.map_cons, Member.named, spell_of_names hname, Option.getD_some]

/-- A key that names a text names no other. -/
theorem names_iff_of_keyed {members : List Member} (h : Keyed members) {m : Member}
    (hm : m ∈ members) (name : String) : (Member.named m).1 = name ↔ Names m.1 name := by
  refine ⟨fun heq => ?_, Member.named_fst⟩
  obtain ⟨other, hother⟩ := h m hm
  rwa [← heq, Member.named_fst hother]

/-- A key names one field at most. -/
theorem eq_of_names {us : List StringUnit} {f g : Field} (hf : Names us f.name)
    (hg : Names us g.name) : f = g := by
  have hname : f.name = g.name :=
    Option.some.inj ((spell_of_names hf).symm.trans (spell_of_names hg))
  have hfind := Field.find?_name f
  rw [hname, Field.find?_name] at hfind
  exact (Option.some.inj hfind).symm

/-- **A field that occurs twice** is noticed, wherever its members stand. -/
theorem repeated_of_twice {members : List Member} {f : Field} (h : Twice members f) :
    repeated (members.map Member.named) f = true := by
  obtain ⟨m, n, hsub, hm, hn⟩ := h
  have hcount : [m, n].countP (fun m => (Member.named m).1 == f.name) ≤
      members.countP fun m => (Member.named m).1 == f.name := hsub.countP_le
  have htwo : [m, n].countP (fun m => (Member.named m).1 == f.name) = 2 := by
    simp [Member.named_fst hm, Member.named_fst hn]
  rw [htwo] at hcount
  rw [repeated, List.countP_map, decide_eq_true_eq]
  exact hcount

/-- A field that does not occur twice is not taken for one that does. -/
theorem repeated_of_not_twice {members : List Member} (hkeyed : Keyed members) {f : Field}
    (h : ¬ Twice members f) : repeated (members.map Member.named) f = false := by
  rw [repeated, List.countP_map, decide_eq_false_iff_not, List.countP_eq_length_filter]
  intro hlength
  have hsub := List.filter_sublist (p := (fun m => m.1 == f.name) ∘ Member.named) (l := members)
  have hfound {m : Member} (hm : m ∈ members.filter ((fun m => m.1 == f.name) ∘ Member.named)) :
      Names m.1 f.name := by
    obtain ⟨hmem, hname⟩ := List.mem_filter.mp hm
    exact (names_iff_of_keyed hkeyed hmem _).mp (beq_iff_eq.mp hname)
  rcases hfilter : members.filter ((fun m => m.1 == f.name) ∘ Member.named) with
    _ | ⟨m, _ | ⟨n, rest⟩⟩
  · simp [hfilter] at hlength
  · simp [hfilter] at hlength
  · rw [hfilter] at hsub hfound
    exact h ⟨m, n, (List.Sublist.cons_cons m (.cons_cons n (List.nil_sublist rest))).trans hsub,
      hfound (by simp), hfound (by simp)⟩

/-- The member of a field is one whose key names the field; there is none only if no key does. -/
theorem member?_named {members : List Member} (hkeyed : Keyed members) (f : Field) :
    (member? (members.map Member.named) f = none ∧ ∀ m ∈ members, ¬ Names m.1 f.name) ∨
      ∃ m ∈ members, Names m.1 f.name ∧
        member? (members.map Member.named) f = some m.2 := by
  rw [member?, List.find?_map]
  cases hfind : members.find? ((fun m => m.1 == f.name) ∘ Member.named) with
  | none =>
      refine .inl ⟨rfl, fun m hm hname => ?_⟩
      have hmiss := List.find?_eq_none.mp hfind m hm
      exact hmiss (beq_iff_eq.mpr (Member.named_fst hname))
  | some m =>
      have hmem := List.mem_of_find?_eq_some hfind
      have hname := beq_iff_eq.mp (List.find?_some hfind :)
      exact .inr ⟨m, hmem, (names_iff_of_keyed hkeyed hmem _).mp hname, rfl⟩

end Json

/-! ### Objects and arrays -/

namespace Task

open Json (Member Names Keyed Twice)

/-- Without the content of one field there is no task. -/
theorem ofFields?_eq_none {values : Field → Option Json} {f : Field}
    (h : Json.fieldValue? f (values f) = none) : ofFields? values = none := by
  have hfail (fs : List Field) (hf : f ∈ fs) (t : Task) : fs.foldlM (setJson? values) t = none := by
    induction fs generalizing t with
    | nil => cases hf
    | cons g fs ih =>
        rw [List.foldlM_cons]
        by_cases hg : g = f
        · have hstop : setJson? values t g = none := by rw [setJson?, hg, h, Option.bind_none]
          rw [hstop]
          rfl
        · have hmem : f ∈ fs := (List.mem_cons.mp hf).resolve_left fun hfg => hg hfg.symm
          cases setJson? values t g with
          | none => rfl
          | some u => exact ih hmem u
  exact hfail Field.all f.mem_all blank

/-- What an object stands for is made from its members under their names. -/
theorem ofJson?_object_of_keyed {members : List Member} (h : Keyed members) :
    ofJson? (.object members) =
      if Field.all.any (Json.repeated (members.map Member.named)) then none
      else ofFields? (Json.member? (members.map Member.named)) := by
  rw [ofJson?, Json.namedMembers?_of_keyed h, Option.bind_some]

/-- **An object that carries a task** stands for the task. -/
theorem ofJson?_of_carriedBy {t : Task} {members : List Member} (hkeyed : Keyed members)
    (h : t.CarriedBy members) : ofJson? (.object members) = some t := by
  have honce : ¬ Field.all.any (Json.repeated (members.map Member.named)) = true := by
    simp only [List.any_eq_true, Json.repeated_of_not_twice hkeyed (h.once _), Bool.false_eq_true,
      and_false, exists_false, not_false_eq_true]
  rw [ofJson?_object_of_keyed hkeyed, if_neg honce]
  refine ofFields?_of_fieldValue? fun f => ?_
  obtain ⟨hnone, habsent⟩ | ⟨m, hm, hname, hsome⟩ := Json.member?_named hkeyed f
  · rw [hnone, Json.fieldValue?_none_of_get (h.absent f habsent)]
  · rw [hsome, Json.fieldValue?_of_heldBy (h.held m hm f hname)]

/-- Members that carry a task carry it with one more that is not known. -/
theorem CarriedBy.cons {t : Task} {members : List Member} (h : t.CarriedBy members) {m : Member}
    (hm : ∀ f : Field, ¬ Names m.1 f.name) : t.CarriedBy (m :: members) where
  once f := by
    rintro ⟨a, b, hsub, ha, hb⟩
    cases hsub with
    | cons _ hsub => exact h.once f ⟨a, b, hsub, ha, hb⟩
    | cons_cons _ _ => exact hm f ha
  held := List.forall_mem_cons.mpr ⟨fun f hf => absurd hf (hm f), h.held⟩
  absent f hf := h.absent f (List.forall_mem_cons.mp hf).2

/-- An object in which a field occurs twice stands for no task. -/
theorem ofJson?_of_twice {members : List Member} {f : Field} (h : Twice members f) :
    ofJson? (.object members) = none := by
  rw [ofJson?]
  cases hnamed : Json.namedMembers? members with
  | none => rfl
  | some named =>
      obtain rfl := Json.namedMembers?_eq_some hnamed
      have hany : Field.all.any (Json.repeated (members.map Member.named)) = true :=
        List.any_eq_true.mpr ⟨f, f.mem_all, Json.repeated_of_twice h⟩
      rw [Option.bind_some, if_pos hany]

/-- An object in which a field that must not be null has no value stands for no task. -/
theorem ofJson?_of_required {members : List Member} (hkeyed : Keyed members) {f : Field}
    (hf : f.required = true) (h : ∀ m ∈ members, Names m.1 f.name → m.2 = .null) :
    ofJson? (.object members) = none := by
  rw [ofJson?_object_of_keyed hkeyed]
  split
  · rfl
  · refine ofFields?_eq_none (f := f) (Json.fieldValue?_eq_none hf fun j hj => ?_)
    obtain ⟨hnone, -⟩ | ⟨m, hm, hname, hsome⟩ := Json.member?_named hkeyed f
    · cases hnone.symm.trans hj
    · obtain rfl := Option.some.inj (hsome.symm.trans hj)
      exact h m hm hname

/-- **A member that is not known makes no difference**, wherever it stands. -/
theorem ofJson?_insert {before behind : List Member} {m : Member} {name : String}
    (hm : Names m.1 name) (hother : ∀ f : Field, f.name ≠ name) :
    ofJson? (.object (before ++ m :: behind)) = ofJson? (.object (before ++ behind)) := by
  have hne (f : Field) : (name == f.name) = false :=
    beq_eq_false_iff_ne.mpr fun h => hother f h.symm
  have hrepeated (xs ys : List (String × Json)) :
      Json.repeated (xs ++ (name, m.2) :: ys) = Json.repeated (xs ++ ys) := by
    funext f
    simp only [Json.repeated, List.countP_append, List.countP_cons, hne, Bool.false_eq_true,
      if_false, Nat.add_zero]
  have hmember (xs ys : List (String × Json)) :
      Json.member? (xs ++ (name, m.2) :: ys) = Json.member? (xs ++ ys) := by
    funext f
    simp only [Json.member?, List.find?_append, List.find?_cons, hne]
  simp only [ofJson?, Json.namedMembers?_append, Json.namedMembers?_cons, Json.spell_of_names hm,
    Option.bind_some]
  cases Json.namedMembers? before with
  | none => rfl
  | some xs =>
      cases Json.namedMembers? behind with
      | none => rfl
      | some ys =>
          simp only [Option.bind_some, Option.map_some, hrepeated, hmember]

/-- **The array of the values** of a task stands for the task. -/
theorem ofJson?_of_forall₂ {t : Task} {items : List Json}
    (h : List.Forall₂ (fun f j => (t.get f).HeldBy j) Field.writingOrder items) :
    ofJson? (.array items) = some t := by
  rw [ofJson?, if_pos h.length_eq.symm]
  refine ofFields?_of_fieldValue? fun f => ?_
  have hindex : Field.writingOrder.idxOf f < Field.writingOrder.length := by
    cases f <;> decide
  have hitem : Field.writingOrder.idxOf f < items.length := h.length_eq ▸ hindex
  have hheld := (List.forall₂_iff_get.mp h).2 _ hindex hitem
  rw [List.getElem?_eq_getElem hitem]
  refine Json.fieldValue?_of_heldBy ?_
  simpa using hheld

/-- An array without a value for a field that must not be null stands for no task. -/
theorem ofJson?_array_of_required {items : List Json} {f : Field} (hf : f.required = true)
    (h : ∀ j, items[Field.writingOrder.idxOf f]? = some j → j = .null) :
    ofJson? (.array items) = none := by
  rw [ofJson?]
  split
  · exact ofFields?_eq_none (f := f) (Json.fieldValue?_eq_none hf h)
  · rfl

/-! ### A crowded text -/

/-- A task with a character outside the basic plane. -/
def crowdedTask : Task where
  title := "😀"
  createdOn := ⟨7⟩
  priority := .low

/-- Members that carry the task, with escapes in a key and in the title, and the priority as an
object. -/
def crowdedMembers : List Member :=
  [(Json.plainUnits "created_on", .number (Json.numberOf 7)),
    (.code 0x74 :: Json.plainUnits "itle", .string [.code 0xD83D, .code 0xDE00]),
    (Json.plainUnits "priority", .object [(Json.plainUnits "low", .null)])]

/-- The text of those members, with white space here and there. -/
def crowdedText : String :=
  " \"created_on\" : 7,\"\\u0074itle\":\"\\ud83d\\uDE00\",\"priority\":\x7b\"low\":null\n\x7d"

/-- A member that is not known, with a surrogate that stands alone deep in its value. -/
def strangeMember : Member :=
  (Json.plainUnits "n", .array [.object [(Json.plainUnits "a", .number ⟨true, ['1'], false⟩)],
    .string [.code 0xD800]])

/-- The text of that member. -/
def strangeText : String :=
  "\"n\":[\x7b\"a\":-1.5e3\x7d,\"\\ud800\"]"

/-- A member whose key is a surrogate that stands alone. -/
def strayMember : Member :=
  ([.code 0xD800], .null)

theorem names_crowdedTitle : Names (.code 0x74 :: Json.plainUnits "itle") "title" :=
  .code (c := 't') (by decide) (Json.names_plainUnits "itle")

theorem keyed_crowdedMembers : Keyed crowdedMembers := by
  simp only [Keyed, crowdedMembers, List.forall_mem_cons, List.not_mem_nil, false_implies,
    implies_true, and_true]
  exact ⟨⟨_, Json.names_plainUnits _⟩, ⟨_, names_crowdedTitle⟩, ⟨_, Json.names_plainUnits _⟩⟩

theorem carriedBy_crowdedMembers : crowdedTask.CarriedBy crowdedMembers where
  once f htwice := by
    have honce : Json.repeated (crowdedMembers.map Member.named) f = false := by
      cases f <;> decide
    exact absurd (Json.repeated_of_twice htwice) (honce ▸ Bool.false_ne_true)
  held := by
    simp only [crowdedMembers, List.forall_mem_cons, List.not_mem_nil, false_implies,
      implies_true, and_true]
    refine ⟨fun f hf => ?_, fun f hf => ?_, fun f hf => ?_⟩
    · obtain rfl := Json.eq_of_names hf (g := .createdOn) (Json.names_plainUnits _)
      exact .instant ⟨7⟩
    · obtain rfl := Json.eq_of_names hf (g := .title) names_crowdedTitle
      exact .text (.pair (c := '😀') (by decide) .nil)
    · obtain rfl := Json.eq_of_names hf (g := .priority) (Json.names_plainUnits _)
      exact .priorityKey (Json.names_plainUnits _)
  absent f h := by
    cases f with
    | createdOn => exact absurd (Json.names_plainUnits _) (h _ (.head _))
    | title => exact absurd names_crowdedTitle (h _ (.tail _ (.head _)))
    | priority => exact absurd (Json.names_plainUnits _) (h _ (.tail _ (.tail _ (.head _))))
    | _ => rfl

theorem membersText_crowdedMembers : Json.MembersText crowdedMembers crowdedText.toList := by
  have hcreated : Json.TextOf (.string (Json.plainUnits "created_on"))
      " \"created_on\" ".toList :=
    .spaceBefore (c := ' ') rfl (.spaceBehind (c := ' ') rfl (.plain (by decide)))
  have hseven : Json.TextOf (.number (Json.numberOf 7)) " 7".toList :=
    .spaceBefore (c := ' ') rfl (.decimal 7)
  have htitle : Json.TextOf (.string (.code 0x74 :: Json.plainUnits "itle"))
      "\"\\u0074itle\"".toList :=
    .string (.cons (.digits (a := '0') (b := '0') (c := '7') (d := '4') rfl)
      (Json.unitsText_plainUnits (by decide)))
  have hface : Json.TextOf (.string [.code 0xD83D, .code 0xDE00])
      "\"\\ud83d\\uDE00\"".toList :=
    .string (.cons (.digits (a := 'd') (b := '8') (c := '3') (d := 'd') rfl)
      (.cons (.digits (a := 'D') (b := 'E') (c := '0') (d := '0') rfl) .nil))
  have hlow : Json.TextOf (.object [(Json.plainUnits "low", .null)])
      "\x7b\"low\":null\n\x7d".toList :=
    .object (.last (.plain (by decide)) (.spaceBehind (c := '\n') rfl .null))
  exact .cons hcreated hseven (.cons htitle hface (.last (.plain (by decide)) hlow))

theorem textOf_strangeMember :
    Json.TextOf strangeMember.2 "[\x7b\"a\":-1.5e3\x7d,\"\\ud800\"]".toList := by
  have hnumber : Json.TextOf (.number ⟨true, ['1'], false⟩) "-1.5e3".toList :=
    .number (@Json.NumberText.WrittenAs.mk true ['1'] ['.', '5'] ['e', '3']
      (by decide) (by decide) (.digits (by decide))
      (@Json.ExponentText.digits 'e' [] ['3'] (.inl rfl) (by decide) (by decide)))
  have hlone : Json.TextOf (.string [.code 0xD800]) "\"\\ud800\"".toList :=
    .string (.cons (.digits (a := 'd') (b := '8') (c := '0') (d := '0') rfl) .nil)
  exact .array (.cons (.object (.last (.plain (by decide)) hnumber)) (.last hlone))

/-! ### Texts of tasks -/

/-- **A task is read from its known members.** Every text of an object that carries the task is read
as the task, whatever its other members hold, in whatever order and with whatever white space; and
so is every text of the array of its values. No text of an object in which a field occurs twice, or
in which a field that must not be null has no value, is read as a task, nor is one of an array that
lacks such a value. And with one more member that is not known the answer is the same, be it a task
or none. -/
theorem reads_known_members :
    (∀ (t : Task) (text : String) (members : List Member), Json.Text (.object members) text →
        Keyed members → t.CarriedBy members → readJson text = some t) ∧
      (∀ (t : Task) (text : String) (items : List Json), Json.Text (.array items) text →
        List.Forall₂ (fun f j => (t.get f).HeldBy j) Field.writingOrder items →
          readJson text = some t) ∧
      (∀ (text : String) (members : List Member) (f : Field), Json.Text (.object members) text →
        Twice members f → readJson text = none) ∧
      (∀ (text : String) (members : List Member) (f : Field), Json.Text (.object members) text →
        Keyed members → f.required = true →
          (∀ m ∈ members, Names m.1 f.name → m.2 = .null) → readJson text = none) ∧
      (∀ (text : String) (items : List Json) (f : Field), Json.Text (.array items) text →
        f.required = true → (∀ j, items[Field.writingOrder.idxOf f]? = some j → j = .null) →
          readJson text = none) ∧
      ∀ (text longer : String) (before behind : List Member) (m : Member) (name : String),
        Json.Text (.object (before ++ behind)) text →
          Json.Text (.object (before ++ m :: behind)) longer →
            Names m.1 name → (∀ f : Field, f.name ≠ name) → readJson longer = readJson text := by
  have hread {j : Json} {text : String} (htext : Json.Text j text) : readJson text = ofJson? j := by
    rw [readJson, Json.read_of_text htext, Option.bind_some]
  refine ⟨fun t text members htext hkeyed ht => ?_, fun t text items htext hitems => ?_,
    fun text members f htext htwice => ?_, fun text members f htext hkeyed hf hnull => ?_,
    fun text items f htext hf hnull => ?_, fun text longer before behind m name htext hlonger hm
    hother => ?_⟩
  · rw [hread htext, ofJson?_of_carriedBy hkeyed ht]
  · rw [hread htext, ofJson?_of_forall₂ hitems]
  · rw [hread htext, ofJson?_of_twice htwice]
  · rw [hread htext, ofJson?_of_required hkeyed hf hnull]
  · rw [hread htext, ofJson?_array_of_required hf hnull]
  · rw [hread htext, hread hlonger, ofJson?_insert hm hother]

/-- The object is read as the task, with the strange member and without it, and so is the array of
the values. A title that occurs twice, or is null, or is missing, is noticed. -/
theorem reads_known_members_crowdedTask :
    readJson ("\x7b" ++ crowdedText ++ "\x7d") = some crowdedTask ∧
      readJson ("\x7b" ++ strangeText ++ "," ++ crowdedText ++ "\x7d") = some crowdedTask ∧
      readJson "[null,\"😀\",7,null,null,null,\"low\",null]" = some crowdedTask ∧
      readJson "\x7b\"title\":null,\"title\":null\x7d" = none ∧
      readJson "\x7b\"title\":null\x7d" = none ∧
      readJson "[null]" = none := by
  obtain ⟨hobject, harray, htwice, hrequired, hlacking, hinsert⟩ := reads_known_members
  have hcrowded : Json.Text (.object crowdedMembers) ("\x7b" ++ crowdedText ++ "\x7d") :=
    (Json.TextOf.object membersText_crowdedMembers :)
  have hstrange : Json.Text (.object ([] ++ strangeMember :: crowdedMembers))
      ("\x7b" ++ strangeText ++ "," ++ crowdedText ++ "\x7d") :=
    (Json.TextOf.object (.cons (.plain (s := "n") (by decide)) textOf_strangeMember
      membersText_crowdedMembers) :)
  have hitems : Json.Text (.array [.null, .string (Json.plainUnits "😀"),
      .number (Json.numberOf 7), .null, .null, .null, .string (Json.plainUnits "low"), .null])
      "[null,\"😀\",7,null,null,null,\"low\",null]" :=
    (Json.TextOf.array (.cons .null (.cons (.plain (s := "😀") (by decide)) (.cons (.decimal 7)
      (.cons .null (.cons .null (.cons .null (.cons (.plain (s := "low") (by decide))
        (.last .null)))))))) :)
  have hkey := Json.TextOf.plain (s := "title") (by decide)
  have htitle := Json.names_plainUnits "title"
  have hread := hobject _ _ _ hcrowded keyed_crowdedMembers carriedBy_crowdedMembers
  refine ⟨hread, ?_, ?_, ?_, ?_, ?_⟩
  · rw [hinsert _ _ [] crowdedMembers strangeMember "n" hcrowded hstrange
      (Json.names_plainUnits "n") fun f => by cases f <;> decide]
    exact hread
  · exact harray _ _ _ hitems (.cons .null (.cons (.text (Json.names_plainUnits _))
      (.cons (.instant ⟨7⟩) (.cons .null (.cons .null (.cons .null
        (.cons (.priority (Json.names_plainUnits _)) (.cons .null .nil))))))))
  · exact htwice _ _ .title ((Json.TextOf.object (.cons hkey .null (.last hkey .null)) :))
      ⟨_, _, .refl _, htitle, htitle⟩
  · exact hrequired _ _ .title ((Json.TextOf.object (.last hkey .null) :))
      (by simpa [Keyed] using ⟨_, htitle⟩) rfl (by simp)
  · exact hlacking _ [.null] .title ((Json.TextOf.array (.last .null) :)) rfl
      (by simp [Field.writingOrder])

/-- A key that is no text is the key of no field, and yet an object that carries the task is refused
for it. Neither is a minus zero taken for a zero. -/
theorem stray_key_refused :
    Json.Text (.object (strayMember :: crowdedMembers))
        ("\x7b\"\\ud800\":null," ++ crowdedText ++ "\x7d") ∧
      crowdedTask.CarriedBy (strayMember :: crowdedMembers) ∧
      readJson ("\x7b\"\\ud800\":null," ++ crowdedText ++ "\x7d") = none ∧
      readJson "\x7b\"created_on\":-0,\"title\":\"a\",\"priority\":\"low\"\x7d" = none := by
  have hkey : Json.TextOf (.string [.code 0xD800]) "\"\\ud800\"".toList :=
    .string (.cons (.digits (a := 'd') (b := '8') (c := '0') (d := '0') rfl) .nil)
  have htext : Json.Text (.object (strayMember :: crowdedMembers))
      ("\x7b\"\\ud800\":null," ++ crowdedText ++ "\x7d") :=
    (Json.TextOf.object (.cons hkey .null membersText_crowdedMembers) :)
  have hnone : Json.spell strayMember.1 = none := rfl
  have hminus : Json.TextOf (.number ⟨true, ['0'], true⟩) "-0".toList :=
    .number (@Json.NumberText.WrittenAs.mk true ['0'] [] [] (by decide)
      (fun _ => rfl) .none .none)
  have hzero : Json.Text (.object [(Json.plainUnits "created_on", .number ⟨true, ['0'], true⟩),
      (Json.plainUnits "title", .string (Json.plainUnits "a")),
      (Json.plainUnits "priority", .string (Json.plainUnits "low"))])
      "\x7b\"created_on\":-0,\"title\":\"a\",\"priority\":\"low\"\x7d" :=
    (Json.TextOf.object (.cons (.plain (s := "created_on") (by decide)) hminus
      (.cons (.plain (s := "title") (by decide)) (.plain (s := "a") (by decide))
        (.last (.plain (s := "priority") (by decide)) (.plain (s := "low") (by decide))))) :)
  refine ⟨htext, carriedBy_crowdedMembers.cons fun f hf => ?_, ?_, ?_⟩
  · cases hnone.symm.trans (Json.spell_of_names hf)
  · rw [readJson, Json.read_of_text htext]
    rfl
  · rw [readJson, Json.read_of_text hzero]
    rfl

end Task

end Taskbook
