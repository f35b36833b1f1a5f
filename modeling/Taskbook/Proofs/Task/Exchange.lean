import Taskbook.Proofs.Json.Tree
import Taskbook.Proofs.Query.Conditions
import Taskbook.Proofs.Task.Access
import Taskbook.Task.Json

/-!
# Tasks through JSON and Back

A task that is written as JSON is one object with the fields in the order in which a task is
written. Reading the text gives this object, and the object stands for the task again: the value
of each field is found under its name, is read as the content of the field, and a task is made
from the contents of its fields. So nothing of a task is lost in the text, whatever its title
holds and however large its integers are.

## Main results

* `Task.read_textOf`: **the text of a task is its object**;
* `Task.ofFields?_of_toJson`: **a task is made from the values of its fields**, wherever they come
  from;
* `Task.readJson_textOf`: **a task is read from its members in any order**;
* `Task.json_roundtrip`: **what is written is read back**, so a text belongs to at most one task,
  and a task that was read is written in one form only.
-/

namespace Taskbook

/-! ### The value that a task is written as -/

/-- A value as a JSON value. -/
def Value.toJson : Value → Json
  | null => .null
  | integer n => .number (Json.numberOf n)
  | text s => .string (Json.unitsOf s)
  | bool flag => .bool flag
  | instant t => .number (Json.numberOf t.millis)
  | priority p => .string (Json.unitsOf p.name)

/-- A JSON object with a member for each of some fields. -/
def Task.objectOf (t : Task) (fs : List Field) : Json :=
  .object (fs.map fun f => (Json.unitsOf f.name, (t.get f).toJson))

/-- A task as a JSON value: the object of its fields in the order of writing. -/
def Task.toJson (t : Task) : Json :=
  t.objectOf Field.writingOrder

/-- The text of a JSON object with a member for each of some fields. -/
def Task.textOf (t : Task) (fs : List Field) : String :=
  "\x7b" ++ ",".intercalate (fs.map fun f => Json.quote f.name ++ ":" ++ (t.get f).json) ++ "\x7d"

/-- A task is written with its fields in the order of writing. -/
theorem Task.writeJson_eq (t : Task) : t.writeJson = t.textOf Field.writingOrder :=
  rfl

/-- The text of a value writes it. -/
theorem Value.writtenAs_json (v : Value) : v.toJson.WrittenAs v.json.toList := by
  cases v with
  | null => exact Json.writtenAs_of_spelledBy rfl Json.spelledBy_null
  | integer n => exact Json.writtenAs_of_spelledBy rfl (Json.spelledBy_decimal n)
  | text s => exact Json.writtenAs_of_spelledBy rfl (Json.spelledBy_quote s)
  | bool flag => exact Json.writtenAs_of_spelledBy rfl (Json.spelledBy_bool flag)
  | instant t => exact Json.writtenAs_of_spelledBy rfl (Json.spelledBy_decimal t.millis)
  | priority p => exact Json.writtenAs_of_spelledBy rfl (Json.spelledBy_quote p.name)

/-- **The text of a task is its object.** -/
theorem Task.read_textOf (t : Task) (fs : List Field) :
    Json.read (t.textOf fs) = some (t.objectOf fs) :=
  Json.read_of_writtenAs (Json.writtenAs_object Field.name (fun f => (t.get f).writtenAs_json) fs)

/-! ### The fields of the object -/

namespace Json

variable {fs : List Field}

/-- The members of the fields stand under the names of the fields. -/
theorem namedMembers?_map (value : Field → Json) (fs : List Field) :
    namedMembers? (fs.map fun f => (unitsOf f.name, value f)) =
      some (fs.map fun f => (f.name, value f)) := by
  rw [namedMembers?, List.mapM_map]
  simp only [Function.comp_def, spell_unitsOf, Option.map_some]
  exact List.mapM_pure

/-- Fields in any order occur once each. -/
theorem repeated_of_perm (h : fs.Perm Field.writingOrder) (value : Field → Json) (f : Field) :
    repeated (fs.map fun f => (f.name, value f)) f = false := by
  have hcount : (fs.countP fun g => g.name == f.name) = 1 := by
    rw [h.countP_eq]
    cases f <;> decide
  rw [repeated, List.countP_map]
  exact decide_eq_false (by rw [Function.comp_def, hcount]; decide)

/-- The member of a field is the one that was written for it, in any order of the fields. -/
theorem member?_of_perm (h : fs.Perm Field.writingOrder) (value : Field → Json) (f : Field) :
    member? (fs.map fun f => (f.name, value f)) f = some (value f) := by
  have hmem : f ∈ fs := h.mem_iff.mpr (by cases f <;> decide)
  have hsome : (fs.find? fun g => g.name == f.name).isSome :=
    List.find?_isSome.mpr ⟨f, hmem, beq_self_eq_true f.name⟩
  obtain ⟨g, hfind⟩ := Option.isSome_iff_exists.mp hsome
  have hname : g.name = f.name := beq_iff_eq.mp (List.find?_some hfind :)
  have hfield : g = f := by
    have hfound := Field.find?_name g
    rw [hname, Field.find?_name] at hfound
    exact (Option.some.inj hfound).symm
  rw [member?, List.find?_map, Function.comp_def, hfind, hfield, Option.map_some, Option.map_some]

/-- The name of a priority names it. -/
theorem priorityNamed?_name (p : Priority) : priorityNamed? p.name = some p := by
  cases p <;> decide

/-- The content of a field is read from the value that it is written as. -/
theorem fieldValue?_toJson (t : Task) (f : Field) :
    fieldValue? f (some (t.get f).toJson) = some (t.get f) := by
  have hinstant (n : Instant) :
      (integer? (.number (numberOf n.millis))).map (fun n => Value.instant ⟨n⟩) =
        some (.instant n) :=
    congrArg (Option.map fun n => Value.instant ⟨n⟩) (integer?_numberOf n.millis)
  have hinteger (n : Int64) :
      (integer? (.number (numberOf n))).map Value.integer = some (.integer n) :=
    congrArg (Option.map Value.integer) (integer?_numberOf n)
  obtain ⟨id, title, createdOn, doneOn, postponedUntil, dueDate, priority, createdFrom⟩ := t
  cases f with
  | id => rcases id with - | n; exacts [rfl, hinteger n]
  | title => exact congrArg (Option.map Value.text) (spell_unitsOf title)
  | createdOn => exact hinstant createdOn
  | doneOn => rcases doneOn with - | n; exacts [rfl, hinstant n]
  | priority =>
      have hread : priority? (.string (unitsOf priority.name)) = some priority := by
        rw [priority?, spell_unitsOf, Option.bind_some, priorityNamed?_name]
      exact congrArg (Option.map Value.priority) hread
  | postponedUntil => rcases postponedUntil with - | n; exacts [rfl, hinstant n]
  | createdFrom => rcases createdFrom with - | n; exacts [rfl, hinteger n]
  | dueDate => rcases dueDate with - | n; exacts [rfl, hinstant n]

end Json

namespace Task

/-- A task is made from values that its fields have as their content, wherever they come from. -/
theorem ofFields?_of_fieldValue? {t : Task} {values : Field → Option Json}
    (h : ∀ f, Json.fieldValue? f (values f) = some (t.get f)) : ofFields? values = some t := by
  refine foldlM_eq_pure (fun s f => ?_) blank
  obtain ⟨u, hset, hf⟩ := s.exists_set_get t f
  have hwrite : setJson? values s f = some u := by
    rw [setJson?, h, Option.bind_some, hset]
    rfl
  exact ⟨u, hwrite, hf, fun g hg => get_set_ne hset hg⟩

/-- **A task is made from the values of its fields**, wherever they come from. -/
theorem ofFields?_of_toJson {t : Task} {values : Field → Option Json}
    (h : ∀ f, values f = some (t.get f).toJson) : ofFields? values = some t :=
  ofFields?_of_fieldValue? fun f => by rw [h, Json.fieldValue?_toJson]

/-- The object of a task stands for the task, in any order of its members. -/
theorem ofJson?_objectOf {fs : List Field} (h : fs.Perm Field.writingOrder) (t : Task) :
    ofJson? (t.objectOf fs) = some t := by
  have honce :
      ¬(Field.all.any (Json.repeated (fs.map fun f => (f.name, (t.get f).toJson))) = true) := by
    simp only [List.any_eq_true, Json.repeated_of_perm h, Bool.false_eq_true, and_false,
      exists_false, not_false_eq_true]
  rw [objectOf, ofJson?, Json.namedMembers?_map, Option.bind_some, if_neg honce]
  exact ofFields?_of_toJson (Json.member?_of_perm h fun f => (t.get f).toJson)

/-- **A task is read from its members in any order.** -/
theorem readJson_textOf {fs : List Field} (h : fs.Perm Field.writingOrder) (t : Task) :
    readJson (t.textOf fs) = some t := by
  rw [readJson, read_textOf, Option.bind_some, ofJson?_objectOf h]

/-- The text of a task is read as the task. -/
theorem readJson_writeJson (t : Task) : readJson t.writeJson = some t :=
  t.writeJson_eq ▸ readJson_textOf (.refl _) t

/-- **What is written is read back.** The text of a task is the text of one JSON value, its object,
and is read as the task. Different tasks have different texts; and a task that was read from some
text is written as a text that is read as the same task, and that is written for it again. -/
theorem json_roundtrip :
    (∀ t : Task, Json.read t.writeJson = some t.toJson ∧ readJson t.writeJson = some t) ∧
      (∀ s t : Task, s ≠ t → s.writeJson ≠ t.writeJson) ∧
      ∀ (text : String) (t : Task), readJson text = some t →
        readJson t.writeJson = some t ∧
          (readJson t.writeJson).map writeJson = some t.writeJson := by
  refine ⟨fun t => ⟨t.read_textOf _, t.readJson_writeJson⟩, fun s t hne htext => hne ?_,
    fun text t _ => ⟨t.readJson_writeJson, by rw [readJson_writeJson, Option.map_some]⟩⟩
  have hs := s.readJson_writeJson
  rw [htext, t.readJson_writeJson] at hs
  exact (Option.some.inj hs).symm

/-- A task whose title needs every kind of escape, with the extreme integers. -/
def escapedTask : Task where
  title := "\"\\\x07\n\x7f😀"
  createdOn := ⟨-9223372036854775808⟩
  dueDate := some ⟨9223372036854775807⟩
  priority := .low

/-- The members of that task in the order from the last to the first are read as the task, and what
is written for it is read as the same task. -/
theorem json_roundtrip_escapedTask :
    readJson (escapedTask.textOf Field.writingOrder.reverse) = some escapedTask ∧
      readJson escapedTask.writeJson = some escapedTask ∧
      (readJson escapedTask.writeJson).map writeJson = some escapedTask.writeJson ∧
      escapedTask.writeJson ≠ blank.writeJson := by
  have hread : readJson (escapedTask.textOf Field.writingOrder.reverse) = some escapedTask :=
    readJson_textOf (List.reverse_perm _) escapedTask
  have hne : escapedTask ≠ blank := fun h => absurd (congrArg priority h) (by decide)
  obtain ⟨htask, htext⟩ := json_roundtrip.2.2 _ escapedTask hread
  exact ⟨hread, htask, htext, json_roundtrip.2.1 escapedTask blank hne⟩

end Task

end Taskbook
