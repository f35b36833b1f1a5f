import Taskbook.Log.Event

/-!
# Actions on a Store

An action runs against a store of some type `σ`. It ends with an answer or a failure, leaves
a store behind either way, and writes log events on its way. All three are in its reply, so
"a failed call changes nothing" and "this call logs that" are statements about one value.

A failure is either a cause, an error of the domain that the caller gets to see, or an
overflow: the id counter of a store ran over the last id and the call broke off.
-/

namespace Taskbook

/-- How an action ends without an answer. -/
inductive Failure (ε : Type) where
  | cause (e : ε)
  | overflow
  deriving DecidableEq, Repr

/-- The wording of an overflow. -/
def Failure.overflowMessage : String := "attempt to add with overflow"

/-- The same failure under another error type. -/
def Failure.map {ε δ : Type} (f : ε → δ) : Failure ε → Failure δ
  | cause e => .cause (f e)
  | overflow => .overflow

/-- What an action leaves behind. -/
structure Reply (σ ε α : Type) where
  result : Except (Failure ε) α
  store : σ
  events : List Event

/-- A computation on a store. -/
def Action (σ ε α : Type) := σ → Reply σ ε α

namespace Action

variable {σ ε δ α β : Type}

/-- The action that answers at once. -/
def answer (a : α) : Action σ ε α := fun s => ⟨.ok a, s, []⟩

/-- The action that fails at once. -/
def fail (e : ε) : Action σ ε α := fun s => ⟨.error (.cause e), s, []⟩

/-- The action that breaks off at once. -/
def breakOff : Action σ ε α := fun s => ⟨.error .overflow, s, []⟩

/-- Runs an action and, if it answers, the action that its answer leads to. -/
def andThen (x : Action σ ε α) (f : α → Action σ ε β) : Action σ ε β := fun s =>
  match x s with
  | ⟨.ok a, s', events⟩ =>
    let r := f a s'
    ⟨r.result, r.store, events ++ r.events⟩
  | ⟨.error e, s', events⟩ => ⟨.error e, s', events⟩

instance : Monad (Action σ ε) where
  pure := answer
  bind := andThen

/-- Writes an event to the log. -/
def record (e : Event) : Action σ ε Unit := fun s => ⟨.ok (), s, [e]⟩

/-- The store as it is. -/
def store : Action σ ε σ := fun s => ⟨.ok s, s, []⟩

/-- Replaces the store. -/
def setStore (s : σ) : Action σ ε Unit := fun _ => ⟨.ok (), s, []⟩

/-- Answers or fails as a pure computation does. -/
def ofExcept : Except ε α → Action σ ε α
  | .ok a => answer a
  | .error e => fail e

/-- The same action under another error type. -/
def mapError (f : ε → δ) (x : Action σ ε α) : Action σ δ α := fun s =>
  let r := x s
  ⟨r.result.mapError (Failure.map f), r.store, r.events⟩

/-! ### How actions compose -/

@[simp] theorem pure_apply (a : α) (s : σ) : (pure a : Action σ ε α) s = ⟨.ok a, s, []⟩ := rfl

@[simp] theorem answer_apply (a : α) (s : σ) : (answer a : Action σ ε α) s = ⟨.ok a, s, []⟩ := rfl

@[simp] theorem fail_apply (e : ε) (s : σ) :
    (fail e : Action σ ε α) s = ⟨.error (.cause e), s, []⟩ := rfl

@[simp] theorem breakOff_apply (s : σ) :
    (breakOff : Action σ ε α) s = ⟨.error .overflow, s, []⟩ := rfl

@[simp] theorem record_apply (e : Event) (s : σ) :
    (record e : Action σ ε Unit) s = ⟨.ok (), s, [e]⟩ := rfl

@[simp] theorem store_apply (s : σ) : (store : Action σ ε σ) s = ⟨.ok s, s, []⟩ := rfl

@[simp] theorem setStore_apply (s s' : σ) :
    (setStore s : Action σ ε Unit) s' = ⟨.ok (), s, []⟩ := rfl

@[simp] theorem ofExcept_ok (a : α) : (ofExcept (.ok a) : Action σ ε α) = answer a := rfl

@[simp] theorem ofExcept_error (e : ε) : (ofExcept (.error e) : Action σ ε α) = fail e := rfl

/-- After an answer the next action runs on the store left behind. -/
theorem bind_of_ok {x : Action σ ε α} {f : α → Action σ ε β} {s s' : σ} {a : α}
    {events : List Event} (h : x s = ⟨.ok a, s', events⟩) :
    (x >>= f) s = ⟨(f a s').result, (f a s').store, events ++ (f a s').events⟩ := by
  show andThen x f s = _
  simp [andThen, h]

/-- After a failure nothing else runs. -/
theorem bind_of_error {x : Action σ ε α} {f : α → Action σ ε β} {s s' : σ} {e : Failure ε}
    {events : List Event} (h : x s = ⟨.error e, s', events⟩) :
    (x >>= f) s = ⟨.error e, s', events⟩ := by
  show andThen x f s = _
  simp [andThen, h]

end Action

end Taskbook
