import ScriptLinker.Journal
/-!
# Actions

An action runs on a state and ends in a result or an error, the state it leaves
and the events it noted. A failed action keeps the state and the events it had
reached: nothing is undone unless an action says so. The equations below say
what each way to build an action does.
-/

namespace ScriptLinker

/-- How an action ended. -/
structure Outcome (σ ε α : Type) where
  result : Except ε α
  state : σ
  events : List Event

/-- A step on a state of type `σ` that yields an `α` or fails with an `ε`. -/
def Action (σ ε α : Type) : Type :=
  σ → Outcome σ ε α

namespace Action

variable {σ τ ε ε' α β : Type}

def run (action : Action σ ε α) (state : σ) : Outcome σ ε α :=
  action state

protected def pure (value : α) : Action σ ε α :=
  fun state => ⟨.ok value, state, []⟩

/-- Runs the second action on the first one's value, unless the first failed. -/
protected def bind (first : Action σ ε α) (next : α → Action σ ε β) : Action σ ε β :=
  fun state =>
    match first state with
    | ⟨.ok value, state, events⟩ =>
      let last := next value state
      { last with events := events ++ last.events }
    | ⟨.error error, state, events⟩ => ⟨.error error, state, events⟩

instance : Monad (Action σ ε) where
  pure := Action.pure
  bind := Action.bind

def fail (error : ε) : Action σ ε α :=
  fun state => ⟨.error error, state, []⟩

def get : Action σ ε σ :=
  fun state => ⟨.ok state, state, []⟩

def set (state : σ) : Action σ ε Unit :=
  fun _ => ⟨.ok (), state, []⟩

def modify (change : σ → σ) : Action σ ε Unit :=
  fun state => ⟨.ok (), change state, []⟩

def note (event : Event) : Action σ ε Unit :=
  fun state => ⟨.ok (), state, [event]⟩

/-- Reads the state and may fail, and changes nothing. -/
def read (look : σ → Except ε α) : Action σ ε α :=
  fun state => ⟨look state, state, []⟩

/-- Fails with `error` when there is no value. -/
def ofExcept (value : Except ε α) : Action σ ε α :=
  fun state => ⟨value, state, []⟩

def mapError (rename : ε → ε') (action : Action σ ε α) : Action σ ε' α :=
  fun state =>
    let outcome := action state
    ⟨outcome.result.mapError rename, outcome.state, outcome.events⟩

/-- Runs an action on a part of the state. -/
def zoom (part : σ → τ) (put : τ → σ → σ) (action : Action τ ε α) : Action σ ε α :=
  fun state =>
    let outcome := action (part state)
    ⟨outcome.result, put outcome.state state, outcome.events⟩

/-- Runs `cleanup` after the action, also when the action failed. -/
def andThenAlways (action : Action σ ε α) (cleanup : Action σ Empty Unit) : Action σ ε α :=
  fun state =>
    let outcome := action state
    let after := cleanup outcome.state
    ⟨outcome.result, after.state, outcome.events ++ after.events⟩

@[simp] theorem run_pure (value : α) (state : σ) :
    (pure value : Action σ ε α).run state = ⟨.ok value, state, []⟩ := rfl

theorem run_bind (first : Action σ ε α) (next : α → Action σ ε β) (state : σ) :
    (first >>= next).run state =
      match first.run state with
      | ⟨.ok value, state, events⟩ =>
        ⟨((next value).run state).result, ((next value).run state).state,
          events ++ ((next value).run state).events⟩
      | ⟨.error error, state, events⟩ => ⟨.error error, state, events⟩ := rfl

@[simp] theorem run_fail (error : ε) (state : σ) :
    (fail error : Action σ ε α).run state = ⟨.error error, state, []⟩ := rfl

@[simp] theorem run_get (state : σ) :
    (get : Action σ ε σ).run state = ⟨.ok state, state, []⟩ := rfl

@[simp] theorem run_set (new state : σ) :
    (set new : Action σ ε Unit).run state = ⟨.ok (), new, []⟩ := rfl

@[simp] theorem run_modify (change : σ → σ) (state : σ) :
    (modify change : Action σ ε Unit).run state = ⟨.ok (), change state, []⟩ := rfl

@[simp] theorem run_note (event : Event) (state : σ) :
    (note event : Action σ ε Unit).run state = ⟨.ok (), state, [event]⟩ := rfl

@[simp] theorem run_read (look : σ → Except ε α) (state : σ) :
    (read look).run state = ⟨look state, state, []⟩ := rfl

@[simp] theorem run_ofExcept (value : Except ε α) (state : σ) :
    (ofExcept value).run state = ⟨value, state, []⟩ := rfl

theorem run_mapError (rename : ε → ε') (action : Action σ ε α) (state : σ) :
    (action.mapError rename).run state =
      ⟨(action.run state).result.mapError rename, (action.run state).state,
        (action.run state).events⟩ := rfl

theorem run_zoom (part : σ → τ) (put : τ → σ → σ) (action : Action τ ε α) (state : σ) :
    (action.zoom part put).run state =
      ⟨(action.run (part state)).result, put (action.run (part state)).state state,
        (action.run (part state)).events⟩ := rfl

/-- A cleanup changes the state and not the result. -/
@[simp] theorem result_andThenAlways (action : Action σ ε α) (cleanup : Action σ Empty Unit)
    (state : σ) :
    ((action.andThenAlways cleanup).run state).result = (action.run state).result := rfl

@[simp] theorem state_andThenAlways (action : Action σ ε α) (cleanup : Action σ Empty Unit)
    (state : σ) :
    ((action.andThenAlways cleanup).run state).state =
      (cleanup.run (action.run state).state).state := rfl

theorem run_bind_of_ok {first : Action σ ε α} {state after : σ} {value : α}
    {events : List Event} (h : first.run state = ⟨.ok value, after, events⟩)
    (next : α → Action σ ε β) :
    (first >>= next).run state =
      ⟨((next value).run after).result, ((next value).run after).state,
        events ++ ((next value).run after).events⟩ := by
  rw [run_bind, h]

theorem run_bind_of_error {first : Action σ ε α} {state after : σ} {error : ε}
    {events : List Event} (h : first.run state = ⟨.error error, after, events⟩)
    (next : α → Action σ ε β) :
    (first >>= next).run state = ⟨.error error, after, events⟩ := by
  rw [run_bind, h]

end Action

end ScriptLinker
