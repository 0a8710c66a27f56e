/-!
# Actions

A computation on a state that can fail and that leaves a trail of events. Failure stops it where it
is: the state it has reached and the events so far remain.
-/

namespace EmbeddedC

structure Outcome (ω s ε α : Type) where
  result : Except ε α
  state : s
  events : List ω

/-- An action over states `s`, with events `ω`, errors `ε` and results `α`. -/
def Action (ω s ε α : Type) : Type :=
  s → Outcome ω s ε α

namespace Action

variable {ω s ε δ α β : Type}

def pure (a : α) : Action ω s ε α :=
  fun st => ⟨.ok a, st, []⟩

def bind (x : Action ω s ε α) (f : α → Action ω s ε β) : Action ω s ε β :=
  fun st =>
    match x st with
    | ⟨.error e, st, events⟩ => ⟨.error e, st, events⟩
    | ⟨.ok a, st, events⟩ =>
      let next := f a st
      ⟨next.result, next.state, events ++ next.events⟩

instance : Monad (Action ω s ε) where
  pure := pure
  bind := bind

def fail (e : ε) : Action ω s ε α :=
  fun st => ⟨.error e, st, []⟩

def get : Action ω s ε s :=
  fun st => ⟨.ok st, st, []⟩

def modify (f : s → s) : Action ω s ε Unit :=
  fun st => ⟨.ok (), f st, []⟩

def emit (events : List ω) : Action ω s ε Unit :=
  fun st => ⟨.ok (), st, events⟩

/-- A step that cannot fail. -/
def step (f : s → α × s × List ω) : Action ω s ε α :=
  fun st =>
    let (a, st, events) := f st
    ⟨.ok a, st, events⟩

def ofExcept (x : Except ε α) : Action ω s ε α :=
  fun st => ⟨x, st, []⟩

def mapError (f : ε → δ) (x : Action ω s ε α) : Action ω s δ α :=
  fun st =>
    let o := x st
    ⟨o.result.mapError f, o.state, o.events⟩

@[simp] theorem mapError_ok (f : ε → δ) (a : α) :
    (.ok a : Except ε α).mapError f = .ok a :=
  rfl

end Action

end EmbeddedC
