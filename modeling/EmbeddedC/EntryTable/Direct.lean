import EmbeddedC.Event

/-!
# Entry tables without contexts

The entry points called directly, on one foreign state at a time. Nothing guards their order.
-/

namespace EmbeddedC

structure Direct (σ : Type) where
  outside : σ
  /-- How many states have been created. -/
  created : Nat := 0
  current? : Option Handle := none

namespace Direct

variable {σ : Type} (compiler : Compiler σ)

def event : Emission → Event
  | .message state text => .messaged state text
  | .entered address arguments => .entered none address arguments

/-- Whether there is a new state; it becomes the current one. -/
def create (d : Direct σ) : Bool × Direct σ × List Event :=
  match compiler.create d.outside with
  | (false, outside) => (false, { d with outside, current? := none }, [.created none])
  | (true, outside) =>
    (true, { outside, created := d.created + 1, current? := some d.created },
      [.created (some d.created)])

/-- A call on the current state, if there is one. Deleting the state leaves none. -/
def call (request : Request) (d : Direct σ) : Option (Answer × Direct σ × List Event) :=
  d.current?.map fun handle =>
    let (answer, sent, outside) := compiler.call handle request d.outside
    let current? := if request = .delete then none else d.current?
    (answer, { d with outside, current? },
      .called (some handle) request answer :: sent.map event)

end Direct

end EmbeddedC
