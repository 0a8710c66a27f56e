import EmbeddedC.Toolchain

/-!
# Sessions

Any number of contexts opened from one toolchain, worked on in any order. A context is named by its
number in the session; once dropped, its number names nothing.
-/

namespace EmbeddedC

structure Session (σ : Type) where
  toolchain : Toolchain
  world : World σ
  contexts : List (Option Context) := []

inductive Move where
  /-- Opens a context with the toolchain's config, or a bare one. -/
  | openContext (bare : Bool)
  | drop (index : Nat)
  | perform (index : Nat) (operation : Operation)
  | runJob (index : Nat) (job : Job)
  /-- The host enters code itself. -/
  | enter (address : Address) (arguments : Arguments)
  /-- The foreign side acts between calls. -/
  | outside (sent : List Emission)

inductive Reply where
  | value (value : Value)
  | opened (index : Nat)
  deriving DecidableEq, Repr

inductive MoveError where
  | noContext
  | bind (error : BindError)
  deriving DecidableEq, Repr

namespace Session

variable {σ : Type}

def context? (s : Session σ) (index : Nat) : Option Context :=
  (s.contexts[index]?).join

/-- The state of a context's error channel. -/
def channel (s : Session σ) (c : Context) : Channel :=
  (s.world.channel? c.number).getD {}

variable (compiler : Compiler σ)

/-- An action on one of the contexts. -/
def on (index : Nat) (x : ContextAction σ Value) : Action Event (Session σ) MoveError Reply :=
  fun s =>
    match s.context? index with
    | none => ⟨.error .noContext, s, []⟩
    | some c =>
      let o := x ⟨c, s.world⟩
      ⟨(o.result.map .value).mapError .bind,
        { s with world := o.state.world, contexts := s.contexts.set index (some o.state.context) },
        o.events⟩

def openContext (bare : Bool) : Action Event (Session σ) MoveError Reply :=
  fun s =>
    let o := (if bare then Context.create compiler s.toolchain.table
      else s.toolchain.openContext compiler) s.world
    match o.result with
    | .error e => ⟨.error (.bind e), { s with world := o.state }, o.events⟩
    | .ok c =>
      ⟨.ok (.opened s.contexts.length),
        { s with world := o.state, contexts := s.contexts ++ [some c] }, o.events⟩

/-- Releases a context and forgets it. There need be none. -/
def drop (index : Nat) : Action Event (Session σ) MoveError Reply :=
  fun s =>
    match s.context? index with
    | none => ⟨.ok (.value .none), s, []⟩
    | some c =>
      let o := ContextAction.release compiler ⟨c, s.world⟩
      ⟨.ok (.value .none),
        { s with world := o.state.world, contexts := s.contexts.set index none }, o.events⟩

def move : Move → Action Event (Session σ) MoveError Reply
  | .openContext bare => openContext compiler bare
  | .drop index => drop compiler index
  | .perform index operation => on index (operation.perform compiler)
  | .runJob index job => on index (job.perform compiler)
  | .enter address arguments => fun s =>
    let (status, world, events) := World.enter compiler none address arguments s.world
    ⟨.ok (.value (.status status)), { s with world }, events⟩
  | .outside sent => fun s =>
    let (world, events) := s.world.absorb sent
    ⟨.ok (.value .none), { s with world }, events⟩

/-- Moves in order, whether they succeed or not: the session they leave and all events. -/
def play (s : Session σ) : List Move → Session σ × List Event
  | [] => (s, [])
  | m :: rest =>
    let o := move compiler m s
    let (s, events) := play o.state rest
    (s, o.events ++ events)

/-- Drops all contexts in order. -/
def close (s : Session σ) : Session σ × List Event :=
  s.play compiler ((List.range s.contexts.length).map .drop)

end Session

end EmbeddedC
