import EmbeddedC.Action
import EmbeddedC.Event
import EmbeddedC.Text.Outline

/-!
# The world of contexts

What all contexts share: the foreign side, and one error channel for each state it has created. A
channel counts every message sent to its state and passes it to the sink installed at that moment.
-/

namespace EmbeddedC

/-- A receiver of messages. It panics on those it refuses, after having received them. Whether it
refuses a message depends on the text alone: receivers that change with what they have received, or
that act on a context themselves, are left out. -/
structure Sink where
  tag : String
  refuses : String → Bool := fun _ => false

structure Channel where
  sink? : Option Sink := none
  delivered : Nat := 0

namespace Channel

/-- What is seen of a message on its way through. A panic ends with the message it was about. -/
def receive (c : Channel) (handle : Handle) (text : String) : List Event :=
  .logged (.diagnostic text) ::
    match c.sink? with
    | none => []
    | some sink =>
      .delivered handle sink.tag text ::
        if sink.refuses text then [.logged (.sinkPanicked text)] else []

def outline (c : Channel) : Text.Outline :=
  .closed "ErrorChannel"
    [("has_sink", .text (toString c.sink?.isSome)), ("delivered", .text (toString c.delivered))]

end Channel

structure World (σ : Type) where
  outside : σ
  channels : List Channel := []

namespace World

variable {σ : Type}

def channel? (w : World σ) (handle : Handle) : Option Channel :=
  w.channels[handle]?

def delivered (w : World σ) (handle : Handle) : Nat :=
  ((w.channel? handle).map (·.delivered)).getD 0

def setSink (w : World σ) (handle : Handle) (sink? : Option Sink) : World σ :=
  { w with channels := w.channels.modify handle fun c => { c with sink? } }

/-- A message sent through a state's error function. A state that has none sends nothing. -/
def message (w : World σ) (handle : Handle) (text : CText) : World σ × List Event :=
  match w.channel? handle with
  | none => (w, [])
  | some c =>
    ({ w with channels := w.channels.set handle { c with delivered := c.delivered + 1 } },
      .messaged handle text :: c.receive handle text.text)

/-- What happens on the other side, one thing after the other. -/
def absorb (w : World σ) : List Emission → World σ × List Event
  | [] => (w, [])
  | .message handle text :: rest =>
    let (w, events) := w.message handle text
    let (w, more) := w.absorb rest
    (w, events ++ more)
  | .entered address arguments :: rest =>
    let (w, more) := w.absorb rest
    (w, .entered none address arguments :: more)

variable (compiler : Compiler σ)

/-- Asks for a new state. It gets the next number and a channel without a sink. -/
def create (w : World σ) : Option Handle × World σ × List Event :=
  match compiler.create w.outside with
  | (false, outside) => (none, { w with outside }, [.created none])
  | (true, outside) =>
    let handle := w.channels.length
    (some handle, { outside, channels := w.channels ++ [{}] }, [.created (some handle)])

def call (handle : Handle) (request : Request) (w : World σ) : Answer × World σ × List Event :=
  let (answer, sent, outside) := compiler.call handle request w.outside
  let (w, events) := absorb { w with outside } sent
  (answer, w, .called (some handle) request answer :: events)

def enter (state? : Option Handle) (address : Address) (arguments : Arguments) (w : World σ) :
    Int32 × World σ × List Event :=
  let (result, sent, outside) := compiler.enter address arguments w.outside
  let (w, events) := absorb { w with outside } sent
  (result, w, .entered state? address arguments :: events)

def files (w : World σ) : FileSystem :=
  compiler.files w.outside

end World

end EmbeddedC
