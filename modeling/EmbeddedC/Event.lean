import EmbeddedC.Foreign
import EmbeddedC.Log

/-!
# Events

All that can be seen of a run, in order: foreign calls, code entered, messages the compiler sent and
sinks that received them, hooks that ran, log records, and lines printed.
-/

namespace EmbeddedC

inductive Event where
  | created (state? : Option Handle)
  /-- A foreign call on a state, or on no state at all. -/
  | called (state? : Option Handle) (request : Request) (answer : Answer)
  /-- Code entered through a context of a state, or else by the host itself or the other side. -/
  | entered (state? : Option Handle) (address : Address) (arguments : Arguments)
  | messaged (state : Handle) (message : CText)
  | delivered (state : Handle) (sink message : String)
  | hookRan (state? : Option Handle) (hook : String)
  | logged (record : LogRecord)
  | printed (line : String)
  deriving DecidableEq, Repr

end EmbeddedC
