import EmbeddedC.Event

/-!
# Records of events

Events as lines of text. A foreign call is shown by the name of its entry point, the number of its
state and its arguments; texts that are none are shown with replacement characters. A source is
shown by the size of such a text.
-/

namespace EmbeddedC.Record

def state : Option Handle → String
  | some handle => "#" ++ toString handle
  | none => "NULL"

def target : Target → String
  | .size => "size"
  | .auto => "auto"
  | .memory _ => "memory"

/-- The arguments of a call after its state, each behind a comma. -/
def arguments : Request → String
  | .setErrorFunc | .delete => ""
  | .configure (.define name value?) =>
    ", " ++ name.text ++ ", " ++
      match value? with
      | some value => "'" ++ value.text ++ "'"
      | none => "NULL"
  | .configure setting => ", " ++ setting.argument.text
  | .setOutputType code => ", " ++ toString code
  | .addLibrary name | .addSymbol name _ | .getSymbol name => ", " ++ name.text
  | .compile (.text source) => ", " ++ toString source.text.utf8ByteSize ++ " bytes"
  | .compile (.file path) | .outputFile path => ", " ++ path.text
  | .relocate t => ", " ++ target t
  | .run arguments => ", " ++ toString arguments.length

def call (state? : Option Handle) (request : Request) : String :=
  request.entry.name ++ "(" ++ state state? ++ arguments request ++ ")"

def creation (state? : Option Handle) : String :=
  Entry.new.name ++ "() = " ++ state state?

private def argumentList (v : ArgumentVector) : String :=
  toString v.count ++ ", [" ++ "|".intercalate (v.texts.map (·.text)) ++ "]"

private def terminator (v : ArgumentVector) : String :=
  if v.isTerminated then "NULL" else "garbage"

/-- What a program records of its arguments. -/
def program? (v : ArgumentVector) : Address → Option String
  | .compiled "main" => some ("main(" ++ argumentList v ++ ", " ++ terminator v ++ ")")
  | .compiled "ret" => some ("main(" ++ toString v.count ++ ")")
  | .host label => some ("host " ++ label ++ "(" ++ argumentList v ++ ")")
  | _ => none

/-- Code that leaves a record of being entered: programs, and the host's own functions. -/
def entered? (address : Address) (arguments : Arguments) : Option String :=
  match arguments.vector? with
  | some v => program? v address
  | none =>
    match address, arguments with
    | .host label, .numbers numbers =>
      some ("host " ++ label ++ "(" ++ ", ".intercalate (numbers.map toString) ++ ")")
    | _, _ => none

/-- The name under which diagnostics are logged beside all else. -/
def diagnosticsMark (record : LogRecord) : String :=
  match record with
  | .diagnostic _ => " [diagnostics]"
  | _ => ""

def log (record : LogRecord) : String :=
  "log " ++ record.level.text ++ diagnosticsMark record ++ ": " ++ record.text Address.text

/-- The line of an event, if it has one and is to be shown. -/
def line? (verbosity : Verbosity) : Event → Option String
  | .created state? => some (creation state?)
  | .called state? request _ => some (call state? request)
  | .entered _ address arguments => entered? address arguments
  | .messaged _ _ | .printed _ => none
  | .delivered _ sink message => some ("sink " ++ sink ++ ": " ++ message)
  | .hookRan _ hook => some ("hook " ++ hook)
  | .logged record => if verbosity.shows record.level then some (log record) else none

def lines (verbosity : Verbosity) (events : List Event) : List String :=
  events.filterMap (line? verbosity)

/-- The lines of events on a table without contexts, whose messages reach its relay as they are. -/
def directLines (verbosity : Verbosity) (events : List Event) : List String :=
  events.filterMap fun
    | .messaged _ message => some ("relay: " ++ message.text)
    | event => line? verbosity event

end EmbeddedC.Record
