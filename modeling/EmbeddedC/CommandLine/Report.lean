import EmbeddedC.CommandLine.Command
import EmbeddedC.Record

/-!
# Reports

What a finished command shows: the lines it printed, and on the error stream its compiler's messages,
the log as far as it is asked for, and a narrated report if it failed.
-/

namespace EmbeddedC.CommandLine

/-- A line without the carriage return that may stand before the line's end. -/
def dropReturn (line : String) : String :=
  match line.toList.reverse with
  | '\r' :: rest => String.ofList rest.reverse
  | _ => line

/-- The lines of a text; a line feed ends a line, alone or after a carriage return. -/
def textLines (s : String) : List String :=
  (s.splitOn "\n").map dropReturn

/-- What lies behind an error, where it has a cause of its own. A cause that another library words
is named, not quoted. -/
def CommandError.cause? : CommandError → Option (List String)
  | bind (.config (.unreadable _ cause)) | bind (.io _ cause) => some [cause.text]
  | bind (.config (.malformed _)) => some ["<toml text>", ""]
  | bind (.load (.missingEntry _)) => some ["<loader text>"]
  | _ => none

/-- Whether the report is cut short: the loader's words, which stand in the message, end wherever
they end. -/
private def isCut : CommandError → Bool
  | .bind (.load (.loadFailed _)) => true
  | _ => false

def CommandError.report (e : CommandError) : List String :=
  let cause := match e.cause? with
    | none => []
    | some [] => []
    | some (first :: rest) => ("    Caused by: " ++ first) :: rest
  let help := match e.help? with
    | none => []
    | some help => ["diagnostic help: " ++ help]
  textLines ("Error: " ++ e.message) ++
    (if isCut e then [] else "    Diagnostic severity: error" :: cause ++ help) ++
    ["diagnostic code: " ++ e.code, ""]

/-- The names of levels, all of one width. -/
def Level.padded (l : Level) : String :=
  l.text ++ String.ofList (List.replicate (5 - l.text.length) ' ')

/-- The host's own addresses differ from run to run, so only that there is one is shown. -/
def addressMark (_ : Address) : String := "0x"

/-- A record as lines, the second and later ones indented. -/
def logLines (record : LogRecord) : List String :=
  match textLines (record.text addressMark) with
  | [] => []
  | first :: rest =>
    ("[" ++ Level.padded record.level ++ " " ++ record.source ++ "] " ++ first) ::
      rest.map ("    " ++ ·)

def errorLines (verbosity : Verbosity) : Event → List String
  | .delivered _ _ message => textLines message
  | .logged record => if verbosity.shows record.level then logLines record else []
  | _ => []

/-- Lines that the command printed, and those that compiled code had the host print. -/
def outputLine? : Event → Option String
  | .printed line => some line
  | .entered _ (.host "hello") (.text text) => some text.text
  | _ => none

/-- Calls that reached the compiler, and programs entered. -/
def callText? : Event → Option String
  | .created state? => some (Record.creation state?)
  | .called state? request _ => some (Record.call state? request)
  | .entered _ (.compiled label) arguments => Record.entered? (.compiled label) arguments
  | _ => none

/-- The line of a call. Each has one line, so line feeds in its arguments are spelled out. -/
def callLine? (event : Event) : Option String :=
  (callText? event).map fun text => "\\n".intercalate (text.splitOn "\n")

/-- All that a finished command leaves behind. -/
structure Transcript where
  exit : Nat
  output : List String
  errors : List String
  calls : List String
  deriving DecidableEq, Repr

/-- A status as the shell sees it. -/
def exitCode (status : Int32) : Nat :=
  (status.toInt % 256).toNat

def transcript {s : Type} (verbosity : Verbosity) (o : Outcome Event s CommandError Int32) :
    Transcript :=
  let (exit, report) := match o.result with
    | .ok status => (exitCode status, [])
    | .error e => (1, e.report)
  { exit
    output := o.events.filterMap outputLine?
    errors := o.events.flatMap (errorLines verbosity) ++ report
    calls := o.events.filterMap callLine? }

end EmbeddedC.CommandLine
