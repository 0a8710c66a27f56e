import EmbeddedC.Error

/-!
# Command line errors

What a command can report beside the failures of contexts and toolchains.
-/

namespace EmbeddedC.CommandLine

inductive CommandError where
  | bind (error : BindError)
  | badDefine (raw : String)
  | missingSymbol (name : String)
  | outputName (path : Path)
  deriving DecidableEq, Repr

namespace CommandError

def message : CommandError → String
  | bind error => error.message
  | badDefine raw => "Invalid macro definition " ++ Text.quoted raw
  | missingSymbol name => "`" ++ name ++ "` is not defined by the compiled program"
  | outputName path => "Cannot derive an output name from " ++ path.display

def code : CommandError → String
  | bind error => error.code
  | badDefine _ => "tccbind::cli::bad_define"
  | missingSymbol _ => "tccbind::cli::missing_symbol"
  | outputName _ => "tccbind::cli::output_name"

def help? : CommandError → Option String
  | bind error => error.help?
  | badDefine _ => some "Use -D NAME or -D NAME=VALUE"
  | missingSymbol _ => none
  | outputName _ => some "Pass the output path with -o"

end CommandError

end EmbeddedC.CommandLine
