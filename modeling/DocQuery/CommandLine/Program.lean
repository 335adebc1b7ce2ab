import DocQuery.CommandLine.Arguments
import DocQuery.CommandLine.Command
import DocQuery.Journal.Routing
import DocQuery.Settings.Load
/-!
# The program

One run from the arguments to the exit code: settings are loaded, logging is set up, the input is
read and the command is run. Each stage that fails ends the run, except for logging.
-/
namespace DocQuery

/-- A line of the error output. -/
inductive Notice where
  | usage
  | loggingNotConfigured
  | inputUnreadable
  | failed (e : Failure)
  deriving DecidableEq, Repr

def Notice.text : Notice → String
  | .usage => "usage"
  | .loggingNotConfigured => "warning: logging not configured"
  | .inputUnreadable => "error: (input)"
  | .failed e => "error: " ++ e.message

/-- How a run ends. -/
structure Outcome where
  code : UInt32
  output : Sink
  notices : List Notice
  files : Files

namespace Program

def versionText : String := "docfilter 0.1.0"

/-- The log that is wanted, if one is. A directory in the environment means that the environment
decides everything; else the level among the arguments counts more than the settings. -/
def logRequest? (w : World) (s : Settings) (o : GlobalOptions) : Option LogRequest :=
  let level := o.logLevel.or s.logLevel
  if (w.env.get? "DOCFILTER_LOG_DIR").isSome then some (Logging.requestOf w.env)
  else if s.logDir.isSome || level.isSome then
    some { directory := s.logDir, threshold := .ofText level }
  else none

/-- Sets the log up if one is wanted. That this fails is only told. -/
def startLogging (w : World) : Option LogRequest → List Notice × Logging × World
  | none => ([], {}, w)
  | some r =>
    match Logging.configure {} w r with
    | (true, logging, w) => ([], logging, w)
    | (false, logging, w) => ([.loggingNotConfigured], logging, w)

/-- The text of the file with the given name, or of the standard input. -/
def input? (w : World) (stdin : List UInt8) (file : String) : Option String :=
  if file = standardInput then ofUtf8? stdin
  else (w.read file).toOption

/-- The command that is asked for, with its input. -/
def command? (w : World) (stdin : List UInt8) (s : Settings) : Request → Option Command
  | .compile file => (input? w stdin file).map .compile
  | .sort specs => some (.sort specs)
  | .update file => (input? w stdin file).map .update
  | .showSettings => some (.showSettings s)

/-- Does what is asked for under settings that are loaded. -/
def perform (w : World) (stamp : String) (stdin : List UInt8) (k : Sink) (s : Settings)
    (o : GlobalOptions) (r : Request) : Outcome :=
  let (notices, logging, w) := startLogging w (logRequest? w s o)
  match command? w stdin s r with
  | none => ⟨1, k, notices ++ [.inputUnreadable], w.files⟩
  | some c =>
    let done := c.run o.mode k
    let files := logging.writeAll stamp w.files done.records
    match done.value with
    | (.ok (), k) => ⟨0, k, notices, files⟩
    | (.error e, k) => ⟨1, k, notices ++ [.failed e], files⟩

/-- A run. The warnings about settings come before there is a log that could take them. -/
def run (w : World) (stamp : String) (stdin : List UInt8) (k : Sink) (args : List String) :
    Outcome :=
  match Invocation.ofArguments? args with
  | none => ⟨2, k, [.usage], w.files⟩
  | some .version => ⟨0, (k.write (utf8 (versionText ++ "\n"))).2, [], w.files⟩
  | some (.request o r) =>
    match Settings.load w o.config with
    | .ok (s, _) => perform w stamp stdin k s o r
    | .error e => ⟨1, k, [.failed e], w.files⟩

end Program
end DocQuery
