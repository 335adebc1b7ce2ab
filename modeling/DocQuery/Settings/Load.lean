import DocQuery.Journal.Record
import DocQuery.Settings.Format
import DocQuery.World
/-!
# Loading settings

A file that was asked for comes first, then the file that the environment names, the one in the home
directory and the one in the working directory, each filling in what is still unset. A file of the
latter kind that cannot be used is passed over with a warning. In the end the environment sets the
connection.
-/
namespace DocQuery

namespace Settings

def ofFile (w : World) (s : String) : Except Failure Settings := do
  let text ← w.read s
  ofToml text

/-- The files that are looked for, in the order of their precedence. -/
def candidates (w : World) : List String :=
  (w.env.get? "DOCFILTER_CONFIG").toList ++
    (w.home.map fun home => Path.join (Path.join home ".config") "docfilter.toml").toList ++
    [Path.join (Path.text w.directory) "docfilter.toml"]

/-- A candidate that could not be used. -/
structure Ignored where
  path : String
  cause : Failure
  deriving DecidableEq, Repr

/-- Fills in from one candidate. -/
def fillFrom (w : World) (s : Settings) (p : String) : Settings × List Ignored :=
  if w.exist p then
    match ofFile w p with
    | .ok other => (s.mergeMissing other, [])
    | .error e => (s, [⟨p, e⟩])
  else (s, [])

def fillFromAll (w : World) (s : Settings) : List String → Settings × List Ignored
  | [] => (s, [])
  | p :: rest =>
    let (s, ignored) := fillFrom w s p
    let (s, more) := fillFromAll w s rest
    (s, ignored ++ more)

/-- The environment's settings of the connection, which come before all others. -/
def applyEnvironment (env : Environment) (s : Settings) : Settings :=
  { s with
    connectionString := (env.get? "DOCFILTER_CONNECTION_STRING").or s.connectionString
    databaseName := (env.get? "DOCFILTER_DATABASE").or s.databaseName
    collectionName := (env.get? "DOCFILTER_COLLECTION").or s.collectionName }

def load (w : World) (explicit : Option String) : Except Failure (Settings × List Ignored) := do
  let s ← match explicit with
    | some p => ofFile w p
    | none => .ok {}
  let (s, ignored) := fillFromAll w s (candidates w)
  .ok (applyEnvironment w.env s, ignored)

def loadTarget : String := "docfilter::config"

/-- The warning for a candidate that could not be used. -/
def Ignored.record (i : Ignored) : Record :=
  ⟨.warn, loadTarget, "ignoring config " ++ i.path ++ ": " ++ i.cause.message⟩

end Settings
end DocQuery
