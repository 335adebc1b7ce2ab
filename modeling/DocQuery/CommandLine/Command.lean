import DocQuery.Bag.Tree
import DocQuery.CommandLine.Arguments
import DocQuery.CommandLine.Sink
import DocQuery.Dialect
import DocQuery.Settings.Format
import DocQuery.Sort.Spec
/-!
# Commands

What the program can be told to do with texts that are already read. A command first finds its whole
answer; only then is anything written, so a command that fails writes nothing. Settings with a
directory whose name is no text cannot be written, which the two modes of output tell in different
ways.
-/
namespace DocQuery

inductive OutputMode where
  | plain
  | json
  deriving DecidableEq, Repr

def GlobalOptions.mode (o : GlobalOptions) : OutputMode :=
  if o.json then .json else .plain

inductive Command where
  /-- Compile the filter that the JSON text describes. -/
  | compile (text : String)
  /-- Make a sort clause of specs, the first one deciding. -/
  | sort (specs : List String)
  /-- Compile the update that the JSON text describes. -/
  | update (text : String)
  | showSettings (settings : Settings DirectoryName)

/-- What a command finds. -/
inductive Answer where
  | filter (text : String)
  | sort (clause : Option Document)
  | update (u : CompiledUpdate)
  | settings (s : Settings)

namespace Answer

def documentJson (d : Document) : Json :=
  (Value.document d).relaxedJson

/-- What is printed for people, in the pieces in which it is written. -/
def plain : Answer → List String
  | .filter text => [text ++ "\n"]
  | .sort (some clause) => [(documentJson clause).text ++ "\n"]
  | .sort none => ["none\n"]
  | .update u => ["filter: " ++ u.filter ++ "\n", "update: " ++ (documentJson u.update).text ++ "\n"]
  | .settings s => [s.toToml]

def json : Answer → Json
  | .filter text => .object [("filter", .string text)]
  | .sort clause => .object [("sort", optionJson documentJson clause)]
  | .update u => .object [("filter", .string u.filter), ("update", documentJson u.update)]
  | .settings s => s.toJson

/-- The pieces of the output; JSON is one line. -/
def pieces (a : Answer) : OutputMode → List String
  | .plain => a.plain
  | .json => [a.json.text ++ "\n"]

/-- The complete output. -/
def text (a : Answer) (mode : OutputMode) : String :=
  String.join (a.pieces mode)

end Answer

/-- How it is told that settings cannot be written. -/
def OutputMode.unwritable : OutputMode → Failure
  | .plain => .settings .unwritable
  | .json => .json

namespace Command

/-- The answer, in the standard dialect. All specs are read before the clause is made. -/
def answer (mode : OutputMode) : Command → Logged (Except Failure Answer)
  | .compile text =>
    match Filter.ofText text with
    | .error e => pure (.error e)
    | .ok f => do
      let compiled ← Dialect.standard.compileFilter f
      pure (compiled.map .filter)
  | .sort specs =>
    match SortField.ofSpecs specs with
    | .error e => pure (.error e)
    | .ok fields => do
      let clause ← Dialect.standard.compileSort fields
      pure (.ok (.sort clause))
  | .update text =>
    match Update.ofText text with
    | .error e => pure (.error e)
    | .ok u => do
      let compiled ← Dialect.standard.compileUpdate u
      pure (compiled.map .update)
  | .showSettings s =>
    match s.told? with
    | some told => pure (.ok (.settings told))
    | none => pure (.error mode.unwritable)

/-- Runs the command and writes its answer. -/
def run (c : Command) (mode : OutputMode) (k : Sink) : Logged (Except Failure Unit × Sink) := do
  match ← c.answer mode with
  | .ok a => pure (k.writeAll (a.pieces mode))
  | .error e => pure (.error e, k)

end Command
end DocQuery
