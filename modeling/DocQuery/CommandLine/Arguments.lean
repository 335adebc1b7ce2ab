/-!
# Arguments

What the words of a command line ask for. Options of the program stand before the name of the
command, options of the command after it. A value follows its option, or is joined to it by an
equals sign; only a joined value may begin with a dash, save the dash alone. A file has to have a
name.
-/
namespace DocQuery

/-- The command and its options. -/
inductive Request where
  | compile (file : String)
  | sort (specs : List String)
  | update (file : String)
  | showSettings
  deriving DecidableEq, Repr

/-- The name of the file that is to be read. -/
def Request.file? : Request → Option String
  | .compile file => some file
  | .update file => some file
  | _ => none

/-- The options of the program. -/
structure GlobalOptions where
  config : Option String := none
  logLevel : Option String := none
  json : Bool := false
  deriving DecidableEq, Repr

inductive Invocation where
  | version
  | request (options : GlobalOptions) (r : Request)
  deriving DecidableEq, Repr

/-- The name of a file that means the input of the program. -/
def standardInput : String := "-"

/-- What one word of the command line is by its first characters. -/
inductive Argument where
  /-- `--name` or `--name=value`. -/
  | long (name : String) (value : Option String)
  /-- `-letters`. -/
  | short (letters : List Char)
  /-- `--`, after which there are no options. -/
  | escape
  | plain (s : String)
  deriving DecidableEq, Repr

def Argument.ofText (s : String) : Argument :=
  match s.toList with
  | ['-', '-'] => .escape
  | '-' :: '-' :: rest =>
    let name := String.ofList (rest.takeWhile (· != '='))
    match rest.dropWhile (· != '=') with
    | _ :: value => .long name (some (String.ofList value))
    | [] => .long name none
  | '-' :: c :: rest => .short (c :: rest)
  | _ => .plain s

namespace Invocation

def fileName? (s : String) : Option String :=
  if s.isEmpty then none else some s

/-- The file of a command that reads one, which may be given once. -/
def file? : List Argument → Option String
  | [] | [.escape] => some standardInput
  | [.long "file" (some v)] | [.long "file" none, .plain v]
  | [.long "file" (some v), .escape] | [.long "file" none, .plain v, .escape] => fileName? v
  | _ => none

/-- The specs of a sort command, in their order. -/
def specs? : List Argument → Option (List String)
  | [] | [.escape] => some []
  | .long "field" (some v) :: rest | .long "field" none :: .plain v :: rest =>
    (specs? rest).map (v :: ·)
  | _ => none

def showSettings? : List Argument → Option Request
  | [] | [.escape] => some .showSettings
  | _ => none

def request? (name : String) (rest : List Argument) : Option Request :=
  match name with
  | "compile" => (file? rest).map .compile
  | "sort" => (specs? rest).map .sort
  | "update" => (file? rest).map .update
  | "show-config" => showSettings? rest
  | _ => none

/-- Reads the options of the program up to the name of the command, each at most once. -/
def read? (o : GlobalOptions) : List Argument → Option Invocation
  | [] => none
  | .plain name :: rest => (request? name rest).map (.request o)
  | .long "version" none :: _ => some .version
  | .short ('V' :: _) :: _ => some .version
  | .long "json" none :: rest => if o.json then none else read? { o with json := true } rest
  | .long "config" (some v) :: rest | .long "config" none :: .plain v :: rest =>
    if o.config.isSome then none
    else (fileName? v).bind fun v => read? { o with config := some v } rest
  | .long "log-level" (some v) :: rest | .long "log-level" none :: .plain v :: rest =>
    if o.logLevel.isSome then none else read? { o with logLevel := some v } rest
  | _ => none

/-- What the words ask for, if they are in order. -/
def ofArguments? (args : List String) : Option Invocation :=
  read? {} (args.map Argument.ofText)

end Invocation
end DocQuery
