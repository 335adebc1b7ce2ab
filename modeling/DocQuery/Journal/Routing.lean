import DocQuery.Journal.Threshold
import DocQuery.World
/-!
# Log files

Records go to `docfilter.log`, the developer's trace to `trace.log` if that is on and nowhere if it
is not. Only the first set-up decides where records go. A later one fails, but before it does it
opens its files and moves the ceiling, the level above which no record is looked at.

A file is set aside for a new one when it has grown beyond 10 MiB, and the older of those that were
set aside are removed. Neither is modelled: a file takes all that is written, and what is said about
files is meant of those that stay below that size.
-/
namespace DocQuery

/-- What is asked of a log. -/
structure LogRequest where
  /-- The directory of the files, as it is told; without one it is the working directory. -/
  directory : Option String := none
  threshold : Threshold
  traced : Bool := false
  deriving DecidableEq, Repr

/-- The level up to which one of the files may take a record. -/
def LogRequest.ceiling (r : LogRequest) : Threshold :=
  r.threshold.max (if r.traced then .upTo .trace else .off)

/-- Where records go. -/
structure Routes where
  mainFile : Path
  /-- The file of the trace, if that is on. -/
  traceFile : Option Path
  threshold : Threshold
  deriving DecidableEq, Repr

/-- The names between the double colons of a target, found from the left. -/
def targetNames : List Char → List (List Char)
  | [] => [[]]
  | ':' :: ':' :: rest => [] :: targetNames rest
  | c :: rest =>
    match targetNames rest with
    | [] => [[c]]
    | first :: others => (c :: first) :: others

/-- The trace and the targets below it. -/
def isTraceTarget (target : String) : Bool :=
  (targetNames traceTarget.toList).isPrefixOf (targetNames target.toList)

/-- The file that takes a record, if one does. -/
def Routes.file? (r : Routes) (rec : Record) : Option Path :=
  if isTraceTarget rec.target then r.traceFile
  else if r.threshold.admits rec.level then some r.mainFile
  else none

/-- The logging of a process. -/
structure Logging where
  routes : Option Routes := none
  ceiling : Threshold := .off
  deriving Repr

/-- A record as a line of a file. -/
def Record.line (stamp : String) (r : Record) : String :=
  stamp ++ "[" ++ r.level.name ++ "] " ++ r.target ++ " - " ++ r.message ++ "\n"

namespace Logging

def mainName : String := "docfilter.log"

def traceName : String := "trace.log"

/-- Opens the file of the given name in the directory. References to variables are replaced in what
the two together tell. -/
def openFile (w : World) (directory name : String) : Except Failure (Path × World) := do
  let (p, files) ← w.files.openAppend w.directory (w.env.expand (Path.join directory name))
  .ok (p, { w with files })

/-- Opens the files in a directory, the main one first. A file that was opened before a failure
stays. -/
def openFiles (w : World) (directory : String) (r : LogRequest) : Option Routes × World :=
  match openFile w directory mainName with
  | .error _ => (none, w)
  | .ok (mainFile, w) =>
    if r.traced then
      match openFile w directory traceName with
      | .error _ => (none, w)
      | .ok (traceFile, w) => (some ⟨mainFile, some traceFile, r.threshold⟩, w)
    else (some ⟨mainFile, none, r.threshold⟩, w)

/-- Makes the directory, named as it is told, and opens the files. -/
def openRoutes (w : World) (r : LogRequest) : Option Routes × World :=
  let directory := r.directory.getD (Path.text w.directory)
  match w.files.createDirectories w.directory directory with
  | .error _ => (none, w)
  | .ok files => openFiles { w with files } directory r

/-- Sets logging up; says whether that succeeded. -/
def configure (l : Logging) (w : World) (r : LogRequest) : Bool × Logging × World :=
  match openRoutes w r with
  | (none, w) => (false, l, w)
  | (some routes, w) =>
    if l.routes.isSome then (false, { l with ceiling := r.ceiling }, w)
    else (true, { routes := some routes, ceiling := r.ceiling }, w)

/-- Writes one record to the file that takes it. -/
def write (l : Logging) (stamp : String) (fs : Files) (r : Record) : Files :=
  if l.ceiling.admits r.level then
    match l.routes.bind (·.file? r) with
    | some p => fs.append p (r.line stamp)
    | none => fs
  else fs

def writeAll (l : Logging) (stamp : String) (fs : Files) (records : List Record) : Files :=
  records.foldl (l.write stamp) fs

/-- The words that switch the trace on, in any case of their letters. -/
def isYes (s : String) : Bool :=
  let s := Text.lower s
  s = "1" || s = "true" || s = "yes"

/-- The log that the environment asks for. -/
def requestOf (env : Environment) : LogRequest where
  directory := env.get? "DOCFILTER_LOG_DIR"
  threshold := .ofText (env.get? "DOCFILTER_LOG_LEVEL")
  traced := ((env.get? "DOCFILTER_DEV6").map isYes).getD false

end Logging
end DocQuery
