import DocQuery.Calendar.Instant
import DocQuery.CommandLine.Program
import Std.Time.DateTime.Timestamp
/-!
# The executable

Looks at the files that a run may read or write, runs the program on them, and carries out what it
did to them.
-/
namespace DocQuery.Main

def names : List String :=
  ["HOME", "DOCFILTER_CONFIG", "DOCFILTER_CONNECTION_STRING", "DOCFILTER_DATABASE",
    "DOCFILTER_COLLECTION", "DOCFILTER_LOG_DIR", "DOCFILTER_LOG_LEVEL", "DOCFILTER_DEV6"]

def environment (names : List String) : IO Environment :=
  names.filterMapM fun name => do
    let value ← IO.getEnv name
    pure (value.map (name, ·))

/-- The home directory of the user in the list of accounts. -/
def accountHome : IO (Option String) := do
  try
    let status ← IO.FS.lines "/proc/self/status"
    let user := status.toList.findSome? fun line =>
      match line.splitOn "\t" with
      | "Uid:" :: user :: _ => some user
      | _ => none
    let accounts ← IO.FS.lines "/etc/passwd"
    pure (accounts.toList.findSome? fun line =>
      match line.splitOn ":" with
      | [_, _, owner, _, _, home, _] => if user = some owner then some home else none
      | _ => none)
  catch _ => pure none

/-- The text of the file at `p`, if it can be read and is one. -/
def textAt? (p : Path) : IO (Option String) := do
  try
    pure (ofUtf8? (← IO.FS.readBinFile p.text).toList)
  catch _ => pure none

/-- Adds what stands at `p`, if anything does. -/
def look (fs : Files) (p : Path) : IO Files := do
  let here ← IO.currentDir
  if ← (here / p.text).isDir then pure (fs.put p .directory)
  else if ← (here / p.text).pathExists then
    match ← textAt? p with
    | some text => pure (fs.put p (.file text))
    | none => pure { fs.put p (.file "") with unreadable := p :: fs.unreadable }
  else pure fs

/-- Adds what stands on the way that a text tells. -/
def lookAlong (w : World) (s : String) : IO World := do
  let above := (List.range w.directory.length).map fun n => w.directory.take (n + 1)
  pure { w with files := ← (above ++ Path.along w.directory s).foldlM look w.files }

/-- The files that a run may read. -/
def inputs (w : World) (args : List String) : List String :=
  match Invocation.ofArguments? args with
  | some (.request o r) => Settings.candidates w ++ o.config.toList ++ r.file?.toList
  | _ => []

/-- The directory of the log, as it is told. -/
def logDirectory? (w : World) (args : List String) : Option String :=
  match Invocation.ofArguments? args with
  | some (.request o _) =>
    match Settings.load w o.config with
    | .ok (s, _) =>
      (Program.logRequest? w s o).map fun r => r.directory.getD (Path.text w.directory)
    | .error _ => none
  | _ => none

/-- The files that a run may write if its log is in the given directory. -/
def outputs (w : World) (directory : String) : List String :=
  [directory, w.env.expand (Path.join directory Logging.mainName),
    w.env.expand (Path.join directory Logging.traceName)]

def readsStandardInput (args : List String) : Bool :=
  match Invocation.ofArguments? args with
  | some (.request _ r) => r.file? == some standardInput
  | _ => false

/-- The bytes of the standard input up to its end. -/
partial def readAll (stream : IO.FS.Stream) (done : ByteArray) : IO ByteArray := do
  let bytes ← stream.read 65536
  if bytes.isEmpty then pure done else readAll stream (done ++ bytes)

/-- Makes a directory, or appends what is new in a file. -/
def carryOut (before : Files) : Path × FileNode → IO Unit
  | (p, .directory) => do
    if (before.get? p).isNone then IO.FS.createDirAll p.text
  | (p, .file text) => do
    match before.get? p with
    | some (.file old) =>
      if old != text then append p (text.drop old.length).toString
    | _ => append p text
where
  append (p : Path) (text : String) : IO Unit :=
    IO.FS.withFile p.text .append fun file => file.putStr text

/-- The stamp at the front of a line of the log: date and time of day in UTC. -/
def stamp (ms : Int) : String :=
  let c := Instant.clock ms
  String.ofList
    ((Instant.secondsText c).map (fun x => if x = 'T' then ' ' else x) ++
      '.' :: Decimal.padded 3 c.milli ++ [' '])

end DocQuery.Main

open DocQuery DocQuery.Main in
def main (args : List String) : IO UInt32 := do
  let w : World :=
    { env := ← environment names
      directory := ((Path.names (toString (← IO.currentDir))).filter (!·.isEmpty))
      accountHome := ← accountHome }
  let w ← (inputs w args).foldlM lookAlong w
  let w ← match logDirectory? w args with
    | none => pure w
    | some directory => do
      let referred := (Environment.references directory.toList).map String.ofList
      let w := { w with env := w.env ++ (← environment referred) }
      (outputs w directory).foldlM lookAlong w
  let stdin ← if readsStandardInput args then readAll (← IO.getStdin) .empty else pure .empty
  let now ← Std.Time.Timestamp.now
  let outcome := Program.run w (stamp now.toMillisecondsSinceUnixEpoch.val) stdin.toList {} args
  outcome.files.nodes.forM (carryOut w.files)
  (← IO.getStdout).write ⟨outcome.output.taken.toArray⟩
  for notice in outcome.notices do
    IO.eprintln notice.text
  pure outcome.code
