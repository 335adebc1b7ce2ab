import DocQuery.Bag.Reader
import DocQuery.Bag.Writer
import DocQuery.Json.Writer
import DocQuery.Settings.Basic
import DocQuery.Toml.Reader
import DocQuery.Toml.Writer
/-!
# Settings as TOML and as JSON

In TOML a setting that is unset has no line; in JSON it is null. Reading skips keys that are no
settings, but they have to follow the grammar.
-/
namespace DocQuery

def wordOfInt? (i : Int) : Option UInt64 :=
  if 0 ≤ i && i ≤ 18446744073709551615 then some (UInt64.ofNat i.toNat) else none

namespace Settings

def names : List String :=
  ["connection_string", "database_name", "collection_name", "default_page_size", "log_dir",
    "log_level"]

/-- The text of a key that may be missing and has to be a text. -/
def textOf? (entries : Toml.Entries) (key : String) : Option (Option String) :=
  match Toml.get? entries key with
  | none => some none
  | some (.string s) => some (some s)
  | some _ => none

def wordOf? (entries : Toml.Entries) (key : String) : Option (Option UInt64) :=
  match Toml.get? entries key with
  | none => some none
  | some (.integer i) => (wordOfInt? i).map some
  | some _ => none

def ofEntries? (entries : Toml.Entries) : Option Settings := do
  let connectionString ← textOf? entries "connection_string"
  let databaseName ← textOf? entries "database_name"
  let collectionName ← textOf? entries "collection_name"
  let defaultPageSize ← wordOf? entries "default_page_size"
  let logDir ← textOf? entries "log_dir"
  let logLevel ← textOf? entries "log_level"
  some { connectionString, databaseName, collectionName, defaultPageSize, logDir, logLevel }

def ofToml (s : String) : Except Failure Settings :=
  match (Toml.read? s).bind ofEntries? with
  | some settings => .ok settings
  | none => .error (.settings .unreadable)

def stringValue (s : Option String) : Option (List Char) :=
  s.map fun s => Toml.stringText s.toList

def toToml (s : Settings) : String :=
  String.ofList
    (Toml.pairLine "connection_string" (stringValue s.connectionString) ++
      Toml.pairLine "database_name" (stringValue s.databaseName) ++
      Toml.pairLine "collection_name" (stringValue s.collectionName) ++
      Toml.pairLine "default_page_size"
        (s.defaultPageSize.map fun n => Decimal.digits n.toNat) ++
      Toml.pairLine "log_dir" (stringValue s.logDir) ++
      Toml.pairLine "log_level" (stringValue s.logLevel))

def toJson (s : Settings) : Json :=
  .object
    [("connection_string", optionJson .string s.connectionString),
      ("database_name", optionJson .string s.databaseName),
      ("collection_name", optionJson .string s.collectionName),
      ("default_page_size", optionJson (fun n => .int (n.toNat : Int)) s.defaultPageSize),
      ("log_dir", optionJson .string s.logDir),
      ("log_level", optionJson .string s.logLevel)]

def ofJson? : Nat → Json → Option Settings
  | 0, _ => none
  | _ + 1, j => do
    match ← j.bag? names with
    | [connectionString, databaseName, collectionName, defaultPageSize, logDir, logLevel] =>
      let connectionString ← Json.nullable Json.string? connectionString
      let databaseName ← Json.nullable Json.string? databaseName
      let collectionName ← Json.nullable Json.string? collectionName
      let defaultPageSize ←
        Json.nullable (fun j => j.int?.bind wordOfInt?) defaultPageSize
      let logDir ← Json.nullable Json.string? logDir
      let logLevel ← Json.nullable Json.string? logLevel
      some { connectionString, databaseName, collectionName, defaultPageSize, logDir, logLevel }
    | _ => none

end Settings
end DocQuery
