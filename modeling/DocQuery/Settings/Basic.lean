import DocQuery.Failure
import DocQuery.Text.Blank
import DocQuery.Text.Bytes
/-!
# Settings

The settings of a client, each of which may be unset, and the ways in which several sources make
one. A directory that is read is told by a text; the system names it by bytes, which may be no text.
-/
namespace DocQuery

/-- The name of a directory as the system has it. -/
structure DirectoryName where
  bytes : List UInt8
  deriving DecidableEq, Repr

namespace DirectoryName

def ofText (s : String) : DirectoryName :=
  ⟨utf8 s⟩

/-- The name as a text, if it is one. -/
def text? (d : DirectoryName) : Option String :=
  ofUtf8? d.bytes

theorem text?_eq_some_iff {d : DirectoryName} {s : String} : d.text? = some s ↔ d = ofText s := by
  obtain ⟨bytes⟩ := d
  rw [text?, ofUtf8?_eq_some_iff, ofText, mk.injEq]

theorem mapM_text?_eq_some_iff {d : Option DirectoryName} {s : Option String} :
    d.mapM text? = some s ↔ d = s.map ofText := by
  cases d <;> cases s <;> simp [text?_eq_some_iff]

end DirectoryName

structure Settings (Directory : Type := String) where
  connectionString : Option String := none
  databaseName : Option String := none
  collectionName : Option String := none
  defaultPageSize : Option UInt64 := none
  logDir : Option Directory := none
  logLevel : Option String := none
  deriving DecidableEq, Repr

/-- Where a driver connects. -/
structure Connection where
  connectionString : String
  databaseName : String
  collectionName : String
  deriving DecidableEq, Repr

/-- A setting without the blanks around it; it may not be blank. -/
def required (name : String) (value : Option String) : Except Failure String :=
  match (value.map Text.trim).filter (fun v => !v.isEmpty) with
  | some v => .ok v
  | none => .error (.settings (.notSet name))

namespace Settings

/-- The settings of the connection; the first one that is missing is reported. -/
def connection (s : Settings) : Except Failure Connection := do
  let connectionString ← required "connection_string" s.connectionString
  let databaseName ← required "database_name" s.databaseName
  let collectionName ← required "collection_name" s.collectionName
  .ok { connectionString, databaseName, collectionName }

/-- Takes what is unset from `other`. -/
def mergeMissing (s other : Settings) : Settings where
  connectionString := s.connectionString.or other.connectionString
  databaseName := s.databaseName.or other.databaseName
  collectionName := s.collectionName.or other.collectionName
  defaultPageSize := s.defaultPageSize.or other.defaultPageSize
  logDir := s.logDir.or other.logDir
  logLevel := s.logLevel.or other.logLevel

/-- The settings with another directory. -/
def relocate {α β : Type} (s : Settings α) (logDir : Option β) : Settings β :=
  { s with logDir }

/-- The settings with the directory as the system names it. -/
def named (s : Settings) : Settings DirectoryName :=
  s.relocate (s.logDir.map .ofText)

instance : Coe Settings (Settings DirectoryName) :=
  ⟨named⟩

/-- The settings with the directory told by a text, if its name is one. -/
def told? (s : Settings DirectoryName) : Option Settings :=
  (s.logDir.mapM DirectoryName.text?).map s.relocate

theorem told?_eq_some_iff {s : Settings DirectoryName} {t : Settings} :
    s.told? = some t ↔ s = t.named := by
  obtain ⟨connectionString, databaseName, collectionName, defaultPageSize, directory, logLevel⟩ := s
  rw [told?, Option.map_eq_some_iff]
  constructor
  · rintro ⟨text, read, rfl⟩
    rw [DirectoryName.mapM_text?_eq_some_iff] at read
    subst read
    rfl
  · intro same
    cases same
    exact ⟨t.logDir, DirectoryName.mapM_text?_eq_some_iff.mpr rfl, rfl⟩

theorem told?_named (s : Settings) : s.named.told? = some s :=
  told?_eq_some_iff.mpr rfl

/-- Settings are told by texts unless the bytes of their directory are those of no text. -/
theorem told?_eq_none_iff {s : Settings DirectoryName} :
    s.told? = none ↔ ∃ d, s.logDir = some d ∧ ∀ t : String, d.bytes ≠ utf8 t := by
  rw [told?, Option.map_eq_none_iff]
  cases s.logDir with
  | none => simp
  | some d => simp [DirectoryName.text?, Option.eq_none_iff_forall_ne_some, ofUtf8?_eq_some_iff]

end Settings
end DocQuery
