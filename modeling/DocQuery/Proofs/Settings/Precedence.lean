import DocQuery.Proofs.Files
import DocQuery.Proofs.Settings.Document
import DocQuery.Settings.Load
/-!
# Which source a setting comes from

Every source of settings is a file. What it sets stands under the keys of its table
(`Settings.SetBy`); a file that is not there or cannot be used sets nothing. Filling in one source
after the other leaves each setting at the first source that sets it, and every candidate that is
there and cannot be used is reported once. Only the file that was asked for can make loading fail
(`Settings.load_takes_first_set`).
-/
namespace DocQuery

theorem Environment.get?_eq_lookup (env : Environment) (name : String) :
    env.get? name = env.lookup name :=
  (lookup_eq_find? env name).symm

namespace Settings

/-! ## Files that may be used -/

/-- The text `p` tells a file that can be read and holds the text. -/
def Holds (w : World) (p text : String) : Prop :=
  ∃ place, w.files.locate? w.directory p = some place ∧ place ∉ w.files.unreadable ∧
    w.files.get? place = some (.file text)

/-- The file sets these settings. -/
def Gives (w : World) (p : String) (s : Settings) : Prop :=
  ∃ text table, Holds w p text ∧ Toml.read? text = some table ∧ SetBy table s

/-- Why a file cannot be used: it cannot be read, or its text is no document, or one in which a
setting has a value of another kind. -/
inductive Unusable (w : World) (p : String) : Failure → Prop where
  | io (unread : ∀ text, ¬ Holds w p text) : Unusable w p .io
  | noDocument {text : String} (holds : Holds w p text) (unread : Toml.read? text = none) :
    Unusable w p (.settings .unreadable)
  | unfit {text : String} {table : Toml.Entries} (holds : Holds w p text)
    (read : Toml.read? text = some table) (unset : ∀ s, ¬ SetBy table s) :
    Unusable w p (.settings .unreadable)

/-- What a source of settings adds: what it sets, or nothing if it cannot be used. -/
inductive Contributes (w : World) (p : String) : Settings → Prop where
  | given {s : Settings} (gives : Gives w p s) : Contributes w p s
  | nothing {e : Failure} (unusable : Unusable w p e) : Contributes w p {}

/-- What is reported of a candidate: nothing if it is not there or can be used, else why it
cannot. -/
inductive Reported (w : World) (p : String) : List Ignored → Prop where
  | missing (nowhere : w.files.locate? w.directory p = none) : Reported w p []
  | used {s : Settings} (gives : Gives w p s) : Reported w p []
  | ignored {place : Path} {e : Failure} (there : w.files.locate? w.directory p = some place)
    (unusable : Unusable w p e) : Reported w p [⟨p, e⟩]

/-- Each field comes from the first of the given settings that has it set; the environment sets the
connection before all of them. -/
structure Precedence (env : Environment) (own : List Settings) (s : Settings) : Prop where
  connectionString : s.connectionString =
    (env.lookup "DOCFILTER_CONNECTION_STRING").or (own.findSome? (·.connectionString))
  databaseName : s.databaseName =
    (env.lookup "DOCFILTER_DATABASE").or (own.findSome? (·.databaseName))
  collectionName : s.collectionName =
    (env.lookup "DOCFILTER_COLLECTION").or (own.findSome? (·.collectionName))
  defaultPageSize : s.defaultPageSize = own.findSome? (·.defaultPageSize)
  logDir : s.logDir = own.findSome? (·.logDir)
  logLevel : s.logLevel = own.findSome? (·.logLevel)

/-- Each field comes from the first of the sources that sets it. -/
def TakenFrom (w : World) (sources : List String) (s : Settings) : Prop :=
  ∃ own, List.Forall₂ (Contributes w) sources own ∧ Precedence w.env own s

/-- Two texts tell the same place. -/
def SamePlace (w : World) (p q : String) : Prop :=
  w.files.locate? w.directory p = w.files.locate? w.directory q

/-- A text tells a place name by name, from the root or from the working directory, through
directories only. -/
structure Tells (w : World) (p : String) (place : Path) : Prop where
  told : place ≠ [] ∧ p = "/" ++ "/".intercalate place ∨
    ∃ below, below ≠ [] ∧ place = w.directory ++ below ∧ p = "/".intercalate below
  proper : ∀ name ∈ place, name ≠ "" ∧ name ≠ "." ∧ name ≠ ".." ∧ '/' ∉ name.toList
  above : ∀ front back, place = front ++ back → back ≠ [] → w.files.get? front = some .directory
  short : p.utf8ByteSize < 4096 ∧ '\x00' ∉ p.toList

/-- The text for a name in the directory that a text tells. -/
def under (directory name : String) : String :=
  if directory.toList.getLast? = some '/' then directory ++ name else directory ++ "/" ++ name

section

variable (w : World) {p q : String} {s : Settings}

theorem holds_iff {text : String} :
    Holds w p text ↔ (w.files.locate? w.directory p).bind w.files.text? = some text := by
  simp only [Option.bind_eq_some_iff, Files.text?_eq_some_iff, Holds]

theorem read_eq_ok_iff {text : String} : w.read p = .ok text ↔ Holds w p text := by
  rw [holds_iff, World.read, Files.read]
  split
  next found => simp [found]
  next none => simp [none]

theorem read_eq_error_iff {e : Failure} :
    w.read p = .error e ↔ e = .io ∧ ∀ text, ¬ Holds w p text := by
  simp only [holds_iff, World.read, Files.read]
  split
  next found => simp [found]
  next none => simp [none, eq_comm]

theorem ofFile_eq_ok_iff : ofFile w p = .ok s ↔ Gives w p s := by
  simp only [ofFile, bind_eq_ok_iff, read_eq_ok_iff, ofToml_eq_ok_iff]
  constructor
  · rintro ⟨text, holds, table, read, sets⟩
    exact ⟨text, table, holds, read, sets⟩
  · rintro ⟨text, table, holds, read, sets⟩
    exact ⟨text, holds, table, read, sets⟩

theorem ofFile_eq_error_iff {e : Failure} : ofFile w p = .error e ↔ Unusable w p e := by
  simp only [ofFile, bind_eq_error_iff, read_eq_ok_iff, read_eq_error_iff, ofToml_eq_error_iff]
  constructor
  · rintro (⟨rfl, unread⟩ | ⟨text, holds, rfl, unset⟩)
    · exact .io unread
    · cases read : Toml.read? text with
      | none => exact .noDocument holds read
      | some table => exact .unfit holds read (unset table read)
  · rintro (unread | ⟨holds, unread⟩ | ⟨holds, read, unset⟩)
    · exact Or.inl ⟨rfl, unread⟩
    · exact Or.inr ⟨_, holds, rfl, fun table read => by rw [unread] at read; cases read⟩
    · refine Or.inr ⟨_, holds, rfl, fun table found => ?_⟩
      cases read.symm.trans found
      exact unset

/-- Files are told apart by their places alone. -/
theorem ofFile_of_samePlace (same : SamePlace w p q) : ofFile w p = ofFile w q := by
  unfold ofFile World.read Files.read
  rw [same]

/-- What a file contributes, as a value. -/
def contribution (p : String) : Settings :=
  match ofFile w p with
  | .ok own => own
  | .error _ => {}

theorem contributes_iff : Contributes w p s ↔ contribution w p = s := by
  unfold contribution
  constructor
  · rintro (gives | unusable)
    · rw [(ofFile_eq_ok_iff w).mpr gives]
    · rw [(ofFile_eq_error_iff w).mpr unusable]
  · rintro rfl
    cases read : ofFile w p with
    | ok own => exact .given ((ofFile_eq_ok_iff w).mp read)
    | error e => exact .nothing ((ofFile_eq_error_iff w).mp read)

theorem takenFrom_iff {sources : List String} :
    TakenFrom w sources s ↔ Precedence w.env (sources.map (contribution w)) s := by
  have each : Contributes w = fun p own => contribution w p = own := by
    funext p own
    exact propext (contributes_iff w)
  have all (own : List Settings) :
      List.Forall₂ (Contributes w) sources own ↔ sources.map (contribution w) = own := by
    rw [each, ← List.forall₂_map_left_iff (R := Eq), List.forall₂_eq_eq_eq]
  simp [TakenFrom, all]

/-! ## Filling in from all files -/

theorem mergeMissing_empty (s : Settings) : s.mergeMissing {} = s := by
  simp [mergeMissing]

/-- What one candidate adds and what is reported of it does not depend on what is set already. -/
theorem fillFrom_spec (p : String) :
    ∃ report, Reported w p report ∧
      ∀ s, fillFrom w s p = (s.mergeMissing (contribution w p), report) := by
  cases located : w.files.locate? w.directory p with
  | none =>
    have unread : ofFile w p = .error .io := by
      simp only [ofFile, World.read, Files.read, located]
      rfl
    refine ⟨[], .missing located, fun s => ?_⟩
    simp [fillFrom, World.exist, contribution, located, unread, mergeMissing_empty]
  | some place =>
    cases read : ofFile w p with
    | ok own =>
      refine ⟨[], .used ((ofFile_eq_ok_iff w).mp read), fun s => ?_⟩
      simp [fillFrom, World.exist, contribution, located, read]
    | error e =>
      refine ⟨[⟨p, e⟩], .ignored located ((ofFile_eq_error_iff w).mp read), fun s => ?_⟩
      simp [fillFrom, World.exist, contribution, located, read, mergeMissing_empty]

theorem fillFromAll_spec (paths : List String) :
    ∃ reports, List.Forall₂ (Reported w) paths reports ∧
      ∀ s, fillFromAll w s paths =
        ((paths.map (contribution w)).foldl mergeMissing s, reports.flatten) := by
  induction paths with
  | nil => exact ⟨[], .nil, fun s => rfl⟩
  | cons p rest ih =>
    obtain ⟨report, reported, filled⟩ := fillFrom_spec w p
    obtain ⟨reports, others, filledRest⟩ := ih
    refine ⟨report :: reports, .cons reported others, fun s => ?_⟩
    rw [fillFromAll, filled]
    dsimp only
    rw [filledRest, List.map_cons, List.foldl_cons, List.flatten_cons]

end

/-- A field that merging fills in where it is unset takes the first value that is set. -/
theorem foldl_mergeMissing {α : Type} {field : Settings → Option α}
    (fills : ∀ s t : Settings, field (s.mergeMissing t) = (field s).or (field t)) (s : Settings)
    (own : List Settings) :
    field (own.foldl mergeMissing s) = (field s).or (own.findSome? field) := by
  induction own generalizing s with
  | nil => exact (Option.or_none).symm
  | cons t rest ih =>
    rw [List.foldl_cons, ih, fills, Option.or_assoc, List.findSome?_cons]
    cases field t <;> rfl

/-- What is filled in from nothing, or from one that comes first. -/
theorem foldl_mergeMissing_start {α : Type} (field : Settings → Option α)
    (fills : ∀ s t : Settings, field (s.mergeMissing t) = (field s).or (field t))
    (unset : field {} = none) (start : Option Settings) (own : List Settings) :
    field (own.foldl mergeMissing (start.getD {})) = (start.toList ++ own).findSome? field := by
  rw [foldl_mergeMissing fills, List.findSome?_append]
  cases start with
  | none => simp [unset]
  | some s => simp

/-- The environment is the last to set its fields, so that it comes before all files. -/
theorem precedence_applyEnvironment (env : Environment) (start : Option Settings)
    (own : List Settings) :
    Precedence env (start.toList ++ own)
      (applyEnvironment env (own.foldl mergeMissing (start.getD {}))) := by
  constructor
  · rw [← foldl_mergeMissing_start (·.connectionString) (fun _ _ => rfl) rfl,
      ← env.get?_eq_lookup]
    rfl
  · rw [← foldl_mergeMissing_start (·.databaseName) (fun _ _ => rfl) rfl, ← env.get?_eq_lookup]
    rfl
  · rw [← foldl_mergeMissing_start (·.collectionName) (fun _ _ => rfl) rfl,
      ← env.get?_eq_lookup]
    rfl
  · exact foldl_mergeMissing_start (·.defaultPageSize) (fun _ _ => rfl) rfl start own
  · exact foldl_mergeMissing_start (·.logDir) (fun _ _ => rfl) rfl start own
  · exact foldl_mergeMissing_start (·.logLevel) (fun _ _ => rfl) rfl start own

/-- Fields that no source sets are unset, so that only what comes first in each field counts. -/
theorem Precedence.congr {env : Environment} {own other : List Settings} {s : Settings}
    (same : ∀ {α : Type} (field : Settings → Option α),
      own.findSome? field = other.findSome? field)
    (h : Precedence env own s) : Precedence env other s where
  connectionString := by rw [h.connectionString, same]
  databaseName := by rw [h.databaseName, same]
  collectionName := by rw [h.collectionName, same]
  defaultPageSize := by rw [h.defaultPageSize, same]
  logDir := by rw [h.logDir, same]
  logLevel := by rw [h.logLevel, same]

/-- What occurred before does not set anything when it occurs again. -/
theorem TakenFrom.of_repeated {w : World} {p q : String} {s : Settings}
    {front middle back : List String} (same : SamePlace w p q)
    (h : TakenFrom w (front ++ p :: middle ++ q :: back) s) :
    TakenFrom w (front ++ p :: middle ++ back) s := by
  have again : contribution w p = contribution w q := by
    rw [contribution, contribution, ofFile_of_samePlace w same]
  rw [takenFrom_iff] at h ⊢
  refine h.congr fun field => ?_
  simp only [List.map_append, List.map_cons, List.findSome?_append, List.findSome?_cons, again]
  cases field (contribution w q) with
  | none => rfl
  | some a => simp

/-! ## The sources -/

theorem isTold_of_short {p : String} (filled : p ≠ "")
    (short : p.utf8ByteSize < 4096 ∧ '\x00' ∉ p.toList) : Path.isTold p = true := by
  have noZero : ∀ c ∈ p.toList, ¬ c.toNat = 0 := by
    intro c member zero
    have null : c = '\x00' := Char.toNat_inj.mp zero
    exact short.2 (null ▸ member)
  simpa [Path.isTold, filled, short.1] using noZero

/-- Texts that tell files name by name are those that are read. -/
theorem holds_of_tells {w : World} {p text : String} {place : Path} (tells : Tells w p place)
    (readable : place ∉ w.files.unreadable) (file : w.files.get? place = some (.file text)) :
    Holds w p text := by
  have down {names : List String} (part : ∀ name ∈ names, name ∈ place) :
      ∀ name ∈ names, Path.LeadsDown name := fun name member => by
    obtain ⟨filled, noDot, noParent, noSlash⟩ := tells.proper name (part name member)
    exact ⟨⟨filled, noDot, noParent⟩, noSlash⟩
  have there : w.files.exist place = true := by rw [Files.exist, file]; rfl
  refine ⟨place, ?_, readable, file⟩
  rcases tells.told with ⟨filled, rfl⟩ | ⟨below, filled, rfl, rfl⟩
  · have told := isTold_of_short (by simp) tells.short
    exact Files.locate?_from_root filled (down fun _ member => member) tells.above there told
  · have part : ∀ name ∈ below, name ∈ w.directory ++ below := fun name member =>
      List.mem_append_right _ member
    have names := Path.names_intercalate filled fun name member => (down part name member).noSlash
    have some_text : "/".intercalate below ≠ "" := by
      intro empty
      rw [empty] at names
      exact (down part "" (names ▸ List.mem_singleton_self "")).moves.1 rfl
    refine Files.locate?_from_base filled (down part) (fun front back split rest => ?_) there
      (isTold_of_short some_text tells.short)
    exact tells.above (w.directory ++ front) back (by rw [split, List.append_assoc]) rest

theorem join_eq_under {directory name : String} (filled : directory ≠ "")
    (noSlash : name.toList.head? ≠ some '/') : Path.join directory name = under directory name := by
  rw [Path.join, if_neg (by simp [filled, noSlash]), under]

theorem under_ne_empty {directory name : String} (filled : name ≠ "") :
    under directory name ≠ "" := by
  unfold under
  split <;> simp [filled]

/-- The home directory that is not the empty text: of the environment, else of the account. -/
theorem home_eq (w : World) :
    w.home = ((w.env.lookup "HOME").filter (· ≠ "")).or (w.accountHome.filter (· ≠ "")) := by
  have filled : (fun s : String => !s.isEmpty) = fun s => decide (s ≠ "") := by
    funext s
    by_cases empty : s = "" <;> simp [empty]
  rw [World.home, w.env.get?_eq_lookup, filled]

theorem ne_empty_of_home {w : World} {home : String} (h : w.home = some home) : home ≠ "" := by
  rw [home_eq, Option.or_eq_some_iff] at h
  rcases h with found | ⟨_, found⟩
  all_goals simpa using (Option.filter_eq_some_iff.mp found).2

theorem candidates_eq (w : World) :
    candidates w = (w.env.lookup "DOCFILTER_CONFIG").toList ++
      (w.home.map fun home => under (under home ".config") "docfilter.toml").toList ++
      [under ("/" ++ "/".intercalate w.directory) "docfilter.toml"] := by
  have noSlash : "docfilter.toml".toList.head? ≠ some '/' := by decide
  have atHome : (w.home.map fun home => Path.join (Path.join home ".config") "docfilter.toml") =
      w.home.map fun home => under (under home ".config") "docfilter.toml" := by
    refine Option.map_congr fun home found => ?_
    rw [join_eq_under (ne_empty_of_home found) (by decide),
      join_eq_under (under_ne_empty (by decide)) noSlash]
  rw [candidates, w.env.get?_eq_lookup, atHome, Path.text, join_eq_under (by simp) noSlash]

/-- The settings that are loaded if the file that was asked for can be used. -/
theorem load_of_usable {w : World} {explicit : Option String}
    (usable : ∀ p e, explicit = some p → ofFile w p ≠ .error e) :
    ∃ s reports, load w explicit = .ok (s, reports.flatten) ∧
      List.Forall₂ (Reported w) (candidates w) reports ∧
      TakenFrom w (explicit.toList ++ candidates w) s := by
  obtain ⟨reports, reported, filled⟩ := fillFromAll_spec w (candidates w)
  have loaded : load w explicit = .ok
      (applyEnvironment w.env (((candidates w).map (contribution w)).foldl mergeMissing
        ((explicit.map (contribution w)).getD {})), reports.flatten) := by
    cases explicit with
    | none =>
      simp only [load, filled]
      rfl
    | some p =>
      cases own : ofFile w p with
      | error e => exact absurd own (usable p e rfl)
      | ok s =>
        simp only [load, own, contribution, filled, Option.map_some, Option.getD_some]
        rfl
  refine ⟨_, reports, loaded, reported, ?_⟩
  rw [takenFrom_iff, List.map_append, ← Option.toList_map]
  exact precedence_applyEnvironment w.env (explicit.map (contribution w)) _

/-- Loading fails if a file was asked for that cannot be used, whatever other files there are, and
only then. Else each field comes from the first source that sets it: the file that was asked for,
the one that the environment names, the one at home, the one in the working directory. The
candidates that are there and cannot be used are reported one by one in their order, each in one
warning. A source that occurs again sets nothing. A file is told name by name, and its lines set the
keys. -/
theorem load_takes_first_set (w : World) (explicit : Option String) :
    let home := ((w.env.lookup "HOME").filter (· ≠ "")).or (w.accountHome.filter (· ≠ ""))
    let others := (w.env.lookup "DOCFILTER_CONFIG").toList ++
      (home.map fun home => under (under home ".config") "docfilter.toml").toList ++
      [under ("/" ++ "/".intercalate w.directory) "docfilter.toml"]
    ((∃ p e, explicit = some p ∧ Unusable w p e ∧ load w explicit = .error e) ∨
      (∀ p e, explicit = some p → ¬ Unusable w p e) ∧
        ∃ s reports, load w explicit = .ok (s, reports.flatten) ∧
          List.Forall₂ (Reported w) others reports ∧
          TakenFrom w (explicit.toList ++ others) s ∧
          ∀ front p middle q back, SamePlace w p q →
            explicit.toList ++ others = front ++ p :: middle ++ q :: back →
            TakenFrom w (front ++ p :: middle ++ back) s) ∧
    (∀ p e, (Ignored.mk p e).record =
      ⟨.warn, "docfilter::config", "ignoring config " ++ p ++ ": " ++ e.message⟩) ∧
    (∀ p place text, Tells w p place → place ∉ w.files.unreadable →
      w.files.get? place = some (.file text) → Holds w p text) ∧
    ∀ s : Settings, (∀ t ∈ s.texts, Plain t) →
      ∃ table, Toml.read? s.document = some table ∧ SetBy table s := by
  intro home others
  have sources : candidates w = others := by rw [candidates_eq, home_eq]
  refine ⟨?_, fun p e => rfl, fun p place text => holds_of_tells, fun s => exists_setBy_document⟩
  by_cases bad : ∃ p e, explicit = some p ∧ ofFile w p = .error e
  · obtain ⟨p, e, rfl, unread⟩ := bad
    refine Or.inl ⟨p, e, rfl, (ofFile_eq_error_iff w).mp unread, ?_⟩
    simp only [load, unread]
    rfl
  · have usable : ∀ p e, explicit = some p → ofFile w p ≠ .error e := fun p e asked unread =>
      bad ⟨p, e, asked, unread⟩
    obtain ⟨s, reports, loaded, reported, taken⟩ := load_of_usable usable
    rw [sources] at reported taken
    refine Or.inr ⟨fun p e asked unusable => ?_, s, reports, loaded, reported, taken, ?_⟩
    · exact usable p e asked ((ofFile_eq_error_iff w).mpr unusable)
    · intro front p middle q back same split
      rw [split] at taken
      exact taken.of_repeated same

/-- A world in which the environment names the file at `/o`, the home of the account has a file, the
working directory one that is no document, and the file at `/c` is closed. -/
def sampleWorld : World where
  files :=
    { nodes :=
        [(["o"], .file "database_name = \"own\"\n"), (["c"], .file ""), (["h"], .directory),
          (["h", ".config"], .directory),
          (["h", ".config", "docfilter.toml"], .file "log_dir = \"d\"\n"),
          (["w"], .directory), (["w", "docfilter.toml"], .file "x")]
      unreadable := [["c"]] }
  env := [("HOME", ""), ("DOCFILTER_CONFIG", "../o"), ("DOCFILTER_COLLECTION", "people")]
  directory := ["w"]
  accountHome := some "/h"

theorem sampleWorld_loads :
    let s : Settings :=
      { databaseName := some "own", collectionName := some "people", logDir := some "d" }
    load sampleWorld (some "/o") = .ok (s, [⟨"/w/docfilter.toml", .settings .unreadable⟩]) ∧
      TakenFrom sampleWorld ["/o", "../o", "/h/.config/docfilter.toml", "/w/docfilter.toml"] s ∧
      TakenFrom sampleWorld ["/o", "/h/.config/docfilter.toml", "/w/docfilter.toml"] s ∧
      Holds sampleWorld "docfilter.toml" "x" ∧
      (∃ table, Toml.read? "log_dir = \"d\"\n" = some table ∧ SetBy table { logDir := some "d" }) ∧
      load sampleWorld (some "/c") = .error .io ∧ Unusable sampleWorld "/c" .io := by
  intro s
  have loaded : load sampleWorld (some "/o") =
      .ok (s, [⟨"/w/docfilter.toml", .settings .unreadable⟩]) := by
    decide +kernel
  have failed : load sampleWorld (some "/c") = .error .io := by decide +kernel
  obtain ⟨used, _, held, documents⟩ := load_takes_first_set sampleWorld (some "/o")
  obtain ⟨refused, _⟩ := load_takes_first_set sampleWorld (some "/c")
  have same : SamePlace sampleWorld "/o" "../o" := by
    show _ = _
    decide +kernel
  have plain : ∀ t ∈ texts { logDir := some "d" }, Plain t := by
    intro t member c inside
    obtain rfl : t = "d" := by simpa [texts] using member
    obtain rfl : c = 'd' := by simpa using inside
    decide
  have document_eq : document { logDir := some "d" } = "log_dir = \"d\"\n" := by decide +kernel
  have set := document_eq ▸ documents { logDir := some "d" } plain
  have taken : TakenFrom sampleWorld ["/o", "../o", "/h/.config/docfilter.toml",
        "/w/docfilter.toml"] s ∧
      TakenFrom sampleWorld ["/o", "/h/.config/docfilter.toml", "/w/docfilter.toml"] s := by
    rcases used with ⟨_, _, _, _, lost⟩ | ⟨_, t, reports, found, _, taken, shorter⟩
    · cases loaded.symm.trans lost
    · obtain ⟨sameSettings, _⟩ := Prod.mk.inj (Except.ok.inj (loaded.symm.trans found))
      rw [sameSettings]
      refine ⟨(congrArg (fun sources => TakenFrom sampleWorld sources t) ?_).mp taken,
        shorter [] "/o" [] "../o" ["/h/.config/docfilter.toml", "/w/docfilter.toml"] same ?_⟩
      · decide +kernel
      · decide +kernel
  have here : Tells sampleWorld "docfilter.toml" ["w", "docfilter.toml"] := by
    refine ⟨Or.inr ⟨["docfilter.toml"], by decide, rfl, by decide⟩, by decide, ?_, by decide⟩
    intro front back split rest
    rcases front with _ | ⟨first, _ | ⟨second, front⟩⟩
    · rfl
    · cases split
      rfl
    · simp_all
  refine ⟨loaded, taken.1, taken.2, held _ _ _ here (by decide) rfl, set, failed, ?_⟩
  rcases refused with ⟨p, e, asked, unusable, lost⟩ | ⟨_, t, reports, found, _⟩
  · cases asked
    cases failed.symm.trans lost
    exact unusable
  · cases failed.symm.trans found

end Settings
end DocQuery
