import DocQuery.Journal.Routing
import DocQuery.Proofs.Environment
import DocQuery.Proofs.Files
/-!
# The files of a log

Setting up a log opens its files side by side in one directory, and leaves alone what else was there
(`openRoutes_spec`). The first set-up that succeeds decides where records go; all later ones fail
(`configure_again`). A target is that of the trace or below it as told by its beginning
(`isTraceTarget_iff`).
-/
namespace DocQuery

/-! ## Targets of the trace -/

theorem targetNames_ne_nil (s : List Char) : targetNames s ≠ [] := by
  induction s using targetNames.induct <;> simp_all [targetNames]

/-- A target is its names with double colons in between. -/
theorem intercalate_targetNames (s : List Char) : [':', ':'].intercalate (targetNames s) = s := by
  induction s using targetNames.induct with
  | case1 => simp [targetNames]
  | case2 rest ih =>
    cases found : targetNames rest with
    | nil => exact absurd found (targetNames_ne_nil rest)
    | cons first others =>
      rw [found] at ih
      simp [targetNames, found, ih]
  | case3 c rest _ found => exact absurd found (targetNames_ne_nil rest)
  | case4 c rest _ first others found ih =>
    rw [found] at ih
    cases others <;> simp_all [targetNames]

theorem targetNames_append_colons {s : List Char} (h : ':' ∉ s) (rest : List Char) :
    targetNames (s ++ ':' :: ':' :: rest) = s :: targetNames rest := by
  induction s with
  | nil => simp [targetNames]
  | cons c s ih =>
    simp only [List.mem_cons, not_or] at h
    simp [targetNames, ih h.2, Ne.symm h.1]

/-- The target of the trace or one below it. -/
def AtTrace (target : String) : Prop :=
  target = traceTarget ∨ ∃ below, target = traceTarget ++ "::" ++ below

theorem isTraceTarget_iff (target : String) : isTraceTarget target = true ↔ AtTrace target := by
  have own : targetNames traceTarget.toList = ["docfilter".toList, "trace".toList] := by decide
  rw [isTraceTarget, own, List.isPrefixOf_iff_prefix]
  constructor
  · rintro ⟨below, split⟩
    have whole := intercalate_targetNames target.toList
    rw [← split] at whole
    cases below with
    | nil =>
      left
      rw [← String.toList_inj, ← whole]
      rfl
    | cons first others =>
      refine Or.inr ⟨String.ofList ([':', ':'].intercalate (first :: others)), ?_⟩
      rw [← String.toList_inj, ← whole]
      simp [traceTarget, String.toList_append]
  · rintro (rfl | ⟨below, rfl⟩)
    · exact ⟨[], by rw [own, List.append_nil]⟩
    · refine ⟨targetNames below.toList, ?_⟩
      have text : (traceTarget ++ "::" ++ below).toList =
          "docfilter".toList ++ ':' :: ':' :: ("trace".toList ++ ':' :: ':' :: below.toList) := by
        simp [traceTarget, String.toList_append]
      rw [text, targetNames_append_colons (by decide), targetNames_append_colons (by decide)]
      rfl

instance (target : String) : Decidable (AtTrace target) :=
  decidable_of_iff _ (isTraceTarget_iff target)

/-! ## Opening files side by side -/

namespace Logging

/-- Where files with a name in the given directory are opened. -/
def place (w : World) (directory : String) : Path :=
  (Path.along w.directory (w.env.expand (Path.join directory ""))).getLastD []

/-- A name that is neither a path nor a reference. -/
def IsPlain (name : String) : Prop :=
  '/' ∉ name.toList ∧ '$' ∉ name.toList

theorem isPlain_empty : IsPlain "" := ⟨by decide, by decide⟩

theorem isPlain_mainName : IsPlain mainName := ⟨by decide, by decide⟩

theorem isPlain_traceName : IsPlain traceName := ⟨by decide, by decide⟩

/-- What is told of a file once references are replaced: its name alone, or behind a slash. -/
theorem expand_join_cases (env : Environment) (directory : String) :
    (∀ name, IsPlain name → env.expand (Path.join directory name) = name) ∨
      ∃ above, ∀ name, IsPlain name → env.expand (Path.join directory name) = above ++ "/" ++ name := by
  rcases Path.join_cases directory with rfl | ⟨above, joined⟩
  · left
    intro name plain
    have alone : Path.join "" name = name := by simp [Path.join]
    rw [alone, Environment.expand_of_noDollar plain.2]
  · right
    refine ⟨env.expand above, fun name plain => ?_⟩
    rw [joined name plain.1, Environment.expand_append_slash above plain.2]

/-- The names that lead to a file are those of its place and its own. -/
theorem openedAt_eq (w : World) (directory : String) {name : String} (plain : IsPlain name) :
    let s := w.env.expand (Path.join directory name)
    Path.follow (Path.start w.directory s) (Path.names s).dropLast ++ [(Path.names s).getLastD ""] =
      place w directory ++ [name] := by
  intro s
  have noSlash := plain.1
  have noSlashIn : '/' ∉ "".toList := isPlain_empty.1
  have stays : Path.stays "" = true := rfl
  rcases expand_join_cases w.env directory with alone | ⟨above, behind⟩
  · have here : s = name := alone name plain
    rw [here, place, alone "" isPlain_empty, Path.along_getLastD, Path.names_of_noSlash noSlash,
      Path.names_of_noSlash noSlashIn, Path.start_of_noSlash _ noSlash,
      Path.start_of_noSlash _ noSlashIn]
    rfl
  · have here : s = above ++ "/" ++ name := behind name plain
    rw [here, place, behind "" isPlain_empty, Path.along_getLastD, Path.names_append_slash,
      Path.names_append_slash, Path.names_of_noSlash noSlash, Path.names_of_noSlash noSlashIn,
      Path.follow_concat, if_pos stays, Path.start_append_slash _ above name,
      Path.start_append_slash _ above "", List.dropLast_concat]
    simp

/-- A file is opened in the place of its directory. -/
theorem openFile_spec {w : World} {directory name : String} {done : Path × World}
    (plain : IsPlain name) (opened : openFile w directory name = .ok done) :
    ∃ files, done = (place w directory ++ [name], { w with files }) ∧ w.files.Grows files ∧
      files.IsFile (place w directory ++ [name]) := by
  rw [openFile] at opened
  obtain ⟨⟨p, files⟩, there, made⟩ := bind_eq_ok_iff.mp opened
  obtain rfl := Except.ok.inj made
  obtain ⟨here, grows, isFile⟩ := Files.openAppend_spec there
  rw [openedAt_eq w directory plain] at here
  obtain rfl : place w directory ++ [name] = p := here.symm
  exact ⟨files, rfl, grows, isFile⟩

end Logging

/-- The files that may take a record. -/
def Routes.files (r : Routes) : List Path :=
  r.mainFile :: r.traceFile.toList

/-- Where records go that are logged in the given directory. -/
def LogRequest.routesAt (q : LogRequest) (p : Path) : Routes where
  mainFile := p ++ [Logging.mainName]
  traceFile := if q.traced then some (p ++ [Logging.traceName]) else none
  threshold := q.threshold

/-- Where the files of the log are. -/
def LogRequest.place (q : LogRequest) (w : World) : Path :=
  Logging.place w (q.directory.getD (Path.text w.directory))

namespace Logging

/-- What holds of all files of a log holds of the main file, and of that of the trace if it is
on. -/
theorem forall_mem_files_iff {q : LogRequest} {p : Path} {P : Path → Prop} :
    (∀ file ∈ (q.routesAt p).files, P file) ↔
      P (p ++ [mainName]) ∧ (q.traced = true → P (p ++ [traceName])) := by
  cases traced : q.traced <;> simp [Routes.files, LogRequest.routesAt, traced]

theorem openFiles_spec (w : World) (directory : String) (q : LogRequest) :
    ∃ files, (openFiles w directory q).2 = { w with files } ∧ w.files.Grows files ∧
      ∀ r, (openFiles w directory q).1 = some r →
        r = q.routesAt (place w directory) ∧ ∀ p ∈ r.files, files.IsFile p := by
  -- Checking the equation of `openFiles` would evaluate what it opens.
  delta openFiles
  split
  · exact ⟨w.files, rfl, Files.Grows.refl _, fun r none => by simp at none⟩
  next mainFile w' opened =>
    obtain ⟨files, same, grows, isFile⟩ := openFile_spec isPlain_mainName opened
    obtain ⟨rfl, rfl⟩ := Prod.mk.inj same.symm
    split
    next traced =>
      split
      · exact ⟨files, rfl, grows, fun r none => by simp at none⟩
      next traceFile w' opened =>
        obtain ⟨more, same, grows', isFile'⟩ := openFile_spec isPlain_traceName opened
        obtain ⟨rfl, rfl⟩ := Prod.mk.inj same.symm
        refine ⟨more, rfl, grows.trans grows', fun r found => ?_⟩
        have here : r = q.routesAt (place w directory) := by
          rw [← Option.some.inj found, LogRequest.routesAt, if_pos traced]
          rfl
        rw [here, forall_mem_files_iff]
        exact ⟨rfl, (grows' _).isFile isFile, fun _ => isFile'⟩
    next untraced =>
      refine ⟨files, rfl, grows, fun r found => ?_⟩
      have here : r = q.routesAt (place w directory) := by
        rw [← Option.some.inj found, LogRequest.routesAt, if_neg untraced]
      rw [here, forall_mem_files_iff]
      exact ⟨rfl, isFile, fun traced => absurd traced untraced⟩

/-- Opening the files of a log, whether it succeeds or fails on the way. -/
theorem openRoutes_spec (w : World) (q : LogRequest) :
    ∃ files, (openRoutes w q).2 = { w with files } ∧ w.files.Grows files ∧
      ∀ r, (openRoutes w q).1 = some r →
        r = q.routesAt (q.place w) ∧ ∀ p ∈ r.files, files.IsFile p := by
  simp only [openRoutes]
  split
  · exact ⟨w.files, rfl, Files.Grows.refl _, fun r none => by simp at none⟩
  next made opened =>
    obtain ⟨files, same, grows, routed⟩ :=
      openFiles_spec { w with files := made } (q.directory.getD (Path.text w.directory)) q
    exact ⟨files, same, (Files.grows_createDirectories opened).trans grows, routed⟩

/-- The first set-up that succeeds decides where records go, and opens the files. -/
theorem configure_first {w w' : World} {q : LogRequest} {l : Logging}
    (started : configure {} w q = (true, l, w')) :
    l = ⟨some (q.routesAt (q.place w)), q.ceiling⟩ ∧ w.files.Grows w'.files ∧
      ∀ p ∈ (q.routesAt (q.place w)).files, w'.files.IsFile p := by
  obtain ⟨files, same, grows, routed⟩ := openRoutes_spec w q
  rw [configure] at started
  split at started
  · simp at started
  next r opened found =>
    rw [found] at same routed
    obtain ⟨here, isFile⟩ := routed r rfl
    have done : (⟨some r, q.ceiling⟩ : Logging) = l ∧ opened = w' := by simpa using started
    have world : w' = { w with files } := done.2.symm.trans same
    rw [← done.1, world, ← here]
    exact ⟨rfl, grows, isFile⟩

/-- A later set-up fails. Records go where they went, but the ceiling may be another one. -/
theorem configure_again {l : Logging} {r : Routes} (routed : l.routes = some r) (w : World)
    (q : LogRequest) :
    (configure l w q).1 = false ∧ (configure l w q).2.1.routes = some r ∧
      ((configure l w q).2.1.ceiling = l.ceiling ∨ (configure l w q).2.1.ceiling = q.ceiling) ∧
      w.files.Grows (configure l w q).2.2.files := by
  obtain ⟨files, same, grows, _⟩ := openRoutes_spec w q
  have opened : (openRoutes w q).2.files = files := by rw [same]
  rw [configure]
  split
  next found =>
    rw [found] at opened
    exact ⟨rfl, routed, Or.inl rfl, opened ▸ grows⟩
  next found =>
    rw [found] at opened
    rw [if_pos (by rw [routed]; rfl)]
    exact ⟨rfl, routed, Or.inr rfl, opened ▸ grows⟩

end Logging
end DocQuery
