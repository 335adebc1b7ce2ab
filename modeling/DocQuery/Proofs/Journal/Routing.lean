import DocQuery.Dialect
import DocQuery.Proofs.Journal.LogFiles
/-!
# Where records go

What the files of a log hold after any work of a process, with further set-ups in between. All of
these fail, and none of them changes where records go. Yet each of them may move the ceiling, so a
record is kept only if the ceiling under which it was told admits it (`log_files_hold_told`).
Nothing is lost if no set-up asks for less than the first one; one that does silences the log
(`failed_set_up_silences_log`).

The files are those that stay below 10 MiB. Beyond that size a file is set aside, so that its
records are found elsewhere and are removed in the end, which the model leaves out.
-/
namespace DocQuery

/-- What goes on in a process that logs. -/
inductive Activity where
  | tell (r : Record)
  | compile (f : Filter)
  | sort (fields : List SortField)
  | setUp (q : LogRequest)

/-- The records that are told on the way. -/
def Activity.records : Activity → List Record
  | .tell r => [r]
  | .compile f => (Dialect.standard.compileFilter f).records
  | .sort fields => (Dialect.standard.compileSort fields).records
  | .setUp _ => []

/-- A record that was told, with the time of day and the ceiling of the log. -/
structure Emission where
  stamp : String
  ceiling : Threshold
  record : Record

namespace Emission

/-- The lines of what was told, one after the other. -/
def text (told : List Emission) : String :=
  String.join (told.map fun e => e.record.line e.stamp)

/-- The ceiling did not keep the record from the log. -/
def Admitted (e : Emission) : Prop :=
  e.ceiling.admits e.record.level = true

instance (e : Emission) : Decidable e.Admitted :=
  inferInstanceAs (Decidable (_ = true))

theorem text_append (told later : List Emission) : text (told ++ later) = text told ++ text later := by
  simp [text]

end Emission

/-- A process with its log. -/
structure Process where
  logging : Logging
  world : World

namespace Process

/-- One activity at the time of day that the stamp tells. -/
def step (p : Process) (stamp : String) : Activity → Process
  | .setUp q => ⟨(p.logging.configure p.world q).2.1, (p.logging.configure p.world q).2.2⟩
  | a =>
    { p with
      world := { p.world with files := p.logging.writeAll stamp p.world.files a.records } }

/-- The process behind activities. -/
def run (p : Process) (steps : List (String × Activity)) : Process :=
  steps.foldl (fun p s => p.step s.1 s.2) p

/-- What an activity tells. -/
def tells (p : Process) (stamp : String) (a : Activity) : List Emission :=
  a.records.map fun r => ⟨stamp, p.logging.ceiling, r⟩

/-- What is told during activities. -/
def told (p : Process) : List (String × Activity) → List Emission
  | [] => []
  | s :: rest => p.tells s.1 s.2 ++ told (p.step s.1 s.2) rest

end Process

/-- A file has got a text at its end, or was made with it. -/
def Files.Extended (before after : Files) (p : Path) (text : String) : Prop :=
  ∃ old, (before.get? p = some (.file old) ∨ before.get? p = none ∧ old = "") ∧
    after.get? p = some (.file (old ++ text))

/-- A file that is made holds just the text. -/
theorem Files.Extended.of_absent {before after : Files} {p : Path} {text : String}
    (extended : before.Extended after p text) (absent : before.get? p = none) :
    after.get? p = some (.file text) := by
  obtain ⟨old, there | ⟨_, rfl⟩, found⟩ := extended
  · rw [absent] at there
    cases there
  · simpa using found

/-- The files hold what was told as the first set-up asked for: the main file has got the lines of
all records up to the threshold that are not of the trace, and the file of the trace, if that is on,
has got those of the trace. No other file has got any text. -/
structure LogRequest.Holds (q : LogRequest) (w : World) (told : List Emission) (after : Files) :
    Prop where
  main : w.files.Extended after (q.place w ++ ["docfilter.log"])
    (Emission.text (told.filter fun e =>
      ¬ AtTrace e.record.target ∧ q.threshold.admits e.record.level))
  trace : q.traced = true → w.files.Extended after (q.place w ++ ["trace.log"])
    (Emission.text (told.filter fun e => AtTrace e.record.target))
  others : ∀ p, p ≠ q.place w ++ ["docfilter.log"] →
    (q.traced = true → p ≠ q.place w ++ ["trace.log"]) → w.files.GrowsAt after p

/-! ## What a log puts into a file -/

namespace Logging

/-- The log puts the record into the file at `x`. -/
def Puts (l : Logging) (x : Path) (r : Record) : Prop :=
  l.ceiling.admits r.level = true ∧ l.routes.bind (·.file? r) = some x

instance (l : Logging) (x : Path) (r : Record) : Decidable (l.Puts x r) :=
  inferInstanceAs (Decidable (_ ∧ _))

variable {l : Logging} {x : Path} {fs : Files} {r : Record} {text : String}

theorem write_of_puts (puts : l.Puts x r) (stamp : String) :
    l.write stamp fs r = fs.append x (r.line stamp) := by
  rw [write, if_pos puts.1, puts.2]

theorem get?_write_of_not_puts (h : ¬ l.Puts x r) (stamp : String) :
    (l.write stamp fs r).get? x = fs.get? x := by
  rw [write]
  split
  next admitted =>
    split
    next p found =>
      have other : x ≠ p := fun same => h ⟨admitted, same ▸ found⟩
      exact Files.get?_append_of_ne other _
    · rfl
  · rfl

theorem get?_writeAll_of_not_puts {records : List Record} (h : ∀ r ∈ records, ¬ l.Puts x r)
    (stamp : String) : (l.writeAll stamp fs records).get? x = fs.get? x := by
  induction records generalizing fs with
  | nil => rfl
  | cons r rest ih =>
    obtain ⟨first, others⟩ := List.forall_mem_cons.mp h
    rw [writeAll, List.foldl_cons, ← writeAll, ih others, get?_write_of_not_puts first]

/-- A file gets the lines of the records that the log puts into it. -/
theorem get?_writeAll_file (there : fs.get? x = some (.file text)) (stamp : String)
    (records : List Record) : (l.writeAll stamp fs records).get? x =
      some (.file (text ++ String.join ((records.filter (l.Puts x ·)).map (·.line stamp)))) := by
  induction records generalizing fs text with
  | nil => simpa [writeAll] using there
  | cons r rest ih =>
    rw [writeAll, List.foldl_cons, ← writeAll]
    by_cases puts : l.Puts x r
    · have written := Files.get?_append_self there (r.line stamp)
      rw [← write_of_puts puts stamp] at written
      rw [ih written, List.filter_cons_of_pos (by simpa using puts), List.map_cons,
        String.join_cons, String.append_assoc]
    · rw [← get?_write_of_not_puts puts stamp] at there
      rw [ih there, List.filter_cons_of_neg (by simpa using puts)]

end Logging

/-! ## Runs of a process -/

namespace Process

variable {p : Process} {r : Routes} {x : Path}

/-- What was told goes into the file at `x`. -/
def GoesTo (r : Routes) (x : Path) (e : Emission) : Prop :=
  e.Admitted ∧ r.file? e.record = some x

instance (r : Routes) (x : Path) (e : Emission) : Decidable (GoesTo r x e) :=
  inferInstanceAs (Decidable (_ ∧ _))

/-- Every activity but a set-up writes its records and does nothing else. -/
theorem step_cases (p : Process) (stamp : String) (a : Activity) : (∃ q, a = .setUp q) ∨
    p.step stamp a = { p with
      world := { p.world with files := p.logging.writeAll stamp p.world.files a.records } } := by
  cases a with
  | setUp q => exact Or.inl ⟨q, rfl⟩
  | tell _ => exact Or.inr rfl
  | compile _ => exact Or.inr rfl
  | sort _ => exact Or.inr rfl

theorem step_routes (routed : p.logging.routes = some r) (stamp : String) (a : Activity) :
    (p.step stamp a).logging.routes = some r := by
  rcases step_cases p stamp a with ⟨q, rfl⟩ | written
  · exact (Logging.configure_again routed p.world q).2.1
  · rw [written]
    exact routed

theorem puts_iff (routed : p.logging.routes = some r) (stamp : String) (rec : Record) :
    p.logging.Puts x rec ↔ GoesTo r x ⟨stamp, p.logging.ceiling, rec⟩ := by
  rw [Logging.Puts, routed]
  rfl

theorem text_tells (routed : p.logging.routes = some r) (stamp : String) (a : Activity) :
    Emission.text ((p.tells stamp a).filter (GoesTo r x ·)) =
      String.join ((a.records.filter (p.logging.Puts x ·)).map (·.line stamp)) := by
  simp only [tells, Emission.text, List.filter_map, List.map_map]
  simp only [puts_iff routed stamp]
  rfl

theorem step_file (routed : p.logging.routes = some r) {text : String}
    (there : p.world.files.get? x = some (.file text)) (stamp : String) (a : Activity) :
    (p.step stamp a).world.files.get? x =
      some (.file (text ++ Emission.text ((p.tells stamp a).filter (GoesTo r x ·)))) := by
  rw [text_tells routed]
  rcases step_cases p stamp a with ⟨q, rfl⟩ | written
  · have kept : (p.step stamp (.setUp q)).world.files.get? x = some (.file text) :=
      ((Logging.configure_again routed p.world q).2.2.2 x).file there
    simpa [Activity.records] using kept
  · rw [written]
    exact Logging.get?_writeAll_file there stamp a.records

theorem run_cons (p : Process) (s : String × Activity) (rest : List (String × Activity)) :
    p.run (s :: rest) = (p.step s.1 s.2).run rest := rfl

/-- Every record is told, in its turn. -/
theorem record_told (p : Process) (steps : List (String × Activity)) :
    (p.told steps).map (·.record) = steps.flatMap (·.2.records) := by
  induction steps generalizing p with
  | nil => rfl
  | cons s rest ih =>
    rw [told, List.map_append, ih, List.flatMap_cons, tells, List.map_map]
    simp [Function.comp_def]

theorem run_routes (routed : p.logging.routes = some r) (steps : List (String × Activity)) :
    (p.run steps).logging.routes = some r := by
  induction steps generalizing p with
  | nil => exact routed
  | cons s rest ih => exact ih (step_routes routed s.1 s.2)

/-- A file gets the lines of what goes to it, in the order in which that was told. -/
theorem run_file (routed : p.logging.routes = some r) {text : String}
    (there : p.world.files.get? x = some (.file text)) (steps : List (String × Activity)) :
    (p.run steps).world.files.get? x =
      some (.file (text ++ Emission.text ((p.told steps).filter (GoesTo r x ·)))) := by
  induction steps generalizing p text with
  | nil => simpa [run, told, Emission.text] using there
  | cons s rest ih =>
    rw [run_cons, ih (step_routes routed s.1 s.2) (step_file routed there s.1 s.2), told,
      List.filter_append, Emission.text_append, String.append_assoc]

theorem mem_files_of_file? {rec : Record} (found : r.file? rec = some x) : x ∈ r.files := by
  rw [Routes.file?] at found
  split at found
  · simp [Routes.files, found]
  split at found
  · simp [Routes.files, Option.some.inj found]
  · cases found

theorem step_others (routed : p.logging.routes = some r) (other : x ∉ r.files) (stamp : String)
    (a : Activity) : p.world.files.GrowsAt (p.step stamp a).world.files x := by
  rcases step_cases p stamp a with ⟨q, rfl⟩ | written
  · exact (Logging.configure_again routed p.world q).2.2.2 x
  · have unwritten : ∀ rec ∈ a.records, ¬ p.logging.Puts x rec :=
      fun rec _ puts => other (mem_files_of_file? ((puts_iff routed stamp rec).mp puts).2)
    rw [written]
    exact Or.inl (Logging.get?_writeAll_of_not_puts unwritten stamp)

/-- Where no record goes, there is at most a new directory or a new empty file. -/
theorem run_others (routed : p.logging.routes = some r) (other : x ∉ r.files)
    (steps : List (String × Activity)) :
    p.world.files.GrowsAt (p.run steps).world.files x := by
  induction steps generalizing p with
  | nil => exact Files.GrowsAt.refl _ x
  | cons s rest ih =>
    exact (step_others routed other s.1 s.2).trans (ih (step_routes routed s.1 s.2))

/-- The ceiling is that of the first set-up or of a later one. -/
theorem ceiling_of_told (routed : p.logging.routes = some r) {steps : List (String × Activity)}
    {e : Emission} (member : e ∈ p.told steps) : e.ceiling = p.logging.ceiling ∨
      ∃ stamp q, (stamp, .setUp q) ∈ steps ∧ e.ceiling = q.ceiling := by
  induction steps generalizing p with
  | nil => cases member
  | cons s rest ih =>
    obtain ⟨stamp, a⟩ := s
    rcases List.mem_append.mp member with now | later
    · left
      obtain ⟨rec, _, rfl⟩ := List.mem_map.mp now
      rfl
    · rcases ih (step_routes routed stamp a) later with current | ⟨stamp', q, among, same⟩
      · rcases step_cases p stamp a with ⟨q, rfl⟩ | written
        · rcases (Logging.configure_again routed p.world q).2.2.1 with kept | moved
          · exact Or.inl (current.trans kept)
          · exact Or.inr ⟨stamp, q, List.mem_cons_self, current.trans moved⟩
        · rw [written] at current
          exact Or.inl current
      · exact Or.inr ⟨stamp', q, List.mem_cons_of_mem _ among, same⟩

end Process

namespace LogRequest

variable {q : LogRequest} {p : Path} {rec : Record}

/-- The files of a log have different names. -/
theorem main_ne_trace (p : Path) : p ++ [Logging.mainName] ≠ p ++ [Logging.traceName] := by
  simp [Logging.mainName, Logging.traceName]

theorem file?_routesAt : (q.routesAt p).file? rec =
    if AtTrace rec.target then if q.traced then some (p ++ [Logging.traceName]) else none
    else if q.threshold.admits rec.level then some (p ++ [Logging.mainName])
    else none := by
  simp only [Routes.file?, isTraceTarget_iff]
  rfl

theorem file?_eq_main_iff : (q.routesAt p).file? rec = some (p ++ [Logging.mainName]) ↔
    ¬ AtTrace rec.target ∧ q.threshold.admits rec.level = true := by
  have names := (main_ne_trace p).symm
  rw [file?_routesAt]
  split
  next traced => split <;> simp [traced, names]
  next traced => split <;> simp_all

theorem file?_eq_trace_iff (on : q.traced = true) :
    (q.routesAt p).file? rec = some (p ++ [Logging.traceName]) ↔ AtTrace rec.target := by
  have names := main_ne_trace p
  rw [file?_routesAt, if_pos on]
  split
  next traced => simp [traced]
  next traced => split <;> simp [traced, names]

/-- What the first set-up asked for is not above its ceiling. -/
theorem ceiling_admits {l : Level} (asked : q.threshold.admits l = true ∨ q.traced = true) :
    q.ceiling.admits l = true := by
  rw [ceiling, Threshold.admits_max]
  rcases asked with admitted | on
  · simp [admitted]
  · cases l <;> simp [on, Threshold.admits, Threshold.rank, Level.rank]

end LogRequest

/-! ## All that is told -/

namespace Process

variable {w : World} {p : Process} {r : Routes} {x : Path}

/-- A file of the log gets what goes to it, whether it was there before or is made. -/
theorem extended_run (routed : p.logging.routes = some r)
    (grows : w.files.GrowsAt p.world.files x) (isFile : p.world.files.IsFile x)
    (steps : List (String × Activity)) :
    w.files.Extended (p.run steps).world.files x
      (Emission.text ((p.told steps).filter (GoesTo r x ·))) := by
  obtain ⟨old, there⟩ := isFile
  exact ⟨old, grows.of_file there, run_file routed there steps⟩

variable {q : LogRequest}

/-- Of what is admitted, what a file takes goes to it. -/
theorem filter_admitted {takes : Emission → Prop} [DecidablePred takes]
    (taken : ∀ e : Emission, r.file? e.record = some x ↔ takes e) (told : List Emission) :
    (told.filter (·.Admitted)).filter (takes ·) = told.filter (GoesTo r x ·) := by
  rw [List.filter_filter]
  refine List.filter_congr fun e _ => ?_
  rw [← Bool.decide_and, decide_eq_decide, GoesTo, taken, and_comm]

/-- The files hold those records that the ceiling admits. -/
theorem holds_admitted (routed : p.logging.routes = some (q.routesAt (q.place w)))
    (grows : w.files.Grows p.world.files)
    (isFile : ∀ file ∈ (q.routesAt (q.place w)).files, p.world.files.IsFile file)
    (steps : List (String × Activity)) :
    q.Holds w ((p.told steps).filter (·.Admitted)) (p.run steps).world.files := by
  obtain ⟨mainFile, traceFile⟩ := Logging.forall_mem_files_iff.mp isFile
  constructor
  case main =>
    rw [filter_admitted fun _ => LogRequest.file?_eq_main_iff]
    exact extended_run routed (grows _) mainFile steps
  case trace =>
    intro on
    rw [filter_admitted fun _ => LogRequest.file?_eq_trace_iff on]
    exact extended_run routed (grows _) (traceFile on) steps
  case others =>
    intro x notMain notTrace
    have other : x ∉ (q.routesAt (q.place w)).files := by
      intro member
      have apart : ∀ file ∈ (q.routesAt (q.place w)).files, x ≠ file :=
        Logging.forall_mem_files_iff.mpr ⟨notMain, notTrace⟩
      exact apart x member rfl
    exact (grows x).trans (run_others routed other steps)

/-- Where every record that was asked for is admitted, the ceiling makes no difference. -/
theorem holds_all {told : List Emission} {after : Files}
    (holds : q.Holds w (told.filter (·.Admitted)) after)
    (admitted : ∀ e ∈ told, q.threshold.admits e.record.level = true ∨ q.traced = true →
      e.Admitted) : q.Holds w told after := by
  have same {takes : Emission → Prop} [DecidablePred takes]
      (asked : ∀ e, takes e → q.threshold.admits e.record.level = true ∨ q.traced = true) :
      (told.filter (·.Admitted)).filter (takes ·) = told.filter (takes ·) := by
    rw [List.filter_filter]
    refine List.filter_congr fun e member => ?_
    by_cases taken : takes e
    · simp [taken, admitted e member (asked e taken)]
    · simp [taken]
  constructor
  case main =>
    rw [← same fun e taken => Or.inl taken.2]
    exact holds.main
  case trace =>
    intro on
    rw [← same fun _ _ => Or.inr on]
    exact holds.trace on
  case others => exact holds.others

end Process

/-- The files behind any work of a process whose first set-up succeeds. All further set-ups fail and
none changes where records go. The files hold what was told as the first set-up asked for, except
for what the ceiling did not admit when it was told; and they hold all of it if no further set-up
has a lower ceiling. -/
theorem log_files_hold_told {w w' : World} {q : LogRequest} {l : Logging}
    (started : Logging.configure {} w q = (true, l, w')) (steps : List (String × Activity)) :
    let p : Process := ⟨l, w'⟩
    (p.told steps).map (·.record) = steps.flatMap (·.2.records) ∧
    (p.run steps).logging.routes = l.routes ∧
    (∀ earlier stamp again later, steps = earlier ++ (stamp, .setUp again) :: later →
      (Logging.configure (p.run earlier).logging (p.run earlier).world again).1 = false) ∧
    q.Holds w ((p.told steps).filter (·.Admitted)) (p.run steps).world.files ∧
    ((∀ stamp again, (stamp, .setUp again) ∈ steps → q.ceiling.rank ≤ again.ceiling.rank) →
      q.Holds w (p.told steps) (p.run steps).world.files) := by
  intro p
  obtain ⟨same, grows, isFile⟩ := Logging.configure_first started
  have routed : p.logging.routes = some (q.routesAt (q.place w)) := congrArg Logging.routes same
  have ceiling : p.logging.ceiling = q.ceiling := congrArg Logging.ceiling same
  have holds := Process.holds_admitted routed grows isFile steps
  refine ⟨Process.record_told p steps, (Process.run_routes routed steps).trans routed.symm, ?_,
    holds, ?_⟩
  · intro earlier stamp again later _
    exact (Logging.configure_again (Process.run_routes routed earlier) _ again).1
  · intro notLower
    refine Process.holds_all holds fun e member asked => ?_
    have low : q.ceiling.rank ≤ e.ceiling.rank := by
      rcases Process.ceiling_of_told routed member with current | ⟨stamp, again, among, moved⟩
      · rw [current, ceiling]
      · rw [moved]
        exact notLower stamp again among
    have admitted : e.record.level.rank ≤ q.ceiling.rank := by
      simpa [Threshold.admits] using LogRequest.ceiling_admits asked
    simpa [Emission.Admitted, Threshold.admits] using admitted.trans low

/-- Behind a later set-up that asks for less, but for the trace as well. -/
theorem log_files_hold_told_behind_failed_set_up :
    let w : World := {}
    let q : LogRequest := { directory := some "logs", threshold := .upTo .info, traced := true }
    let p : Process := ⟨(Logging.configure {} w q).2.1, (Logging.configure {} w q).2.2⟩
    let steps : List (String × Activity) :=
      [("", .tell ⟨.debug, "app", "x"⟩), ("", .setUp { q with threshold := .off }),
        ("", .tell ⟨.info, "app", "y"⟩), ("", .tell (.trace "z"))]
    Logging.configure {} w q = (true, p.logging, p.world) ∧
    (∀ stamp again, (stamp, .setUp again) ∈ steps → q.ceiling.rank ≤ again.ceiling.rank) ∧
    q.Holds w (p.told steps) (p.run steps).world.files := by
  intro w q p steps
  have succeeds : (Logging.configure {} w q).1 = true := by decide +kernel
  have started : Logging.configure {} w q = (true, p.logging, p.world) := by rw [← succeeds]
  have notLower : ∀ stamp again, (stamp, .setUp again) ∈ steps →
      q.ceiling.rank ≤ again.ceiling.rank := by
    intro stamp again member
    obtain ⟨_, rfl⟩ : stamp = "" ∧ again = { q with threshold := .off } := by
      simpa [steps] using member
    decide
  exact ⟨started, notLower, (log_files_hold_told started steps).2.2.2.2 notLower⟩

/-- A set-up that asks for nothing fails as it should, and yet no record is kept any more. -/
theorem failed_set_up_silences_log :
    let w : World := {}
    let q : LogRequest := { directory := some "logs", threshold := .upTo .info, traced := true }
    let again : LogRequest := { directory := some "logs", threshold := .off }
    let p : Process := ⟨(Logging.configure {} w q).2.1, (Logging.configure {} w q).2.2⟩
    let steps : List (String × Activity) :=
      [("", .setUp again), ("", .tell ⟨.info, "app", "x"⟩)]
    (Logging.configure {} w q).1 = true ∧ (Logging.configure p.logging p.world again).1 = false ∧
    ¬ q.Holds w (p.told steps) (p.run steps).world.files := by
  intro w q again p steps
  have succeeds : (Logging.configure {} w q).1 = true := by decide +kernel
  have started : Logging.configure {} w q = (true, p.logging, p.world) := by rw [← succeeds]
  obtain ⟨same, grows, isFile⟩ := Logging.configure_first started
  have routed : p.logging.routes = some (q.routesAt (q.place w)) := congrArg Logging.routes same
  refine ⟨succeeds, (Logging.configure_again routed p.world again).1, fun holds => ?_⟩
  have absent : w.files.get? (q.place w ++ ["docfilter.log"]) = none := by
    simp [w, Files.get?]
  have silent : Emission.text (((p.told steps).filter (·.Admitted)).filter fun e =>
      ¬ AtTrace e.record.target ∧ q.threshold.admits e.record.level) = "" := by decide +kernel
  have line : Emission.text ((p.told steps).filter fun e =>
      ¬ AtTrace e.record.target ∧ q.threshold.admits e.record.level) = "[INFO] app - x\n" := by
    decide +kernel
  have kept := (Process.holds_admitted routed grows isFile steps).main.of_absent absent
  have promised := holds.main.of_absent absent
  rw [silent] at kept
  rw [line, kept] at promised
  exact absurd (FileNode.file.inj (Option.some.inj promised)) (by decide)

end DocQuery
