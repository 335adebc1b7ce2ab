import DocQuery.Dialect
import DocQuery.Journal.Capture
import DocQuery.Proofs.Sort.Precedence
import Mathlib.Data.List.DropRight
import Mathlib.Data.List.ReduceOption
import Mathlib.Logic.Function.Basic
/-!
# What a thread captures

Each thread has a capture of its own. A drain gives what the thread told the trace since it last
enabled or drained, provided that it has enabled and not dropped a guard since; else it gives
nothing (`drains_tell_news`). What other threads do makes no difference, and no line is given by two
drains.
-/
namespace DocQuery

/-- Work that tells lines to the trace. -/
inductive Work where
  /-- Puts a line into the buffer only. -/
  | record (line : String)
  /-- Tells a line to the buffer and to the log. -/
  | trace (line : String)
  | compile (f : Filter)
  | sort (fields : List SortField)

/-- What a thread does that bears on its capture. Guards are numbered in the order in which the
thread obtains them. -/
inductive Deed where
  | enable
  | drop (guard : Nat)
  | work (w : Work)
  | drain

/-- The lines of a piece of work: those that are given, one for a filter that compiles, with the
length of its text in bytes, and one for a clause, with the number of its keys. -/
def Work.lines : Work → List String
  | .record line => [line]
  | .trace line => [line]
  | .compile f => f.compile.toOption.toList.map fun text =>
    "\x7b\"op\":\"compile_filter\",\"length\":" ++ Decimal.natText text.utf8ByteSize ++ "\x7d"
  | .sort fields => (SortField.clause fields).toList.map fun clause =>
    "\x7b\"op\":\"compile_sort\",\"keys\":" ++ Decimal.natText clause.length ++ "\x7d"

def Work.event : Work → Capture.Event
  | .record line => .record line
  | .trace line => .work [.trace line]
  | .compile f => .work (Dialect.standard.compileFilter f).records
  | .sort fields => .work (Dialect.standard.compileSort fields).records

namespace Deed

def lines : Deed → List String
  | .work w => w.lines
  | _ => []

def event : Deed → Capture.Event
  | .enable => .enable
  | .drop guard => .drop guard
  | .work w => w.event
  | .drain => .drain

def isEnable : Deed → Bool
  | .enable => true
  | _ => false

/-- The buffer is empty behind the deed, if there is one. -/
def empties : Deed → Bool
  | .enable => true
  | .drain => true
  | _ => false

end Deed

namespace Capture

/-- The capture behind the deeds of its thread. -/
def after (c : Capture) (deeds : List Deed) : Capture :=
  (c.run (deeds.map Deed.event)).2

/-- What the drains among the deeds give, in their order. -/
def answers (c : Capture) (deeds : List Deed) : List (List String) :=
  (c.run (deeds.map Deed.event)).1.reduceOption

/-- The thread has enabled its sink and has dropped no guard since. -/
def Listening (deeds : List Deed) : Prop :=
  ∃ earlier since, deeds = earlier ++ .enable :: since ∧ ∀ guard, .drop guard ∉ since

/-- The lines since the thread last enabled or drained, whichever came later. -/
def news (deeds : List Deed) : List String :=
  (deeds.rtakeWhile fun d => !d.empties).flatMap Deed.lines

/-- The thread drops a guard only after it has obtained it, and only once. -/
def Owned (deeds : List Deed) : Prop :=
  ∀ earlier guard later, deeds = earlier ++ .drop guard :: later →
    guard < earlier.countP Deed.isEnable ∧ .drop guard ∉ earlier

end Capture

/-- The captures of the threads. -/
abbrev Threads := Nat → Capture

namespace Threads

/-- The captures behind what the threads do one after the other, and what drains give meanwhile. -/
def run (ts : Threads) : List (Nat × Deed) → List (Nat × List String) × Threads
  | [] => ([], ts)
  | (t, d) :: rest =>
    let done := (ts t).step d.event
    let more := run (Function.update ts t done.2) rest
    (done.1.toList.map (t, ·) ++ more.1, more.2)

/-- What drains give in a process whose threads have enabled nothing yet. -/
def answers (steps : List (Nat × Deed)) : List (Nat × List String) :=
  (run (fun _ => {}) steps).1

/-- The part that a thread has in a list that tells the thread of each entry. -/
def own {α : Type} (t : Nat) (entries : List (Nat × α)) : List α :=
  (entries.filter (·.1 == t)).map (·.2)

end Threads

/-! ## Lines of the trace -/

/-- The messages for the trace among records. -/
def Record.traceLines (records : List Record) : List String :=
  (records.filter (·.target == traceTarget)).map (·.message)

theorem Filter.traceLines_compile (f : Filter) :
    Record.traceLines (Dialect.standard.compileFilter f).records = (Work.compile f).lines := by
  show Record.traceLines f.compileLogged.records = _
  rw [compileLogged, Work.lines]
  cases f.compile with
  | error e => rfl
  | ok text =>
    have other : (compileTarget == traceTarget) = false := by decide
    simp [Record.traceLines, Record.trace, other, Except.toOption, traceLine_eq]

/-- What is told of a sort field that is left out is no line of the trace. -/
theorem SortField.traceLines_complaints (fields : List SortField) :
    Record.traceLines (complaints fields) = [] := by
  have warned : ∀ r ∈ complaints fields, r.target = clauseTarget := by
    intro r member
    obtain ⟨entry, _, told⟩ := List.mem_filterMap.mp member
    unfold complaint? at told
    split at told
    · rw [← Option.some.inj told]
      rfl
    split at told
    · rw [← Option.some.inj told]
      rfl
    · cases told
  have none : (complaints fields).filter (·.target == traceTarget) = [] := by
    rw [List.filter_eq_nil_iff]
    intro r member
    rw [warned r member]
    decide
  rw [Record.traceLines, none]
  rfl

theorem SortField.traceLines_clause (fields : List SortField) :
    Record.traceLines (Dialect.standard.compileSort fields).records = (Work.sort fields).lines := by
  show Record.traceLines (clauseLogged fields).records = _
  have silent := traceLines_complaints fields
  rw [Record.traceLines] at silent
  rw [records_clauseLogged, Record.traceLines, List.filter_append, List.map_append, silent,
    Work.lines]
  cases clause fields with
  | none => rfl
  | some d => simp [Record.trace, traceLine_eq]

/-! ## One thread -/

namespace Capture

theorem foldl_record (c : Capture) (lines : List String) :
    lines.foldl record c = { c with buffer := c.buffer.map (· ++ lines) } := by
  induction lines generalizing c with
  | nil => cases h : c.buffer <;> simp [← h]
  | cons line rest ih =>
    rw [List.foldl_cons, ih, record]
    cases c.buffer <;> simp

/-- A piece of work adds its lines to a buffer that there is, and changes nothing else. -/
theorem step_work (c : Capture) (w : Work) :
    c.step w.event = (none, { c with buffer := c.buffer.map (· ++ w.lines) }) := by
  have heard (records : List Record) (same : Record.traceLines records = w.lines) :
      c.step (.work records) = (none, { c with buffer := c.buffer.map (· ++ w.lines) }) := by
    rw [← same, ← foldl_record]
    exact congrArg (Prod.mk none) (List.foldl_map ..).symm
  cases w with
  | record line => rfl
  | trace line => exact heard _ (by simp [Record.traceLines, Record.trace, Work.lines])
  | compile f => exact heard _ f.traceLines_compile
  | sort fields => exact heard _ (SortField.traceLines_clause fields)

theorem run_append (c : Capture) (events more : List Event) :
    c.run (events ++ more) =
      ((c.run events).1 ++ ((c.run events).2.run more).1, ((c.run events).2.run more).2) := by
  induction events generalizing c with
  | nil => rfl
  | cons e rest ih =>
    simp only [List.cons_append, run, ih]

theorem after_concat (c : Capture) (deeds : List Deed) (d : Deed) :
    c.after (deeds ++ [d]) = ((c.after deeds).step d.event).2 := by
  rw [after, List.map_append, run_append]
  rfl

/-- An element of a list with one more at its end is that one, or it stands before it. -/
theorem concat_eq_append_cons {α : Type} {xs earlier later : List α} {x y : α}
    (split : xs ++ [x] = earlier ++ y :: later) :
    (y = x ∧ later = []) ∨ ∃ rest, later = rest ++ [x] ∧ xs = earlier ++ y :: rest := by
  rcases List.eq_nil_or_concat' later with rfl | ⟨rest, last, rfl⟩
  · exact Or.inl ⟨(List.singleton_inj.mp (List.append_inj' split rfl).2).symm, rfl⟩
  · have regrouped : xs ++ [x] = (earlier ++ y :: rest) ++ [last] := by simpa using split
    obtain ⟨front, same⟩ := List.append_inj' regrouped rfl
    obtain rfl := List.singleton_inj.mp same
    exact Or.inr ⟨rest, rfl, front⟩

theorem listening_concat (deeds : List Deed) (d : Deed) :
    Listening (deeds ++ [d]) ↔ d = .enable ∨ Listening deeds ∧ ∀ guard, d ≠ .drop guard := by
  constructor
  · rintro ⟨earlier, since, split, kept⟩
    rcases concat_eq_append_cons split with ⟨last, _⟩ | ⟨rest, rfl, front⟩
    · exact Or.inl last.symm
    · refine Or.inr ⟨⟨earlier, rest, front, fun guard member => ?_⟩, fun guard dropped => ?_⟩
      · exact kept guard (List.mem_append_left _ member)
      · exact kept guard (by simp [dropped])
  · rintro (rfl | ⟨⟨earlier, since, rfl, kept⟩, other⟩)
    · exact ⟨deeds, [], rfl, by simp⟩
    · refine ⟨earlier, since ++ [d], by simp, fun guard member => ?_⟩
      rcases List.mem_append.mp member with before | last
      · exact kept guard before
      · exact other guard (List.mem_singleton.mp last).symm

theorem not_listening_nil : ¬ Listening [] := by
  rintro ⟨earlier, since, split, _⟩
  simp at split

theorem news_concat (deeds : List Deed) (d : Deed) :
    news (deeds ++ [d]) = if d.empties then [] else news deeds ++ d.lines := by
  rw [news, List.rtakeWhile_concat]
  cases d.empties <;> simp [news]

/-- One more deed may drop a guard that is obtained and not dropped. -/
theorem owned_concat (deeds : List Deed) (d : Deed) :
    Owned (deeds ++ [d]) ↔ Owned deeds ∧ ∀ guard, d = .drop guard →
      guard < deeds.countP Deed.isEnable ∧ .drop guard ∉ deeds := by
  constructor
  · intro owned
    constructor
    · rintro earlier guard later rfl
      exact owned earlier guard (later ++ [d]) (by simp)
    · rintro guard rfl
      exact owned deeds guard [] rfl
  · rintro ⟨owned, last⟩ earlier guard later split
    rcases concat_eq_append_cons split with ⟨same, rfl⟩ | ⟨rest, rfl, front⟩
    · obtain ⟨rfl, _⟩ := List.append_inj' split rfl
      exact last guard same.symm
    · exact owned earlier guard rest front

/-- The guards of a capture are those that its thread has obtained and not dropped. -/
structure Keeps (deeds : List Deed) (c : Capture) : Prop where
  next : c.next = deeds.countP Deed.isEnable
  distinct : c.guards.Nodup
  mem_guards : ∀ guard, guard ∈ c.guards ↔ guard < c.next ∧ .drop guard ∉ deeds

theorem Keeps.enable {deeds : List Deed} {c : Capture} (owned : Owned deeds) (keeps : Keeps deeds c) :
    Keeps (deeds ++ [.enable]) c.enable := by
  obtain ⟨next, distinct, mem_guards⟩ := keeps
  -- A guard that is not obtained yet has not been dropped.
  have fresh : .drop c.next ∉ deeds := by
    intro dropped
    obtain ⟨earlier, later, rfl⟩ := List.append_of_mem dropped
    have obtained := (owned earlier c.next later rfl).1
    rw [next, List.countP_append] at obtained
    omega
  refine ⟨?_, ?_, ?_⟩
  · simp [Capture.enable, next, Deed.isEnable]
  · refine List.nodup_cons.mpr ⟨fun known => ?_, distinct⟩
    exact absurd ((mem_guards c.next).mp known).1 (Nat.lt_irrefl _)
  · intro guard
    by_cases new : guard = c.next
    · simp [Capture.enable, new, fresh]
    · have older : guard < c.next + 1 ↔ guard < c.next := by omega
      simp [Capture.enable, new, mem_guards, older]

theorem Keeps.drop {deeds : List Deed} {c : Capture} (keeps : Keeps deeds c) (guard : Nat) :
    Keeps (deeds ++ [.drop guard]) { c with buffer := none, guards := c.guards.erase guard } := by
  obtain ⟨next, distinct, mem_guards⟩ := keeps
  refine ⟨?_, distinct.erase guard, ?_⟩
  · simp [next, Deed.isEnable]
  · intro other
    simp only [distinct.mem_erase_iff, mem_guards, List.mem_append, List.mem_singleton,
      Deed.drop.injEq, not_or]
    tauto

/-- A deed that neither enables nor drops leaves the guards alone. -/
theorem Keeps.same {deeds : List Deed} {c : Capture} (keeps : Keeps deeds c) {d : Deed}
    (notEnable : d.isEnable = false) (notDrop : ∀ guard, d ≠ .drop guard)
    (buffer : Option (List String)) : Keeps (deeds ++ [d]) { c with buffer } := by
  obtain ⟨next, distinct, mem_guards⟩ := keeps
  refine ⟨by simp [next, notEnable], distinct, fun guard => ?_⟩
  have other : Deed.drop guard ≠ d := (notDrop guard).symm
  simp [mem_guards, other]

/-- Whoever drops a guard holds it. -/
theorem Owned.held {deeds : List Deed} {guard : Nat} (owned : Owned (deeds ++ [.drop guard]))
    {c : Capture} (keeps : Keeps deeds c) : guard ∈ c.guards := by
  obtain ⟨obtained, kept⟩ := ((owned_concat deeds _).mp owned).2 guard rfl
  exact (keeps.mem_guards guard).mpr ⟨keeps.next ▸ obtained, kept⟩

theorem drop_of_held {c : Capture} {guard : Nat} (held : guard ∈ c.guards) :
    c.drop guard = { c with buffer := none, guards := c.guards.erase guard } := by
  rw [Capture.drop, if_pos (List.contains_iff_mem.mpr held)]

theorem keeps_after {deeds : List Deed} (owned : Owned deeds) :
    Keeps deeds (({} : Capture).after deeds) := by
  induction deeds using List.reverseRecOn with
  | nil => exact ⟨rfl, List.nodup_nil, by simp [after, run]⟩
  | append_singleton deeds d ih =>
    have before := ((owned_concat deeds d).mp owned).1
    have keeps := ih before
    rw [after_concat]
    cases d with
    | enable => exact keeps.enable before
    | drop guard =>
      show Keeps _ (Capture.drop _ guard)
      rw [drop_of_held (owned.held keeps)]
      exact keeps.drop guard
    | work w =>
      rw [Deed.event, step_work]
      exact keeps.same rfl (fun _ same => by cases same) _
    | drain => exact keeps.same rfl (fun _ same => by cases same) _

/-- While a thread listens its buffer holds the news, and else there is no buffer. -/
theorem buffer_after {deeds : List Deed} (owned : Owned deeds) :
    (Listening deeds → (({} : Capture).after deeds).buffer = some (news deeds)) ∧
      (¬ Listening deeds → (({} : Capture).after deeds).buffer = none) := by
  induction deeds using List.reverseRecOn with
  | nil => exact ⟨fun listening => absurd listening not_listening_nil, fun _ => rfl⟩
  | append_singleton deeds d ih =>
    have before := ((owned_concat deeds d).mp owned).1
    obtain ⟨on, off⟩ := ih before
    rw [listening_concat, news_concat, after_concat]
    cases d with
    | enable => simp [Deed.event, step, Capture.enable, Deed.empties]
    | drop guard =>
      have dropped := drop_of_held (owned.held (keeps_after before))
      simp [Deed.event, step, dropped]
    | work w =>
      rw [Deed.event, step_work]
      constructor
      · intro listening
        simp [on (by simpa using listening), Deed.empties, Deed.lines]
      · intro silent
        simp [off (by simpa using silent)]
    | drain =>
      constructor
      · intro listening
        simp [Deed.event, step, drain, on (by simpa using listening), Deed.empties]
      · intro silent
        simp [Deed.event, step, drain, off (by simpa using silent)]

/-- What a drain gives. -/
theorem drain_after {deeds : List Deed} (owned : Owned deeds) :
    (Listening deeds → (({} : Capture).after deeds).drain.1 = news deeds) ∧
      (¬ Listening deeds → (({} : Capture).after deeds).drain.1 = []) := by
  obtain ⟨on, off⟩ := buffer_after owned
  constructor
  · intro listening
    rw [drain, on listening, Option.getD_some]
  · intro silent
    rw [drain, off silent, Option.getD_none]

theorem answers_cons (c : Capture) (d : Deed) (rest : List Deed) :
    c.answers (d :: rest) = (c.step d.event).1.toList ++ (c.step d.event).2.answers rest := by
  cases told : (c.step d.event).1 <;> simp [answers, run, told]

/-- All that the drains give was in the buffer or told afterwards, each line once and in the same
order. -/
theorem answers_sublist (c : Capture) (deeds : List Deed) :
    (c.answers deeds).flatten.Sublist (c.buffer.getD [] ++ deeds.flatMap Deed.lines) := by
  induction deeds generalizing c with
  | nil => exact List.nil_sublist _
  | cons d rest ih =>
    rw [answers_cons, List.flatMap_cons]
    have later := ih (c.step d.event).2
    cases d with
    | enable => exact later.trans (List.sublist_append_right _ _)
    | drop guard =>
      have kept : (c.drop guard).buffer = none ∨ (c.drop guard).buffer = c.buffer := by
        unfold Capture.drop
        split
        · exact Or.inl rfl
        · exact Or.inr rfl
      rcases kept with off | same
      · rw [Deed.event, step, off] at later
        exact later.trans (List.sublist_append_right _ _)
      · rw [Deed.event, step, same] at later
        exact later
    | work w =>
      rw [Deed.event, step_work] at later ⊢
      cases held : c.buffer with
      | none =>
        rw [held] at later
        exact later.trans (List.sublist_append_right _ _)
      | some lines =>
        rw [held] at later
        simpa [Deed.lines] using later
    | drain =>
      have emptied : (c.step .drain).2.buffer.getD [] = [] := by
        cases held : c.buffer <;> simp [step, drain, held]
      rw [Deed.event, emptied] at later
      exact (List.Sublist.refl (c.buffer.getD [])).append later

end Capture

/-! ## All threads -/

namespace Threads

/-- A thread's capture and what its drains give are those of its own deeds. -/
theorem run_own (ts : Threads) (steps : List (Nat × Deed)) (t : Nat) :
    own t (ts.run steps).1 = (ts t).answers (own t steps) ∧
      (ts.run steps).2 t = (ts t).after (own t steps) := by
  induction steps generalizing ts with
  | nil => exact ⟨rfl, rfl⟩
  | cons entry rest ih =>
    obtain ⟨u, d⟩ := entry
    obtain ⟨told, left⟩ := ih (Function.update ts u ((ts u).step d.event).2)
    by_cases same : u = t
    · subst same
      rw [Function.update_self] at told left
      have first : own u ((u, d) :: rest) = d :: own u rest := by simp [own]
      rw [first, Capture.answers_cons, ← told]
      refine ⟨?_, left⟩
      cases h : ((ts u).step d.event).1 <;> simp [own, run, h]
    · rw [Function.update_of_ne (Ne.symm same)] at told left
      have first : own t ((u, d) :: rest) = own t rest := by simp [own, same]
      rw [first, ← told]
      refine ⟨?_, left⟩
      simp [own, run, same]

theorem run_append (ts : Threads) (steps more : List (Nat × Deed)) :
    ts.run (steps ++ more) =
      ((ts.run steps).1 ++ ((ts.run steps).2.run more).1, ((ts.run steps).2.run more).2) := by
  induction steps generalizing ts with
  | nil => rfl
  | cons entry rest ih => simp only [List.cons_append, run, ih, List.append_assoc]

/-- A drain gives what is in the buffer of its thread, behind whatever was given before. -/
theorem answers_drain (before after : List (Nat × Deed)) (t : Nat) :
    ∃ later, answers (before ++ (t, .drain) :: after) =
      answers before ++ (t, (({} : Capture).after (own t before)).drain.1) :: later := by
  obtain ⟨_, left⟩ := run_own (fun _ => {}) before t
  rw [answers, run_append, ← left]
  exact ⟨_, rfl⟩

end Threads

open Capture (Listening Owned news) in
/-- What drains give, whatever the threads do one after the other. A drain of a thread gives its
news, oldest first: the lines that its work has told since it last enabled or drained. It gives them
if the thread has enabled its sink and dropped no guard since, and else nothing. All drains of a
thread together give lines that it told, in their order and none of them twice. -/
theorem drains_tell_news (t : Nat) :
    (∀ before after : List (Nat × Deed), Owned (Threads.own t before) →
      ∃ lines later, Threads.answers (before ++ (t, .drain) :: after) =
          Threads.answers before ++ (t, lines) :: later ∧
        (Listening (Threads.own t before) → lines = news (Threads.own t before)) ∧
        (¬ Listening (Threads.own t before) → lines = [])) ∧
    ∀ steps : List (Nat × Deed), (Threads.own t (Threads.answers steps)).flatten.Sublist
      ((Threads.own t steps).flatMap Deed.lines) := by
  constructor
  · intro before after owned
    obtain ⟨later, given⟩ := Threads.answers_drain before after t
    obtain ⟨on, off⟩ := Capture.drain_after owned
    exact ⟨_, later, given, on, off⟩
  · intro steps
    rw [Threads.answers, (Threads.run_own (fun _ => {}) steps t).1]
    exact Capture.answers_sublist {} (Threads.own t steps)

/-- One guard is dropped and another one obtained. The length of the text is told in bytes, the sort
without fields and the other thread tell nothing to this one. -/
theorem drains_tell_length_in_bytes :
    let f : Filter := .single (.text "é" .equal "a")
    let before : List (Nat × Deed) := [(0, .enable), (1, .enable), (0, .drop 0), (0, .enable),
      (0, .work (.compile f)), (1, .work (.record "x")), (0, .work (.sort []))]
    Capture.Owned (Threads.own 0 before) ∧ ∃ later,
      Threads.answers (before ++ (0, .drain) :: [(0, .drain)]) = Threads.answers before ++
        (0, ["\x7b\"op\":\"compile_filter\",\"length\":23\x7d"]) :: later := by
  intro f before
  let mine : List Deed := [.enable, .drop 0, .enable, .work (.compile f), .work (.sort [])]
  have listening : Capture.Listening mine :=
    ⟨[.enable, .drop 0], [.work (.compile f), .work (.sort [])], rfl, by simp⟩
  have owned : Capture.Owned mine := by
    intro earlier guard later split
    have found : earlier = [.enable] ∧ guard = 0 ∧ later = mine.drop 2 := by
      simpa [mine, List.cons_eq_append_iff] using split
    obtain ⟨rfl, rfl, _⟩ := found
    exact ⟨by decide, by simp⟩
  have told : Capture.news mine =
      ["\x7b\"op\":\"compile_filter\",\"length\":23\x7d"] := by
    decide +kernel
  obtain ⟨lines, later, given, on, _⟩ := (drains_tell_news 0).1 before [(0, .drain)] owned
  exact ⟨owned, later, by rw [given, on listening, ← told]; rfl⟩

end DocQuery
