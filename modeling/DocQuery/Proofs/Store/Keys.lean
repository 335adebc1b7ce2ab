import DocQuery.Proofs.Store.Selection
import DocQuery.Proofs.Text.Hex
import DocQuery.Proofs.Text.Solid
/-!
# Selecting by key

A key is looked for as an object identifier if it is made of twenty-four hexadecimal digits, and as
the text that it is if not. The two literals begin differently and a quoted text tells what was
quoted, so that the text of a selection tells the key up to the case of such digits
(`byId_tells_key`). Whatever looks for a key sends the same text.
-/
namespace DocQuery

theorem quoted_inj {s t : String} (same : quoted s = quoted t) : s = t := by
  have chars := congrArg String.toList same
  rw [quoted, quoted, String.toList_ofList, String.toList_ofList] at chars
  have behind : Quoted.encode s.toList ++ [] = Quoted.encode t.toList ++ [] := by rw [chars]
  exact String.toList_inj.mp (Quoted.encode_append_inj behind).1

/-- The literal that is compared with the key of a document. -/
def keyLiteral (key : String) : String :=
  if ObjectId.Names key then "ObjectId(" ++ quoted (Text.lower key) ++ ")" else quoted key

theorem keyLiteral_eq_iff (a b : String) :
    keyLiteral a = keyLiteral b ↔
      a = b ∨ ObjectId.Names a ∧ ObjectId.Names b ∧ Text.lower a = Text.lower b := by
  have apart (s t : String) : "ObjectId(" ++ quoted s ++ ")" ≠ quoted t := by
    intro same
    have fronts := congrArg (fun text => text.toList.head?) same
    simp [quoted, Quoted.encode] at fronts
  unfold keyLiteral
  by_cases left : ObjectId.Names a
  · by_cases right : ObjectId.Names b
    · rw [if_pos left, if_pos right]
      constructor
      · intro same
        have front := String.append_left_inj ")" |>.mp same
        exact Or.inr ⟨left, right, quoted_inj (String.append_right_inj "ObjectId(" |>.mp front)⟩
      · rintro (rfl | ⟨_, _, letters⟩)
        · rfl
        · rw [letters]
    · rw [if_pos left, if_neg right]
      refine ⟨fun same => absurd same (apart _ _), ?_⟩
      rintro (rfl | ⟨_, names, _⟩)
      · exact absurd left right
      · exact absurd names right
  · by_cases right : ObjectId.Names b
    · rw [if_neg left, if_pos right]
      refine ⟨fun same => absurd same.symm (apart _ _), ?_⟩
      rintro (rfl | ⟨names, _, _⟩)
      · exact absurd right left
      · exact absurd names left
    · rw [if_neg left, if_neg right]
      refine ⟨fun same => Or.inl (quoted_inj same), ?_⟩
      rintro (rfl | ⟨names, _, _⟩)
      · rfl
      · exact absurd names left

namespace Filter

theorem compile_byId (key : String) :
    (byId key).compile = .ok ("\x7b " ++ quoted idField ++ " : \x7b " ++
      ("$eq" ++ ": " ++ keyLiteral key) ++ " \x7d \x7d") := by
  rw [compile_eq_render (wellFormed_byId key), byId, keyLiteral]
  by_cases names : ObjectId.Names key
  · obtain ⟨id, found, written⟩ := ObjectId.ofText?_of_names names
    rw [found, if_pos names, ← written]
    rfl
  · rw [ObjectId.ofText?_of_not_names names, if_neg names]
    rfl

/-- The text of a selection by key ends in the literal and a fixed rest. -/
theorem byId_texts_eq_iff {a b s t : String} (left : (byId a).compile = .ok s)
    (right : (byId b).compile = .ok t) : s = t ↔ keyLiteral a = keyLiteral b := by
  rw [compile_byId] at left right
  cases left
  cases right
  rw [String.append_left_inj, String.append_right_inj, String.append_right_inj]

end Filter

theorem Update.compileTarget_of_id {u : Update} {key : String} (given : u.id = some key) :
    u.compileTarget = (Filter.byId key).compile := by
  unfold compileTarget target
  rw [given]
  rfl

/-- The key that an operation looks for. -/
def Operation.key? {T : Type} : Operation T → Option String
  | isExistById key | getById key => some key
  | updateSet u => u.id
  | _ => none

/-- An operation that looks for a key has a plan, which selects by the key. -/
theorem Repository.plan_of_key {T : Type} [Entity T] {r : Repository}
    (dialect : r.dialect = .standard) {op : Operation T} {key text : String}
    (looks : op.key? = some key) (written : (Filter.byId key).compile = .ok text) :
    ∃ plan, (r.plan op).run.value = .ok plan ∧ plan.call.filter? = some text := by
  have selector : (r.filterText (.byId key)).run.value = .ok text := by
    show (r.dialect.compileFilter (.byId key)).value = _
    rw [dialect]
    exact (Filter.value_compileLogged _).trans written
  cases op with
  | isExistById _ | getById _ =>
    cases looks
    exact ⟨_, value_bind_of_ok selector, rfl⟩
  | updateSet u =>
    have target : u.compileTarget = .ok text := (u.compileTarget_of_id looks).trans written
    have compiled : (r.compiledUpdate u).run.value = .ok ⟨text, u.definition⟩ := by
      show (r.dialect.compileUpdate u).value = _
      rw [dialect]
      exact Dialect.value_standard_compileUpdate u target
    exact ⟨_, value_bind_of_ok compiled, rfl⟩
  | _ => cases looks

/-- Every key can be looked for. Two keys have the same text exactly if they are the same or both of
them name an object identifier and differ in the case of letters at most. An update that has a key
is aimed at this text, whatever filter it has beside the key. In every history of a repository with
the standard dialect, each operation that looks for a key makes one call, which selects by this
text. -/
theorem byId_tells_key :
    (∀ a b, ∃ s t, (Filter.byId a).compile = .ok s ∧ (Filter.byId b).compile = .ok t ∧
      (s = t ↔
        a = b ∨ ObjectId.Names a ∧ ObjectId.Names b ∧ Text.lower a = Text.lower b)) ∧
    (∀ (u : Update) (key : String), u.id = some key →
      u.compileTarget = (Filter.byId key).compile) ∧
    ∀ {σ T : Type} [Entity T] (r : Repository), r.dialect = .standard →
      ∀ (d : DualDriver σ T) (steps : List (Way × Operation T)) (s : σ),
        ∀ o ∈ r.history d steps s, ∀ key, o.operation.key? = some key →
          ∃ text, (Filter.byId key).compile = .ok text ∧ o.calls.map Call.filter? = [some text] := by
  refine ⟨?texts, fun u key given => u.compileTarget_of_id given, ?sent⟩
  case texts =>
    intro a b
    refine ⟨_, _, Filter.compile_byId a, Filter.compile_byId b, ?_⟩
    rw [Filter.byId_texts_eq_iff (Filter.compile_byId a) (Filter.compile_byId b)]
    exact keyLiteral_eq_iff a b
  case sent =>
    intro σ T _ r dialect d steps s o member key looks
    obtain ⟨w, op, t, _, rfl⟩ := Repository.mem_history member
    have wanted : op.key? = some key := looks
    have written := Filter.compile_byId key
    obtain ⟨plan, ready, selects⟩ := Repository.plan_of_key dialect wanted written
    refine ⟨_, written, ?_⟩
    rw [Repository.calls_observation, ready]
    simp [selects]

/-- One identifier in small letters and in capitals, and an update that has it beside a filter
without a shape. -/
theorem byId_tells_key_in_capitals :
    let small := "65a1b2c3d4e5f60718293a4b"
    let capital := "65A1B2C3D4E5F60718293A4B"
    let u : Update := ⟨some capital, some (.group .none []), [⟨"a", .null⟩], List.cons_ne_nil _ _⟩
    let d : DualDriver (List String) String := ⟨Entity.inMemory, Entity.inMemory.deferred⟩
    let o := ({} : Repository).observation d .later (.updateSet u) ["b"]
    u.id = some capital ∧ u.compileTarget = (Filter.byId capital).compile ∧
    (Filter.byId small).compile = (Filter.byId capital).compile ∧
    ∃ text, (Filter.byId small).compile = .ok text ∧ o.calls.map Call.filter? = [some text] := by
  intro small capital u d o
  obtain ⟨texts, targets, sent⟩ := byId_tells_key
  obtain ⟨s, t, left, right, same⟩ := texts small capital
  obtain rfl : s = t := same.mpr (Or.inr (by decide))
  obtain ⟨text, written, calls⟩ :=
    sent {} rfl d [(.later, .updateSet u)] ["b"] o List.mem_cons_self capital rfl
  cases right.symm.trans written
  exact ⟨rfl, targets u capital rfl, left.trans right.symm, s, left, calls⟩

end DocQuery
