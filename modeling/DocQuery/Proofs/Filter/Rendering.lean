import DocQuery.Filter.Compile
import DocQuery.Proofs.Filter.Shape
/-!
# Compiling filters

Compiling checks the whole tree and then writes it. The main result, `compile_compositional`, says
for which filters there is a text, that the text of a group is made of the texts that its children
have as filters of their own, and which report stands in the place of a text. Since the check comes
first the writer never meets a group without an operator.
-/
namespace DocQuery

theorem Connective.exists_token {op : Connective} (real : op ≠ .none) :
    ∃ token, op.token? = some token := by
  cases op with
  | none => exact absurd rfl real
  | and => exact ⟨_, rfl⟩
  | or => exact ⟨_, rfl⟩
  | not => exact ⟨_, rfl⟩
  | nor => exact ⟨_, rfl⟩

/-- A comparison with its key and what stands behind the operator as they are written. -/
def comparisonText (key token operand : String) : String :=
  "\x7b " ++ key ++ " : \x7b " ++ token ++ ": " ++ operand ++ " \x7d \x7d"

theorem Predicate.body_of_scalar {p : Predicate} {token : String}
    (scalar : p.comparison.token = .scalar token) : p.body = token ++ ": " ++ p.literal := by
  rw [body, scalar]

namespace Condition

theorem renderAll_eq_ok_iff (cs : List Condition) (texts : List String) :
    renderAll cs = .ok texts ↔ cs.map render = texts.map .ok :=
  walk_eq_ok_iff renderAll rfl (fun _ _ => rfl) cs texts

theorem render_group_eq_ok_iff (op : Connective) (children : List Condition) (text : String) :
    (Condition.group op children).render = .ok text ↔
      ∃ token texts, op.token? = some token ∧ children.map render = texts.map .ok ∧
        text = "\x7b " ++ token ++ " : [ " ++ ",".intercalate texts ++ " ] \x7d" := by
  simp only [render, bind_eq_ok_iff, renderAll_eq_ok_iff, renderGroup]
  constructor
  · rintro ⟨texts, below, written⟩
    split at written
    next token found =>
      cases written
      exact ⟨token, texts, found, below, rfl⟩
    next => cases written
  · rintro ⟨token, texts, found, below, rfl⟩
    exact ⟨texts, below, by rw [found]⟩

/-- What is well formed can be written. -/
theorem exists_render {c : Condition} (h : c.WellFormed) : ∃ text, c.render = .ok text := by
  induction c using treeInduction with
  | leaf p => exact ⟨p.render, rfl⟩
  | group op children ih =>
    obtain ⟨⟨real, _⟩, below⟩ := (wellFormed_group op children).mp h
    obtain ⟨token, found⟩ := Connective.exists_token real
    obtain ⟨texts, written⟩ := exists_results fun c member => ih c member (below c member)
    exact ⟨_, (render_group_eq_ok_iff op children _).mpr ⟨token, texts, found, written, rfl⟩⟩

end Condition

namespace Filter

theorem render_eq_root (f : Filter) : f.render = f.root.render := by
  cases f <;> simp [render, root, Condition.render]

theorem compile_eq_ok_iff (f : Filter) (text : String) :
    f.compile = .ok text ↔ f.root.WellFormed ∧ f.root.render = .ok text := by
  rw [compile, check_then_eq_ok_iff, check_eq_ok_iff, render_eq_root]

theorem exists_compile_iff (f : Filter) : (∃ text, f.compile = .ok text) ↔ f.root.WellFormed := by
  simp only [compile_eq_ok_iff]
  constructor
  · rintro ⟨_, h, _⟩
    exact h
  · intro h
    obtain ⟨text, written⟩ := Condition.exists_render h
    exact ⟨text, h, written⟩

/-- Behind the check the text is what the writer gives. -/
theorem compile_eq_render {f : Filter} (h : f.root.WellFormed) : f.compile = f.root.render := by
  obtain ⟨text, written⟩ := Condition.exists_render h
  rw [written]
  exact (compile_eq_ok_iff f text).mpr ⟨h, written⟩

theorem compile_leaf {p : Predicate} (named : p.parameter ≠ "") :
    (single (.leaf p)).compile = .ok p.render :=
  compile_eq_render (f := single (.leaf p)) ((Condition.wellFormed_leaf p).mpr named)

/-- Whatever the operator is applied to stands behind the quoted name of the field. -/
theorem compile_of_body {p : Predicate} {token operand : String} (named : p.parameter ≠ "")
    (body : p.body = token ++ ": " ++ operand) :
    (single (.leaf p)).compile = .ok (comparisonText (quoted p.parameter) token operand) := by
  rw [compile_leaf named, Predicate.render, body, comparisonText]
  simp only [String.append_assoc]

theorem compile_error_iff (f : Filter) (e : Failure) :
    f.compile = .error e ↔ ¬ f.root.WellFormed ∧
      e = .structural (.unusable (if f.RootUnusable then .filter else .condition)) := by
  constructor
  · intro failed
    have bad : ¬ f.root.WellFormed := by
      intro h
      obtain ⟨text, success⟩ := (exists_compile_iff f).mpr h
      rw [success] at failed
      cases failed
    rcases bind_eq_error_iff.mp failed with checked | ⟨_, passed, _⟩
    · exact ⟨bad, check_error f e checked⟩
    · exact absurd ((check_eq_ok_iff f).mp passed) bad
  · rintro ⟨bad, rfl⟩
    cases checked : f.check with
    | ok _ => exact absurd ((check_eq_ok_iff f).mp checked) bad
    | error e =>
      rw [← check_error f e checked, compile, checked]
      rfl

/-- A group inside a well formed filter is written around the texts of its children. -/
theorem compile_node {f : Filter} (h : f.root.WellFormed) {op : Connective}
    {children : List Condition} (member : .group op children ∈ f.root.nodes) :
    ∃ token texts, op.token? = some token ∧
      children.map (fun c => (single c).compile) = texts.map .ok ∧
      (single (.group op children)).compile =
        .ok ("\x7b " ++ token ++ " : [ " ++ ",".intercalate texts ++ " ] \x7d") := by
  have node := h.node member
  obtain ⟨_, below⟩ := (Condition.wellFormed_group op children).mp node
  obtain ⟨text, written⟩ := Condition.exists_render node
  obtain ⟨token, texts, found, rendered, rfl⟩ :=
    (Condition.render_group_eq_ok_iff op children text).mp written
  have same : children.map (fun c => (single c).compile) = children.map Condition.render :=
    List.map_congr_left fun c child => compile_eq_render (f := .single c) (below c child)
  exact ⟨token, texts, found, same.trans rendered,
    (compile_eq_ok_iff _ _).mpr ⟨node, written⟩⟩

/-- There is a text exactly if every node is in order. The filter then has the text of its root, and
every group in it is written around the texts of its children, which each child has as a filter of
its own. Every other filter is refused with a report about its shape, which speaks of the filter if
its root is itself a bad group and of a condition if not; it is never the writer's own. -/
theorem compile_compositional (f : Filter) :
    ((∃ text, f.compile = .ok text) ↔ ∀ n ∈ f.root.nodes, n.Usable) ∧
    ((∀ n ∈ f.root.nodes, n.Usable) →
      f.compile = (single f.root).compile ∧
      ∀ op children, .group op children ∈ f.root.nodes →
        ∃ token texts, op.token? = some token ∧
          children.map (fun c => (single c).compile) = texts.map .ok ∧
          (single (.group op children)).compile =
            .ok ("\x7b " ++ token ++ " : [ " ++ ",".intercalate texts ++ " ] \x7d")) ∧
    (¬ (∀ n ∈ f.root.nodes, n.Usable) →
      ∃ fault, f.compile = .error (.structural fault) ∧ fault ≠ .noToken ∧
        ("filter should".toList <+: fault.message.toList ↔ f.RootUnusable) ∧
        ("condition should".toList <+: fault.message.toList ↔ ¬ f.RootUnusable)) := by
  refine ⟨exists_compile_iff f, ?_, ?_⟩
  · intro h
    refine ⟨?_, fun op children member => compile_node h member⟩
    rw [compile_eq_render h, compile_eq_render (f := .single f.root) h]
    rfl
  · intro bad
    refine ⟨_, (compile_error_iff f _).mpr ⟨bad, rfl⟩, by simp, ?_⟩
    by_cases rootBad : f.RootUnusable
    · simp only [rootBad]
      decide
    · simp only [rootBad]
      decide

/-- Groups in a group: one with an operator, and one without. -/
theorem compile_nested_groups :
    let a : Condition := .leaf ⟨"a", .string, .greaterThan, .string "5"⟩
    let b : Condition := .leaf ⟨"b", .string, .isIn, .array [.string "x", .null]⟩
    let groups (inner : Connective) : Filter := .group .or [a, .group inner [b, a]]
    let first := "\x7b \"a\" : \x7b $gt: \"5\" \x7d \x7d"
    let second :=
      "\x7b $nor : [ \x7b \"b\" : \x7b $in: [\"x\",null] \x7d \x7d," ++ first ++ " ] \x7d"
    (single a).compile = .ok first ∧ (single (.group .nor [b, a])).compile = .ok second ∧
      (groups .nor).compile =
        .ok ("\x7b $or : [ " ++ ",".intercalate [first, second] ++ " ] \x7d") ∧
      ∃ fault, (groups .none).compile = .error (.structural fault) ∧ fault ≠ .noToken ∧
        "condition should".toList <+: fault.message.toList := by
  intro a b groups first second
  have outside : (single a).compile = .ok first := rfl
  have inside : (single (.group .nor [b, a])).compile = .ok second := rfl
  obtain ⟨usable, parts, _⟩ := compile_compositional (groups .nor)
  obtain ⟨unusable, _, report⟩ := compile_compositional (groups .none)
  refine ⟨outside, inside, ?_, ?_⟩
  · obtain ⟨same, each⟩ := parts (usable.mp ⟨_, rfl⟩)
    obtain ⟨token, texts, found, children, written⟩ :=
      each .or [a, .group .nor [b, a]] (by simp [groups, root, Condition.nodes])
    cases found
    obtain rfl : texts = [first, second] := by
      rw [List.map_cons, List.map_cons, outside, inside] at children
      exact (List.map_inj_right fun _ _ => Except.ok.inj).mp children.symm
    exact same.trans written
  · have refused : ¬ ∃ text, (groups .none).compile = .ok text := by
      rintro ⟨text, written⟩
      cases written
    obtain ⟨fault, failed, noToken, _, speaks⟩ := report fun all => refused (unusable.mpr all)
    refine ⟨fault, failed, noToken, speaks.mpr fun rootBad => ?_⟩
    simp only [groups, RootUnusable] at rootBad
    exact rootBad ⟨by decide, List.cons_ne_nil _ _⟩

end Filter
end DocQuery
