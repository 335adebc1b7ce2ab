import DocQuery.Proofs.Filter.Literal
import DocQuery.Proofs.Filter.Rendering
/-!
# Texts of filters are uniquely readable

The skeleton of a filter is what its text tells: the tree of its groups, and for each comparison the
parameter, the operator and the text that it is applied to. If every comparison is delimited, the
text gives the skeleton back (`Filter.skeleton_eq_of_compile_eq`), so that no parameter and no value
can pass for a part of the query around it.

The induction is over one of the two trees and about texts at the front of longer ones: a text ends
where it seems to end, whatever follows.
-/
namespace DocQuery

inductive Skeleton where
  | leaf (parameter operator operand : String)
  | group (op : Connective) (children : List Skeleton)

/-- The operator of every pattern. -/
def patternOperator : String := "$regex"

theorem Comparison.token_ne_patternOperator {comparison : Comparison} {token : String}
    (h : comparison.token = .scalar token ∨ comparison.token = .set token) :
    token ≠ patternOperator := by
  cases comparison <;> simp [Comparison.token] at h <;> rw [← h] <;> decide

theorem PatternShape.bar_notMem_pattern (shape : PatternShape) {raw : String}
    (h : '/' ∉ raw.toList) : '/' ∉ (shape.pattern raw).toList := by
  cases shape <;> simp [PatternShape.pattern, h]

namespace Predicate

def operator (p : Predicate) : String :=
  match p.comparison.token with
  | .scalar token => token
  | .set token => token
  | .pattern _ => patternOperator

/-- The text that the operator is applied to: a literal, a list, or a pattern without its bars. -/
def operand (p : Predicate) : String :=
  match p.comparison.token with
  | .scalar _ => p.literal
  | .set _ => p.value.text
  | .pattern shape => shape.pattern p.value.text

/-- Nothing in the value can end the comparison early. Literals see to that themselves; membership
wants a list, since a text would stand there as it is, and a pattern a text without a bar. -/
def Delimited (p : Predicate) : Prop :=
  match p.comparison.token with
  | .scalar _ => True
  | .set _ => ∃ items, p.value = .array items
  | .pattern _ => '/' ∉ p.value.text.toList

theorem colon_notMem_operator (p : Predicate) : ':' ∉ p.operator.toList := by
  unfold operator
  cases p.comparison <;> decide

/-- The two ways in which the operand of a delimited comparison ends: at the first bar, or at the
first blank outside quotes. -/
theorem Delimited.body_cases {p : Predicate} (h : p.Delimited) :
    (p.operator = patternOperator ∧ '/' ∉ p.operand.toList ∧
      p.body.toList = p.operator.toList ++ ':' :: ' ' :: '/' :: p.operand.toList ++
        '/' :: (", $options: '" ++ patternOptions ++ "'").toList) ∨
    (p.operator ≠ patternOperator ∧ Solid p.operand.toList ∧
      p.body.toList = p.operator.toList ++ ':' :: ' ' :: p.operand.toList) := by
  unfold Delimited at h
  unfold operator operand body
  cases found : p.comparison.token with
  | scalar token =>
    refine Or.inr ⟨Comparison.token_ne_patternOperator (Or.inl found), p.solid_literal, ?_⟩
    simp
  | set token =>
    rw [found] at h
    obtain ⟨items, same⟩ := h
    refine Or.inr ⟨Comparison.token_ne_patternOperator (Or.inr found), ?_, ?_⟩
    · rw [same]
      exact Value.solid_array_text items
    · simp
  | pattern shape =>
    rw [found] at h
    refine Or.inl ⟨rfl, shape.bar_notMem_pattern h, ?_⟩
    simp [patternOperator]

theorem exists_toList_body (p : Predicate) :
    ∃ rest, p.body.toList = p.operator.toList ++ ':' :: rest := by
  unfold operator body
  cases p.comparison.token <;> simp [patternOperator]

/-- What stands between the inner braces of a comparison, at the front of a longer text. -/
theorem body_append_inj {p q : Predicate} (left : p.Delimited) (right : q.Delimited)
    {r s : List Char} (h : p.body.toList ++ ' ' :: r = q.body.toList ++ ' ' :: s) :
    p.operator = q.operator ∧ p.operand = q.operand ∧ r = s := by
  have operators : p.operator = q.operator := by
    obtain ⟨u, front⟩ := p.exists_toList_body
    obtain ⟨v, front'⟩ := q.exists_toList_body
    rw [front, front', List.append_assoc, List.append_assoc] at h
    have names := append_separator_inj p.colon_notMem_operator q.colon_notMem_operator h
    exact String.toList_inj.mp names.1
  rcases left.body_cases with ⟨pattern, noBar, written⟩ | ⟨plain, solid, written⟩
  · rcases right.body_cases with ⟨_, noBar', written'⟩ | ⟨plain', _, _⟩
    · rw [written, written', operators] at h
      simp only [List.append_assoc, List.cons_append] at h
      have bars := List.append_cancel_left h
      simp only [List.cons.injEq, true_and] at bars
      obtain ⟨operands, options⟩ := append_separator_inj noBar noBar' bars
      have rest := (List.cons.inj (List.append_cancel_left options)).2
      exact ⟨operators, String.toList_inj.mp operands, rest⟩
    · exact absurd (operators.symm.trans pattern) plain'
  · rcases right.body_cases with ⟨pattern', _, _⟩ | ⟨_, solid', written'⟩
    · exact absurd (operators.trans pattern') plain
    · rw [written, written', operators] at h
      simp only [List.append_assoc, List.cons_append] at h
      have literals := List.append_cancel_left h
      simp only [List.cons.injEq, true_and] at literals
      obtain ⟨operands, rest⟩ := solid.append_blank_inj solid' literals
      exact ⟨operators, String.toList_inj.mp operands, rest⟩

def skeleton (p : Predicate) : Skeleton :=
  .leaf p.parameter p.operator p.operand

theorem toList_render (p : Predicate) :
    p.render.toList = '{' :: ' ' :: Quoted.encode p.parameter.toList ++
      " : \x7b ".toList ++ p.body.toList ++ " \x7d \x7d".toList := by
  simp [render, quoted]

theorem render_append_inj {p q : Predicate} (left : p.Delimited) (right : q.Delimited)
    {r s : List Char} (h : p.render.toList ++ r = q.render.toList ++ s) :
    p.skeleton = q.skeleton ∧ r = s := by
  simp only [toList_render, List.append_assoc, List.cons_append, List.cons.injEq, true_and] at h
  obtain ⟨parameters, behind⟩ := Quoted.encode_append_inj h
  obtain ⟨operators, operands, rest⟩ := body_append_inj left right (List.append_cancel_left behind)
  have braces : "\x7d \x7d".toList ++ r = "\x7d \x7d".toList ++ s := rest
  refine ⟨?_, List.append_cancel_left braces⟩
  rw [skeleton, skeleton, String.toList_inj.mp parameters, operators, operands]

end Predicate

theorem Connective.eq_of_token?_eq {op other : Connective} (h : op.token? = other.token?) :
    op = other := by
  revert h
  cases op <;> cases other <;> decide

/-- The word that names a group starts with a dollar sign and is followed by a blank. -/
theorem Connective.token_shape {op : Connective} {token : String} (h : op.token? = some token) :
    (∃ name, token.toList = '$' :: name) ∧ ' ' ∉ token.toList := by
  cases op <;> simp [Connective.token?] at h <;> rw [← h] <;> exact ⟨⟨_, rfl⟩, by decide⟩

namespace Condition

mutual

def skeleton : Condition → Skeleton
  | .leaf p => p.skeleton
  | .group op children => .group op (skeletons children)

def skeletons : List Condition → List Skeleton
  | [] => []
  | c :: rest => skeleton c :: skeletons rest

end

/-- Every comparison in the condition is delimited. -/
def Readable (c : Condition) : Prop :=
  ∀ p ∈ c.leaves, p.Delimited

theorem readable_leaf (p : Predicate) : (Condition.leaf p).Readable ↔ p.Delimited := by
  simp [Readable, leaves_leaf]

theorem readable_group (op : Connective) (children : List Condition) :
    (Condition.group op children).Readable ↔ ∀ c ∈ children, c.Readable := by
  simp only [Readable, leaves_group, List.mem_flatMap]
  constructor
  · intro h c member p inside
    exact h p ⟨c, member, inside⟩
  · rintro h p ⟨c, member, inside⟩
    exact h c member p inside

/-- Where the text of the condition begins a longer text, any other reading of the front agrees in
the skeleton and in what follows. -/
def ReadBack (c : Condition) : Prop :=
  ∀ d : Condition, d.Readable → ∀ text other, c.render = .ok text → d.render = .ok other →
    ∀ r s, text.toList ++ r = other.toList ++ s → c.skeleton = d.skeleton ∧ r = s

/-- The text of a group: its word comes first, its children follow. -/
theorem toList_render_group {op : Connective} {children : List Condition} {text : String}
    (h : (Condition.group op children).render = .ok text) :
    ∃ token texts, op.token? = some token ∧ children.map render = texts.map .ok ∧
      text.toList = '{' :: ' ' :: token.toList ++ ' ' :: ": [ ".toList ++
        (",".intercalate texts).toList ++ ' ' :: "] \x7d".toList := by
  obtain ⟨token, texts, found, below, rfl⟩ := (render_group_eq_ok_iff op children text).mp h
  exact ⟨token, texts, found, below, by simp⟩

theorem exists_toList_render {c : Condition} {text : String} (h : c.render = .ok text) :
    ∃ rest, text.toList = '{' :: rest := by
  cases c with
  | leaf p =>
    cases h
    exact ⟨_, p.toList_render⟩
  | group op children =>
    obtain ⟨_, _, _, _, written⟩ := toList_render_group h
    exact ⟨_, written⟩

theorem exists_toList_intercalate {cs : List Condition} {text : String} {texts : List String}
    (h : cs.map render = (text :: texts).map .ok) :
    ∃ rest, (",".intercalate (text :: texts)).toList = '{' :: rest := by
  obtain ⟨c, _, _, first, _⟩ := List.map_eq_cons_iff.mp h
  obtain ⟨rest, brace⟩ := exists_toList_render first
  cases texts with
  | nil =>
    rw [String.intercalate_singleton]
    exact ⟨rest, brace⟩
  | cons next others =>
    rw [String.intercalate_cons_cons, String.toList_append, String.toList_append, brace]
    exact ⟨_, rfl⟩

/-- Texts each with a comma before it. -/
def following (texts : List String) : List Char :=
  texts.flatMap fun text => ',' :: text.toList

theorem following_cons (text : String) (texts : List String) :
    following (text :: texts) = ',' :: (",".intercalate (text :: texts)).toList := by
  induction texts generalizing text with
  | nil => simp [following]
  | cons next rest ih =>
    have tail : following (text :: next :: rest) = ',' :: text.toList ++ following (next :: rest) :=
      List.flatMap_cons
    rw [tail, ih, String.intercalate_cons_cons, String.toList_append, String.toList_append]
    simp

/-- Each child is found behind its comma, and the end of the last one before the blank. -/
theorem readBack_following {cs ds : List Condition} {texts others : List String} {r s : List Char}
    (each : ∀ c ∈ cs, c.ReadBack) (readable : ∀ d ∈ ds, d.Readable)
    (left : cs.map render = texts.map .ok) (right : ds.map render = others.map .ok)
    (h : following texts ++ ' ' :: r = following others ++ ' ' :: s) :
    skeletons cs = skeletons ds ∧ r = s := by
  induction cs generalizing ds texts others with
  | nil =>
    obtain rfl := List.map_eq_nil_iff.mp left.symm
    cases ds with
    | nil =>
      obtain rfl := List.map_eq_nil_iff.mp right.symm
      exact ⟨rfl, (List.cons.inj h).2⟩
    | cons d ds =>
      obtain ⟨other, others, rfl, _, _⟩ := List.map_eq_cons_iff.mp right.symm
      exact absurd (List.cons.inj h).1 (by decide)
  | cons c cs ih =>
    obtain ⟨text, texts, rfl, first, behind⟩ := List.map_eq_cons_iff.mp left.symm
    cases ds with
    | nil =>
      obtain rfl := List.map_eq_nil_iff.mp right.symm
      exact absurd (List.cons.inj h).1 (by decide)
    | cons d ds =>
      obtain ⟨other, others, rfl, first', behind'⟩ := List.map_eq_cons_iff.mp right.symm
      obtain ⟨self, below⟩ := List.forall_mem_cons.mp each
      obtain ⟨readableFirst, readableRest⟩ := List.forall_mem_cons.mp readable
      simp only [following, List.flatMap_cons, List.append_assoc, List.cons_append, List.cons.injEq,
        true_and] at h
      obtain ⟨heads, after⟩ := self d readableFirst text other first.symm first'.symm _ _ h
      obtain ⟨tails, rest⟩ := ih below readableRest behind.symm behind'.symm after
      exact ⟨by rw [skeletons, skeletons, heads, tails], rest⟩

/-- The children of two groups. The first child has no comma before it, so that a group without
children is told apart by the brace with which a child begins. -/
theorem readBack_siblings {cs ds : List Condition} {texts others : List String} {r s : List Char}
    (each : ∀ c ∈ cs, c.ReadBack) (readable : ∀ d ∈ ds, d.Readable)
    (left : cs.map render = texts.map .ok) (right : ds.map render = others.map .ok)
    (h : (",".intercalate texts).toList ++ ' ' :: r =
      (",".intercalate others).toList ++ ' ' :: s) :
    skeletons cs = skeletons ds ∧ r = s := by
  cases texts with
  | nil =>
    cases others with
    | nil => exact readBack_following each readable left right h
    | cons other others =>
      obtain ⟨_, brace⟩ := exists_toList_intercalate right
      rw [brace] at h
      exact absurd (List.cons.inj h).1 (by decide)
  | cons text texts =>
    cases others with
    | nil =>
      obtain ⟨_, brace⟩ := exists_toList_intercalate left
      rw [brace] at h
      exact absurd (List.cons.inj h).1 (by decide)
    | cons other others =>
      apply readBack_following each readable left right
      rw [following_cons, following_cons, List.cons_append, List.cons_append, h]

/-- Texts of readable conditions are self-delimiting. A comparison and a group differ in the first
character behind the brace. -/
theorem Readable.readBack {c : Condition} (h : c.Readable) : c.ReadBack := by
  induction c using treeInduction with
  | leaf p =>
    intro d readable text other left right r s same
    cases left
    cases d with
    | leaf q =>
      cases right
      exact Predicate.render_append_inj ((readable_leaf p).mp h) ((readable_leaf q).mp readable)
        same
    | group op children =>
      obtain ⟨token, others, found, _, written⟩ := toList_render_group right
      obtain ⟨⟨name, dollar⟩, _⟩ := Connective.token_shape found
      rw [Predicate.toList_render, written, dollar] at same
      exact absurd (List.cons.inj (List.cons.inj (List.cons.inj same).2).2).1 (by decide)
  | group op children ih =>
    intro d readable text other left right r s same
    obtain ⟨token, texts, found, below, written⟩ := toList_render_group left
    obtain ⟨⟨name, dollar⟩, noBlank⟩ := Connective.token_shape found
    cases d with
    | leaf q =>
      cases right
      rw [Predicate.toList_render, written, dollar] at same
      exact absurd (List.cons.inj (List.cons.inj (List.cons.inj same).2).2).1 (by decide)
    | group op' children' =>
      obtain ⟨token', others, found', below', written'⟩ := toList_render_group right
      rw [written, written'] at same
      simp only [List.append_assoc, List.cons_append, List.cons.injEq, true_and] at same
      obtain ⟨tokens, behind⟩ :=
        append_separator_inj noBlank (Connective.token_shape found').2 same
      have each : ∀ c ∈ children, c.ReadBack := fun c member =>
        ih c member ((readable_group op children).mp h c member)
      obtain ⟨siblings, rest⟩ := readBack_siblings each ((readable_group op' children').mp readable)
        below below' (List.append_cancel_left behind)
      have ops : op = op' :=
        Connective.eq_of_token?_eq (by rw [found, found', String.toList_inj.mp tokens])
      exact ⟨by rw [skeleton, skeleton, ops, siblings], List.append_cancel_left rest⟩

end Condition

namespace Filter

/-- Every comparison in the filter is delimited. -/
def Readable (f : Filter) : Prop :=
  ∀ p ∈ f.leaves, p.Delimited

/-- A group at the root has the skeleton that it has as a condition. -/
def skeleton (f : Filter) : Skeleton :=
  f.root.skeleton

/-- Two readable filters with the same text have the same skeleton: the same groups in the same
order and, place by place, the same parameter, operator and operand. -/
theorem skeleton_eq_of_compile_eq {f g : Filter} {text : String} (left : f.Readable)
    (right : g.Readable) (compiled : f.compile = .ok text) (other : g.compile = .ok text) :
    f.skeleton = g.skeleton := by
  have first := ((compile_eq_ok_iff f text).mp compiled).2
  have second := ((compile_eq_ok_iff g text).mp other).2
  have readBack : f.root.ReadBack := Condition.Readable.readBack left
  exact (readBack g.root right text text first second [] [] rfl).1

/-- Conditions whose names and values look like parts of a query. -/
def deceptive (value : Value) : List Condition :=
  [.leaf ⟨"a\" : \x7b", .string, .equal, value⟩,
    .leaf ⟨"b", .string, .isIn, .array [.string "] \x7d", .null]⟩,
    .leaf ⟨"c", .string, .endWith, .string "\" \x7d,"⟩]

def deceptiveText : String :=
  "\x7b $and : [ \x7b \"a\\\" : \x7b\" : \x7b $eq: \"true\" \x7d \x7d," ++
    "\x7b \"b\" : \x7b $in: [\"] \x7d\",null] \x7d \x7d," ++
    "\x7b \"c\" : \x7b $regex: /\" \x7d,$/, $options: 'im' \x7d \x7d ] \x7d"

theorem skeleton_of_deceptive :
    (group .and (deceptive (.bool true))).compile = .ok deceptiveText ∧
    (single (.group .and (deceptive (.string "true")))).compile = .ok deceptiveText ∧
    (group .and (deceptive (.bool true))).skeleton =
      (single (.group .and (deceptive (.string "true")))).skeleton := by
  have readable (value : Value) : (group .and (deceptive value)).Readable := by
    simp [Readable, leaves, root, deceptive, Condition.leaves_group, Condition.leaves_leaf,
      Predicate.Delimited, Comparison.token, Value.text]
  have first : (group .and (deceptive (.bool true))).compile = .ok deceptiveText := rfl
  have second : (single (.group .and (deceptive (.string "true")))).compile =
      .ok deceptiveText := rfl
  exact ⟨first, second,
    skeleton_eq_of_compile_eq (readable (.bool true)) (readable (.string "true")) first second⟩

end Filter
end DocQuery
