import DocQuery.Proofs.Json.Double
import DocQuery.Proofs.Text.Quoted
/-!
# Written JSON read back

The text of a value is read back as the same tree: the same arrays, the same members in the same
order, the same texts. Only numbers are taken anew from their numerals, since reading a double is
not exact, and what has no text of its own has become null (`read?_text_append`). A value of which
all numbers are integers of sixty-four bits is read back as it is.
-/
namespace DocQuery.Json

mutual

/-- What the text of a value is read as. -/
def reread : Json → Json
  | .null => .null
  | .bool b => .bool b
  | .string s => .string s
  | .int i => (Numeral.ofInt i).value
  | .double x =>
    match numeral? x.jsonText.toList with
    | some (n, _) => n.value
    | none => .null
  | .array items => .array (rereadItems items)
  | .object members => .object (rereadMembers members)
  | .rough _ => .null
  | .unusable => .null

def rereadItems : List Json → List Json
  | [] => []
  | j :: rest => reread j :: rereadItems rest

def rereadMembers : List (String × Json) → List (String × Json)
  | [] => []
  | (name, j) :: rest => (name, reread j) :: rereadMembers rest

end

theorem rereadItems_eq_map (items : List Json) : rereadItems items = items.map reread := by
  induction items with
  | nil => rfl
  | cons j rest ih => rw [rereadItems, ih, List.map_cons]

theorem rereadMembers_eq_map (members : List (String × Json)) :
    rereadMembers members = members.map fun m => (m.1, m.2.reread) := by
  induction members with
  | nil => rfl
  | cons m rest ih => rw [rereadMembers, ih, List.map_cons]

theorem reread_int {i : Int} (low : -9223372036854775808 ≤ i) (high : i ≤ 18446744073709551615) :
    (Json.int i).reread = .int i :=
  Numeral.value_ofInt low high

theorem reread_array {items : List Json} (each : ∀ j ∈ items, j.reread = j) :
    (Json.array items).reread = .array items := by
  rw [reread, rereadItems_eq_map, List.map_congr_left each, List.map_id']

theorem reread_object {members : List (String × Json)} (each : ∀ m ∈ members, m.2.reread = m.2) :
    (Json.object members).reread = .object members := by
  have same : ∀ m ∈ members, (m.1, m.2.reread) = m := fun m member => by rw [each m member]
  rw [reread, rereadMembers_eq_map, List.map_congr_left same, List.map_id']

/-- Texts with commas between them. -/
def joined (texts : List String) : List Char :=
  (",".intercalate texts).toList

theorem joined_singleton (t : String) : joined [t] = t.toList := by
  rw [joined, String.intercalate_singleton]

theorem joined_cons_cons (t u : String) (rest : List String) :
    joined (t :: u :: rest) = t.toList ++ ',' :: joined (u :: rest) := by
  rw [joined, String.intercalate_cons_cons, String.toList_append, String.toList_append,
    List.append_assoc]
  rfl

theorem toList_array (items : List Json) :
    (Json.array items).text.toList = '[' :: (joined (itemTexts items) ++ [']']) := by
  rw [text, String.toList_append, String.toList_append]
  rfl

theorem toList_object (members : List (String × Json)) :
    (Json.object members).text.toList = '\x7b' :: (joined (memberTexts members) ++ ['\x7d']) := by
  rw [text, String.toList_append, String.toList_append]
  rfl

theorem toList_member (name : String) (j : Json) :
    (quoted name ++ ":" ++ j.text).toList = Quoted.encode name.toList ++ ':' :: j.text.toList := by
  rw [String.toList_append, String.toList_append, quoted, String.toList_ofList, List.append_assoc]
  rfl

/-- The character is no blank and does not close an array. -/
def Opens (c : Char) : Prop :=
  isSpace c = false ∧ c ≠ ']'

theorem Numeral.exists_head {n : Numeral} (proper : n.Proper) :
    ∃ c rest, n.text = c :: rest ∧ (c = '-' ∨ Decimal.isDigit c = true) := by
  obtain ⟨d, more, shape⟩ := List.exists_cons_of_ne_nil proper.whole.1
  have digit : Decimal.isDigit d = true := proper.whole.2 d (by simp [shape])
  unfold text
  cases n.negative with
  | true => exact ⟨'-', _, rfl, Or.inl rfl⟩
  | false => exact ⟨d, _, by rw [shape]; rfl, Or.inr digit⟩

/-- The front of a numeral is none of the characters with which other values begin. -/
theorem front_ne {c : Char} (front : c = '-' ∨ Decimal.isDigit c = true) {d : Char}
    (sign : d ≠ '-') (digit : Decimal.isDigit d = false) : c ≠ d := by
  rintro rfl
  rcases front with dash | isDigit
  · exact sign dash
  · rw [digit] at isDigit
    cases isDigit

theorem opens_of_front {c : Char} (front : c = '-' ∨ Decimal.isDigit c = true) : Opens c := by
  have blank : c ≠ ' ' := front_ne front (by decide) (by decide)
  have feed : c ≠ '\n' := front_ne front (by decide) (by decide)
  have tab : c ≠ '\t' := front_ne front (by decide) (by decide)
  have start : c ≠ '\r' := front_ne front (by decide) (by decide)
  exact ⟨by simp [isSpace, blank, feed, tab, start], front_ne front (by decide) (by decide)⟩

/-- A numeral is read wherever a value may stand. -/
theorem value?_numeral {n : Numeral} (proper : n.Proper) {rest : List Char}
    (ends : EndsNumeral rest) (fuel : Nat) :
    value? (fuel + 1) (n.text ++ rest) = some (n.value, rest) := by
  have found := Numeral.numeral?_text proper ends
  obtain ⟨c, more, shape, front⟩ := Numeral.exists_head proper
  rw [shape, List.cons_append] at found ⊢
  rw [value?, skipSpace_cons (opens_of_front front).1]
  split
  next none => cases none
  next same => exact absurd (List.cons.inj same).1 (front_ne front (by decide) (by decide))
  next same => exact absurd (List.cons.inj same).1 (front_ne front (by decide) (by decide))
  next same => exact absurd (List.cons.inj same).1 (front_ne front (by decide) (by decide))
  next same => exact absurd (List.cons.inj same).1 (front_ne front (by decide) (by decide))
  next same => exact absurd (List.cons.inj same).1 (front_ne front (by decide) (by decide))
  next same => exact absurd (List.cons.inj same).1 (front_ne front (by decide) (by decide))
  next =>
    rw [found]
    rfl

/-- A double is written as a numeral or as null. -/
theorem double_cases (x : Binary64) :
    (x.jsonText = "null" ∧ (Json.double x).reread = .null) ∨
    ∃ n : Numeral, n.Proper ∧ x.jsonText.toList = n.text ∧ (Json.double x).reread = n.value := by
  cases finite : x.isFinite with
  | false =>
    have none : x.jsonText = "null" := by simp [Binary64.jsonText, finite]
    refine Or.inl ⟨none, ?_⟩
    rw [reread, none]
    rfl
  | true =>
    obtain ⟨n, proper, shape⟩ := Binary64.exists_numeral finite
    have found := Numeral.numeral?_text proper endsNumeral_nil
    rw [List.append_nil] at found
    refine Or.inr ⟨n, proper, shape, ?_⟩
    rw [reread, shape, found]

theorem exists_head (j : Json) : ∃ c rest, j.text.toList = c :: rest ∧ Opens c := by
  have numeral {n : Numeral} (proper : n.Proper) : ∃ c rest, n.text = c :: rest ∧ Opens c := by
    obtain ⟨c, rest, shape, front⟩ := Numeral.exists_head proper
    exact ⟨c, rest, shape, opens_of_front front⟩
  have null : Opens 'n' := ⟨by decide, by decide⟩
  cases j with
  | null | rough _ | unusable => exact ⟨'n', _, by rw [text]; rfl, null⟩
  | bool b =>
    rw [text]
    cases b with
    | true => exact ⟨'t', _, rfl, by decide, by decide⟩
    | false => exact ⟨'f', _, rfl, by decide, by decide⟩
  | int i =>
    rw [text, ← Numeral.text_ofInt]
    exact numeral (Numeral.proper_ofInt i)
  | double x =>
    rw [text]
    rcases double_cases x with ⟨none, _⟩ | ⟨n, proper, shape, _⟩
    · exact ⟨'n', _, by rw [none]; rfl, null⟩
    · rw [shape]
      exact numeral proper
  | string s =>
    rw [text, quoted, String.toList_ofList]
    exact ⟨'"', _, rfl, by decide, by decide⟩
  | array items => exact ⟨'[', _, toList_array items, by decide, by decide⟩
  | object members => exact ⟨'\x7b', _, toList_object members, by decide, by decide⟩

theorem exists_head_items (j : Json) (more : List Json) :
    ∃ c rest, joined (itemTexts (j :: more)) = c :: rest ∧ Opens c := by
  obtain ⟨c, rest, shape, opens⟩ := exists_head j
  cases more with
  | nil => exact ⟨c, rest, by rw [itemTexts, itemTexts, joined_singleton, shape], opens⟩
  | cons k more =>
    refine ⟨c, rest ++ ',' :: joined (itemTexts (k :: more)), ?_, opens⟩
    rw [itemTexts, itemTexts, joined_cons_cons, shape]
    rfl

/-- A quoted text stands for a value. -/
theorem value?_encode (t rest : List Char) (fuel : Nat) :
    value? (fuel + 1) (Quoted.encode t ++ rest) = some (.string (String.ofList t), rest) := by
  obtain ⟨pieces, read, _, denoted⟩ := Quoted.pieces?_flatMap_escape t rest
  have behind : t.flatMap Quoted.escape ++ ['"'] ++ rest = t.flatMap Quoted.escape ++ '"' :: rest :=
    List.append_assoc _ _ _
  have found : ofPieces pieces = .string (String.ofList t) := by
    unfold ofPieces
    rw [denoted]
  rw [Quoted.encode, List.cons_append, List.cons_append, behind, value?,
    skipSpace_cons (by decide)]
  simp [read, found]

theorem value?_array_nil (rest : List Char) (fuel : Nat) :
    value? (fuel + 1) ('[' :: ']' :: rest) = some (.array [], rest) := by
  rw [value?, skipSpace_cons (by decide)]
  rfl

/-- Behind a bracket items are read, if it is not closed at once. -/
theorem value?_array {fuel : Nat} {c : Char} {s rest : List Char} {items : List Json}
    (opens : Opens c) (found : items? fuel (c :: s) = some (items, rest)) :
    value? (fuel + 1) ('[' :: c :: s) = some (.array items, rest) := by
  rw [value?, skipSpace_cons (by decide)]
  simp only [skipSpace_cons opens.1]
  split
  next same => exact absurd (List.cons.inj same).1 opens.2
  next => rw [found, Option.map_some]

theorem value?_object_nil (rest : List Char) (fuel : Nat) :
    value? (fuel + 1) ('\x7b' :: '\x7d' :: rest) = some (.object [], rest) := by
  rw [value?, skipSpace_cons (by decide)]
  rfl

/-- Behind a brace members are read, the first of which begins with a quote. -/
theorem value?_object {fuel : Nat} {s rest : List Char}
    {members : List (Option (List Char) × Json)} {j : Json} (usable : ofMembers? members = some j)
    (found : members? fuel ('"' :: s) = some (members, rest)) :
    value? (fuel + 1) ('\x7b' :: '"' :: s) = some (j, rest) := by
  have visible : skipSpace ('"' :: s) = '"' :: s := skipSpace_cons (by decide)
  rw [value?, skipSpace_cons (by decide)]
  simp [visible, found, usable]

theorem ofMembers?_named (members : List (String × Json)) :
    ofMembers? (members.map fun m => (some m.1.toList, m.2)) = some (.object members) := by
  have named : (members.map fun m => (some m.1.toList, m.2)).mapM
      (fun m => m.1.map fun name => (String.ofList name, m.2)) = some members := by
    induction members with
    | nil => rfl
    | cons m rest ih =>
      rw [List.map_cons, List.mapM_cons, ih]
      simp [String.ofList_toList]
  unfold ofMembers?
  split
  next read found =>
    cases found.symm.trans named
    rfl
  next missing => cases missing.symm.trans named

theorem exists_head_members (name : String) (j : Json) (more : List (String × Json)) :
    ∃ rest, joined (memberTexts ((name, j) :: more)) = '"' :: rest := by
  have front : ∃ rest, (quoted name ++ ":" ++ j.text).toList = '"' :: rest := by
    rw [toList_member]
    exact ⟨_, rfl⟩
  obtain ⟨rest, shape⟩ := front
  cases more with
  | nil => exact ⟨rest, by rw [memberTexts, memberTexts, joined_singleton, shape]⟩
  | cons m more =>
    refine ⟨rest ++ ',' :: joined (memberTexts (m :: more)), ?_⟩
    rw [memberTexts, memberTexts, joined_cons_cons, shape]
    rfl

section

variable {fuel : Nat} {s t rest : List Char} {j : Json}

theorem items?_more {items : List Json} (found : value? fuel s = some (j, ',' :: t))
    (others : items? fuel t = some (items, rest)) :
    items? (fuel + 1) s = some (j :: items, rest) := by
  have visible : skipSpace (',' :: t) = ',' :: t := skipSpace_cons (by decide)
  rw [items?, found]
  simp [visible, others]

/-- The name of a member and the colon behind it. -/
theorem members?_encode (name s : List Char) (fuel : Nat) :
    members? (fuel + 1) (Quoted.encode name ++ ':' :: s) = (value? fuel s).bind fun (j, s) =>
      match skipSpace s with
      | ',' :: s => (members? fuel s).bind fun (ms, s) => some ((some name, j) :: ms, s)
      | '\x7d' :: s => some ([(some name, j)], s)
      | _ => none := by
  have front : skipSpace (Quoted.encode name ++ ':' :: s) = Quoted.encode name ++ ':' :: s :=
    skipSpace_cons (by decide)
  rw [members?, front, Quoted.read?_encode]
  rfl

theorem members?_last (name : List Char) (found : value? fuel s = some (j, '\x7d' :: rest)) :
    members? (fuel + 1) (Quoted.encode name ++ ':' :: s) = some ([(some name, j)], rest) := by
  rw [members?_encode, found]
  rfl

theorem members?_more (name : List Char) {members : List (Option (List Char) × Json)}
    (found : value? fuel s = some (j, ',' :: t))
    (others : members? fuel t = some (members, rest)) :
    members? (fuel + 1) (Quoted.encode name ++ ':' :: s) =
      some ((some name, j) :: members, rest) := by
  have visible : skipSpace (',' :: t) = ',' :: t := skipSpace_cons (by decide)
  rw [members?_encode, found]
  simp [visible, others]

end

/-- The text of the value is read back, and nothing of what follows it. -/
def ReadsBack (j : Json) : Prop :=
  ∀ {fuel : Nat} {rest : List Char}, j.text.toList.length < fuel → EndsNumeral rest →
    value? fuel (j.text.toList ++ rest) = some (j.reread, rest)

/-- The items of an array are read back up to the bracket behind them. -/
theorem items?_texts {items : List Json} (nonempty : items ≠ [])
    (each : ∀ j ∈ items, ReadsBack j) {fuel : Nat} {rest : List Char}
    (enough : (joined (itemTexts items)).length + 1 < fuel) :
    items? fuel (joined (itemTexts items) ++ ']' :: rest) = some (rereadItems items, rest) := by
  induction items generalizing fuel with
  | nil => exact absurd rfl nonempty
  | cons j more ih =>
    have first : ReadsBack j := each j List.mem_cons_self
    cases fuel with
    | zero => omega
    | succ fuel =>
      cases more with
      | nil =>
        rw [itemTexts, itemTexts, joined_singleton] at enough ⊢
        exact items?_last (first (by omega) (endsNumeral_cons (by decide)))
      | cons k more =>
        have length : (joined (itemTexts (j :: k :: more))).length =
            j.text.toList.length + ((joined (itemTexts (k :: more))).length + 1) := by
          simp only [itemTexts, joined_cons_cons, List.length_append, List.length_cons]
        have others : items? fuel (joined (itemTexts (k :: more)) ++ ']' :: rest) =
            some (rereadItems (k :: more), rest) :=
          ih (by simp) (fun l member => each l (List.mem_cons_of_mem j member)) (by omega)
        rw [itemTexts, itemTexts, joined_cons_cons, ← itemTexts, List.append_assoc,
          List.cons_append]
        exact items?_more (first (by omega) (endsNumeral_cons (by decide))) others

/-- The members of an object are read back up to the brace behind them. -/
theorem members?_texts {members : List (String × Json)} (nonempty : members ≠ [])
    (each : ∀ m ∈ members, ReadsBack m.2) {fuel : Nat} {rest : List Char}
    (enough : (joined (memberTexts members)).length + 1 < fuel) :
    members? fuel (joined (memberTexts members) ++ '\x7d' :: rest) =
      some ((rereadMembers members).map fun m => (some m.1.toList, m.2), rest) := by
  induction members generalizing fuel with
  | nil => exact absurd rfl nonempty
  | cons m more ih =>
    obtain ⟨name, j⟩ := m
    have first : ReadsBack j := each (name, j) List.mem_cons_self
    cases fuel with
    | zero => omega
    | succ fuel =>
      cases more with
      | nil =>
        have length : (joined (memberTexts [(name, j)])).length =
            (Quoted.encode name.toList).length + (j.text.toList.length + 1) := by
          simp only [memberTexts, joined_singleton, toList_member, List.length_append,
            List.length_cons]
        rw [memberTexts, memberTexts, joined_singleton, toList_member, List.append_assoc,
          List.cons_append]
        exact members?_last _ (first (by omega) (endsNumeral_cons (by decide)))
      | cons k more =>
        have length : (joined (memberTexts ((name, j) :: k :: more))).length =
            (Quoted.encode name.toList).length + (j.text.toList.length + 1) +
              ((joined (memberTexts (k :: more))).length + 1) := by
          simp only [memberTexts, joined_cons_cons, toList_member, List.length_append,
            List.length_cons]
        have others : members? fuel (joined (memberTexts (k :: more)) ++ '\x7d' :: rest) =
            some ((rereadMembers (k :: more)).map fun m => (some m.1.toList, m.2), rest) :=
          ih (by simp) (fun l member => each l (List.mem_cons_of_mem _ member)) (by omega)
        rw [memberTexts, memberTexts, joined_cons_cons, ← memberTexts, toList_member,
          List.append_assoc, List.append_assoc, List.cons_append, List.cons_append]
        exact members?_more _ (first (by omega) (endsNumeral_cons (by decide))) others

theorem readsBack_array {items : List Json} (each : ∀ j ∈ items, ReadsBack j) :
    ReadsBack (.array items) := by
  intro fuel rest enough _
  rw [toList_array] at enough ⊢
  simp only [List.length_cons, List.length_append, List.length_nil] at enough
  obtain ⟨fuel, rfl⟩ : ∃ k, fuel = k + 1 := ⟨fuel - 1, by omega⟩
  cases items with
  | nil => exact value?_array_nil rest fuel
  | cons j more =>
    have found : items? fuel (joined (itemTexts (j :: more)) ++ ']' :: rest) =
        some (rereadItems (j :: more), rest) := items?_texts (by simp) each (by omega)
    obtain ⟨c, front, shape, opens⟩ := exists_head_items j more
    rw [shape, List.cons_append] at found
    rw [reread, List.cons_append, List.append_assoc, shape]
    exact value?_array opens found

theorem readsBack_object {members : List (String × Json)}
    (each : ∀ m ∈ members, ReadsBack m.2) : ReadsBack (.object members) := by
  intro fuel rest enough _
  rw [toList_object] at enough ⊢
  simp only [List.length_cons, List.length_append, List.length_nil] at enough
  obtain ⟨fuel, rfl⟩ : ∃ k, fuel = k + 1 := ⟨fuel - 1, by omega⟩
  cases members with
  | nil => exact value?_object_nil rest fuel
  | cons m more =>
    have found : members? fuel (joined (memberTexts (m :: more)) ++ '\x7d' :: rest) =
        some ((rereadMembers (m :: more)).map fun m => (some m.1.toList, m.2), rest) :=
      members?_texts (by simp) each (by omega)
    obtain ⟨front, shape⟩ := exists_head_members m.1 m.2 more
    rw [shape, List.cons_append] at found
    rw [reread, List.cons_append, List.append_assoc, shape]
    exact value?_object (ofMembers?_named _) found

/-- A value that holds no others needs one step. -/
theorem readsBack_of_step {j : Json} (step : ∀ fuel rest, EndsNumeral rest →
    value? (fuel + 1) (j.text.toList ++ rest) = some (j.reread, rest)) : ReadsBack j := by
  intro fuel rest enough ends
  obtain ⟨fuel, rfl⟩ : ∃ k, fuel = k + 1 := ⟨fuel - 1, by omega⟩
  exact step fuel rest ends

theorem readsBack_double (x : Binary64) : ReadsBack (.double x) := by
  apply readsBack_of_step
  intro fuel rest ends
  rw [text]
  rcases double_cases x with ⟨none, value⟩ | ⟨n, proper, shape, value⟩
  · rw [none, value]
    exact value?_null rest fuel
  · rw [shape, value]
    exact value?_numeral proper ends fuel

theorem readsBack_bool (b : Bool) : ReadsBack (.bool b) := by
  apply readsBack_of_step
  intro fuel rest _
  cases b with
  | true =>
    show value? (fuel + 1) ('t' :: 'r' :: 'u' :: 'e' :: rest) = _
    rw [value?, skipSpace_cons (by decide)]
    rfl
  | false =>
    show value? (fuel + 1) ('f' :: 'a' :: 'l' :: 's' :: 'e' :: rest) = _
    rw [value?, skipSpace_cons (by decide)]
    rfl

/-- A value without a text of its own is written as null. -/
theorem readsBack_of_null {j : Json} (blank : j.text = "null") (lost : j.reread = .null) :
    ReadsBack j := by
  apply readsBack_of_step
  intro fuel rest _
  rw [blank, lost]
  exact value?_null rest fuel

theorem readsBack_int (i : Int) : ReadsBack (.int i) := by
  apply readsBack_of_step
  intro fuel rest ends
  rw [text, reread, ← Numeral.text_ofInt]
  exact value?_numeral (Numeral.proper_ofInt i) ends fuel

theorem readsBack_string (s : String) : ReadsBack (.string s) := by
  apply readsBack_of_step
  intro fuel rest _
  rw [text, reread, quoted, String.toList_ofList, value?_encode, String.ofList_toList]

mutual

theorem readsBack : ∀ j : Json, ReadsBack j
  | .null | .rough _ | .unusable => readsBack_of_null (by rw [text]) (by rw [reread])
  | .bool b => readsBack_bool b
  | .int i => readsBack_int i
  | .double x => readsBack_double x
  | .string s => readsBack_string s
  | .array items => readsBack_array (readsBack_items items)
  | .object members => readsBack_object (readsBack_members members)

theorem readsBack_items : ∀ items : List Json, ∀ j ∈ items, ReadsBack j
  | [] => List.forall_mem_nil _
  | j :: rest => List.forall_mem_cons.mpr ⟨readsBack j, readsBack_items rest⟩

theorem readsBack_members : ∀ members : List (String × Json), ∀ m ∈ members, ReadsBack m.2
  | [] => List.forall_mem_nil _
  | (_, j) :: rest => List.forall_mem_cons.mpr ⟨readsBack j, readsBack_members rest⟩

end

/-- The text of a value, with blanks behind it, is read as the value with its numbers taken anew. -/
theorem read?_text_append (j : Json) {blanks : List Char} (blank : ∀ c ∈ blanks, isSpace c = true) :
    read? (j.text ++ String.ofList blanks) = some j.reread := by
  have ends : EndsNumeral blanks := by
    cases blanks with
    | nil => exact endsNumeral_nil
    | cons c rest =>
      have space : isSpace c = true := blank c List.mem_cons_self
      simp only [isSpace, Bool.or_eq_true, decide_eq_true_eq] at space
      apply endsNumeral_cons
      rcases space with ((rfl | rfl) | rfl) | rfl <;> decide
  have skipped : skipSpace blanks = [] := by
    rw [skipSpace, List.dropWhile_eq_nil_iff]
    exact fun c member => blank c member
  have enough : j.text.toList.length < (j.text.toList ++ blanks).length + 1 := by
    rw [List.length_append]
    omega
  have found := readsBack j enough ends
  rw [read?, String.toList_append, String.toList_ofList, found]
  show (if (skipSpace blanks).isEmpty then some j.reread else none) = _
  rw [skipped]
  rfl

theorem read?_text (j : Json) : read? j.text = some j.reread := by
  have read := j.read?_text_append (List.forall_mem_nil (isSpace · = true))
  rwa [String.ofList_nil, String.append_empty] at read

end DocQuery.Json
