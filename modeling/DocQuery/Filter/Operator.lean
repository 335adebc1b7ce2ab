/-!
# Operators of filters

The operators that compare a field with a value and those that join conditions, with the tokens of
the query language that stand for them.
-/
namespace DocQuery

/-- How the value of a comparison is to be taken. -/
inductive FieldType where
  | string
  | number
  | dateTime
  deriving DecidableEq, Repr, Inhabited

inductive Comparison where
  | equal
  | notEqual
  | greaterThan
  | greaterThanEqual
  | lessThan
  | lessThanEqual
  | contains
  | beginWith
  | endWith
  | isIn
  | notIn
  deriving DecidableEq, Repr, Inhabited

/-- What joins the conditions of a group; `none` stands for an operator that was left out. -/
inductive Connective where
  | none
  | and
  | or
  | not
  | nor
  deriving DecidableEq, Repr, Inhabited

/-- Where in the field a pattern looks for the text. -/
inductive PatternShape where
  | contains
  | beginWith
  | endWith
  deriving DecidableEq, Repr

/-- The regular expression around the text, which is not escaped. -/
def PatternShape.pattern (shape : PatternShape) (raw : String) : String :=
  match shape with
  | .contains => ".*" ++ raw ++ ".*"
  | .beginWith => "^" ++ raw
  | .endWith => raw ++ "$"

/-- The options of every pattern: letters of either case, lines one by one. -/
def patternOptions : String := "im"

/-- How a comparison is written: before a literal, before a list, or as a pattern. -/
inductive Token where
  | scalar (text : String)
  | set (text : String)
  | pattern (shape : PatternShape)
  deriving DecidableEq, Repr

def Comparison.token : Comparison → Token
  | .equal => .scalar "$eq"
  | .notEqual => .scalar "$ne"
  | .greaterThan => .scalar "$gt"
  | .greaterThanEqual => .scalar "$gte"
  | .lessThan => .scalar "$lt"
  | .lessThanEqual => .scalar "$lte"
  | .isIn => .set "$in"
  | .notIn => .set "$nin"
  | .contains => .pattern .contains
  | .beginWith => .pattern .beginWith
  | .endWith => .pattern .endWith

def Connective.token? : Connective → Option String
  | .none => Option.none
  | .and => some "$and"
  | .or => some "$or"
  | .not => some "$not"
  | .nor => some "$nor"

end DocQuery
