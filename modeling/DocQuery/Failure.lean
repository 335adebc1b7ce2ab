/-!
# Failures

Why an operation of the library fails, and the text that tells it.
-/
namespace DocQuery

/-- The two kinds of node that a filter is made of: its root and the conditions below. -/
inductive Place where
  | filter
  | condition
  deriving DecidableEq, Repr

def Place.name : Place → String
  | .filter => "filter"
  | .condition => "condition"

/-- What is wrong with the shape of a query. -/
inductive Fault where
  /-- A node that is neither a leaf with a parameter nor a group with an operator and children. -/
  | unusable (place : Place)
  /-- A property bag with the content of a leaf and of a group. -/
  | both (place : Place)
  /-- A property bag with the content of neither. -/
  | neither (place : Place)
  | noToken
  | sortFieldMissing (spec : String)
  | unknownDirection (word : String)
  deriving DecidableEq, Repr

def Fault.message : Fault → String
  | .unusable place =>
    place.name ++ " should have either a single condition or a group condition"
  | .both place =>
    place.name ++ " should not have single condition and group condition both"
  | .neither place =>
    place.name ++ " should have atleast single condition or group condition"
  | .noToken => "group operator NONE cannot be compiled"
  | .sortFieldMissing spec => "sort field missing in '" ++ spec ++ "'"
  | .unknownDirection word => "unknown sort direction '" ++ word ++ "'"

/-- What is wrong with settings. -/
inductive SettingsFault where
  | unreadable
  /-- A directory is in them whose name is no text. -/
  | unwritable
  | notSet (field : String)
  deriving DecidableEq, Repr

inductive Failure where
  | structural (fault : Fault)
  | emptyUpdate
  | json
  | settings (fault : SettingsFault)
  | driver (message : String)
  | io
  deriving DecidableEq, Repr

def Failure.message : Failure → String
  | .structural fault => "Structural error: " ++ fault.message
  | .emptyUpdate => "Update must set at least one field"
  | .json => "Serde JSON"
  | .settings .unreadable => "Config error"
  | .settings .unwritable => "Config error"
  | .settings (.notSet field) => "Config error: " ++ field ++ " is not set"
  | .driver message => "Driver error: " ++ message
  | .io => "I/O error"

end DocQuery
