import DocQuery.Failure
import DocQuery.Filter.Basic
/-!
# Checking the shape of filters

Every leaf has to name a parameter and every group has to have an operator and a child. The first
node, from the root down and from left to right, that breaks the rule is reported.
-/
namespace DocQuery

def checkGroup (place : Place) (op : Connective) (children : List Condition) :
    Except Failure Unit :=
  if op = .none || children.isEmpty then .error (.structural (.unusable place)) else .ok ()

mutual

def Condition.check : Condition → Except Failure Unit
  | .leaf p =>
    if p.parameter.isEmpty then .error (.structural (.unusable .condition)) else .ok ()
  | .group op children => do
    checkGroup .condition op children
    Condition.checkAll children

def Condition.checkAll : List Condition → Except Failure Unit
  | [] => .ok ()
  | c :: rest => do
    Condition.check c
    Condition.checkAll rest

end

def Filter.check : Filter → Except Failure Unit
  | .single c => c.check
  | .group op conditions => do
    checkGroup .filter op conditions
    Condition.checkAll conditions

end DocQuery
