import DocQuery.Update.Basic
/-!
# Building updates

An update is put together step by step, in any order; the last key and the last filter count, and
assignments add up. Only a builder with an assignment becomes an update.
-/
namespace DocQuery

structure UpdateBuilder where
  id? : Option String := none
  filter? : Option Filter := none
  assignments : List Assignment := []

namespace UpdateBuilder

def new : UpdateBuilder := {}

def id (b : UpdateBuilder) (key : String) : UpdateBuilder :=
  { b with id? := some key }

def filter (b : UpdateBuilder) (f : Filter) : UpdateBuilder :=
  { b with filter? := some f }

def set (b : UpdateBuilder) (field : String) (value : Value) : UpdateBuilder :=
  { b with assignments := b.assignments ++ [⟨field, value⟩] }

def setAll (b : UpdateBuilder) (assignments : List Assignment) : UpdateBuilder :=
  { b with assignments := b.assignments ++ assignments }

def build (b : UpdateBuilder) : Except Failure Update :=
  if h : b.assignments = [] then .error .emptyUpdate
  else .ok ⟨b.id?, b.filter?, b.assignments, h⟩

/-- One step of building. -/
inductive Step where
  | id (key : String)
  | filter (f : Filter)
  | set (field : String) (value : Value)
  | setAll (assignments : List Assignment)

def step (b : UpdateBuilder) : Step → UpdateBuilder
  | .id key => b.id key
  | .filter f => b.filter f
  | .set field value => b.set field value
  | .setAll assignments => b.setAll assignments

/-- The builder after a sequence of steps. -/
def run (steps : List Step) : UpdateBuilder :=
  steps.foldl step new

end UpdateBuilder

namespace Update

def byId (key : String) (assignments : List Assignment) : Except Failure Update :=
  ((UpdateBuilder.new.id key).setAll assignments).build

def byFilter (f : Filter) (assignments : List Assignment) : Except Failure Update :=
  ((UpdateBuilder.new.filter f).setAll assignments).build

def all (assignments : List Assignment) : Except Failure Update :=
  (UpdateBuilder.new.setAll assignments).build

end Update
end DocQuery
