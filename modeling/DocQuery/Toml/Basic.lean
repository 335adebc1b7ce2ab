/-!
# TOML documents

The tree of a document, with the rules by which keys and table headers may build it: nothing is
defined twice, tables that a header or a dotted key only passed through may be filled in later by
the same means, and inline tables and lists of values are closed.
-/
namespace DocQuery

/-- How a table came to be. -/
inductive TableKind where
  /-- Named by a header of its own, or the root. -/
  | header
  /-- Passed through by a header. -/
  | passed
  /-- Passed through by a dotted key. -/
  | dotted
  /-- Written in braces. -/
  | inline
  deriving DecidableEq, Repr

inductive Toml where
  | string (s : String)
  | integer (i : Int)
  /-- A truth value, a float, a date or a time. -/
  | other
  | array (items : List Toml)
  | table (kind : TableKind) (entries : List (String × Toml))
  /-- The tables of one header in double brackets. -/
  | tables (elements : List (List (String × Toml)))
  deriving Repr, Inhabited

namespace Toml

abbrev Entries := List (String × Toml)

def get? (entries : Entries) (key : String) : Option Toml :=
  (entries.find? (·.1 == key)).map (·.2)

/-- Changes what a key has, or adds the key at the end. -/
def change? (key : String) (f : Option Toml → Option Toml) : Entries → Option Entries
  | [] => (f none).map fun v => [(key, v)]
  | (k, v) :: rest =>
    if k = key then (f (some v)).map fun v => (k, v) :: rest
    else (change? key f rest).map ((k, v) :: ·)

/-- Adds a key that must not be there. -/
def addNew? (key : String) (v : Toml) (entries : Entries) : Option Entries :=
  change? key (fun old => if old.isNone then some v else none) entries

/-- Changes the last element. -/
def changeLast? {α : Type} (f : α → Option α) : List α → Option (List α)
  | [] => none
  | [a] => (f a).map fun a => [a]
  | a :: rest => (changeLast? f rest).map (a :: ·)

/-- Changes the table at the end of a path, making the tables on the way that are not there yet.
A dotted key may not pass through a table with a header of its own. -/
def descend? (byDots : Bool) (edit : TableKind → Entries → Option Entries) :
    List String → TableKind → Entries → Option Entries
  | [], kind, entries => edit kind entries
  | key :: path, _, entries =>
    let change : Option Toml → Option Toml
      | none =>
        let kind := if byDots then TableKind.dotted else .passed
        (descend? byDots edit path kind []).map (.table kind)
      | some (.table kind inner) =>
        if kind = .inline || (byDots && kind = .header) then none
        else (descend? byDots edit path kind inner).map (.table kind)
      | some (.tables elements) =>
        (changeLast? (descend? byDots edit path .header) elements).map .tables
      | some _ => none
    change? key change entries

/-- Adds a value under a dotted key, the last part of which is `key`. -/
def addAt? (path : List String) (key : String) (v : Toml) (kind : TableKind)
    (entries : Entries) : Option Entries :=
  descend? true
    (fun kind inner =>
      if decide (kind = .dotted) == path.isEmpty then none else addNew? key v inner)
    path kind entries

/-- Opens the table of a header in single brackets. -/
def openTable? (path : List String) (key : String) (entries : Entries) : Option Entries :=
  let change : Option Toml → Option Toml
    | none => some (.table .header [])
    | some (.table .passed inner) => some (.table .header inner)
    | some _ => none
  descend? false (fun _ inner => change? key change inner) path .header entries

/-- Opens one more table of a header in double brackets. -/
def openElement? (path : List String) (key : String) (entries : Entries) : Option Entries :=
  let change : Option Toml → Option Toml
    | none => some (.tables [[]])
    | some (.tables elements) => some (.tables (elements ++ [[]]))
    | some _ => none
  descend? false (fun _ inner => change? key change inner) path .header entries

end Toml
end DocQuery
