import DocQuery.Failure
/-!
# Files

A tree of directories and text files, as the value that programs read and change. A place in it is
the list of the names that lead there from the root. A text tells a place by names between slashes,
from the root or from a directory that is given; each name but the last has to be that of a
directory. Some files are there and yet cannot be read, since they are closed to the program or hold
bytes that are no text. What cannot be looked into is not in the tree, a link is what it leads to,
and nothing is said of permission to write.
-/
namespace DocQuery

/-- A place in the tree. -/
abbrev Path := List String

namespace Path

/-- The parts between the slashes of a text. -/
def parts : List Char → List (List Char)
  | [] => [[]]
  | c :: rest =>
    if c = '/' then [] :: parts rest
    else match parts rest with
      | [] => [[c]]
      | first :: others => (c :: first) :: others

theorem parts_ne_nil (s : List Char) : parts s ≠ [] := by
  induction s with
  | nil => simp [parts]
  | cons c rest ih =>
    by_cases h : c = '/'
    · simp [parts, h]
    · cases found : parts rest with
      | nil => exact absurd found ih
      | cons first others => simp [parts, h, found]

/-- The names in a text, with what is empty between slashes. -/
def names (s : String) : List String :=
  (parts s.toList).map String.ofList

/-- Where a text starts that is told in the directory `base`. -/
def start (base : Path) (s : String) : Path :=
  if s.toList.head? = some '/' then [] else base

/-- Names that lead nowhere: nothing between slashes, and the dot. -/
def stays (name : String) : Bool :=
  name.isEmpty || name = "."

/-- The parent of a place; that of the root is the root. -/
def parent (p : Path) : Path := p.dropLast

/-- The places on the way that a text tells, if every name leads down to something. -/
def along (base : Path) (s : String) : List Path :=
  (names s).foldl
    (fun places name =>
      let p := places.getLastD []
      places ++ [if stays name then p else if name = ".." then p.parent else p ++ [name]])
    [start base s]

/-- A text that tells what `s` tells from the place that `base` tells. -/
def join (base s : String) : String :=
  if base.isEmpty || s.toList.head? = some '/' then s
  else if base.toList.getLast? = some '/' then base ++ s
  else base ++ "/" ++ s

/-- The text that tells a place from the root. -/
def text (p : Path) : String :=
  "/" ++ "/".intercalate p

/-- What a file system takes as a path: some text of less than 4096 bytes, the character zero not
among its characters. -/
def isTold (s : String) : Bool :=
  !s.isEmpty && s.utf8ByteSize < 4096 && !s.toList.any (·.toNat = 0)

/-- A name has at most 255 bytes. -/
def isName (name : String) : Bool :=
  name.utf8ByteSize ≤ 255

end Path

inductive FileNode where
  | directory
  | file (text : String)
  deriving Repr

structure Files where
  nodes : List (Path × FileNode) := []
  /-- Where the files are that cannot be read. Of such a file no more is known than the text that is
  appended to it. -/
  unreadable : List Path := []
  deriving Repr

namespace Files

/-- What stands at a place; the root is always there. -/
def get? (fs : Files) (p : Path) : Option FileNode :=
  if p.isEmpty then some .directory else (fs.nodes.find? (·.1 == p)).map (·.2)

def exist (fs : Files) (p : Path) : Bool :=
  (fs.get? p).isSome

def put (fs : Files) (p : Path) (node : FileNode) : Files :=
  if fs.exist p then
    { fs with nodes := fs.nodes.map fun (q, old) => if q = p then (q, node) else (q, old) }
  else { fs with nodes := fs.nodes ++ [(p, node)] }

theorem get?_put_self (fs : Files) {p : Path} (node : FileNode) (h : p ≠ []) :
    (fs.put p node).get? p = some node := by
  obtain ⟨nodes⟩ := fs
  simp only [put, exist, get?, List.isEmpty_iff, if_neg h, Option.isSome_map]
  induction nodes with
  | nil => simp
  | cons entry rest ih =>
    obtain ⟨q, old⟩ := entry
    by_cases same : q = p
    · simp [same]
    · by_cases found : (rest.find? (·.1 == p)).isSome
      · simpa [same, found] using ih
      · simpa [same, found] using ih

theorem get?_put_of_ne (fs : Files) {p q : Path} (node : FileNode) (h : q ≠ p) :
    (fs.put p node).get? q = fs.get? q := by
  obtain ⟨nodes⟩ := fs
  have replaced : ∀ entries : List (Path × FileNode),
      (entries.map fun (r, old) => if r = p then (r, node) else (r, old)).find? (·.1 == q) =
        entries.find? (·.1 == q) := by
    intro entries
    induction entries with
    | nil => rfl
    | cons entry rest ih =>
      obtain ⟨r, old⟩ := entry
      by_cases same : r = p
      · simpa [same, h.symm] using ih
      · by_cases found : r = q
        · simp [found, h]
        · simpa [same, found] using ih
  by_cases root : q = []
  · simp [get?, root]
  · simp only [put, get?, List.isEmpty_iff, if_neg root]
    split
    · rw [replaced]
    · simp [h.symm]

/-- The place that names lead to from `p`. Only directories can be passed. -/
def walk? (fs : Files) (p : Path) : List String → Option Path
  | [] => some p
  | name :: rest =>
    match fs.get? p with
    | some .directory =>
      if Path.stays name then walk? fs p rest
      else if name = ".." then walk? fs p.parent rest
      else if fs.exist (p ++ [name]) then walk? fs (p ++ [name]) rest
      else none
    | _ => none

/-- The place that a text tells to those who are in the directory `base`, if something is there. -/
def locate? (fs : Files) (base : Path) (s : String) : Option Path :=
  if Path.isTold s then fs.walk? (Path.start base s) (Path.names s) else none

/-- The text of the file at a place, if there is one that can be read. -/
def text? (fs : Files) (p : Path) : Option String :=
  match fs.get? p with
  | some (.file text) => if fs.unreadable.contains p then none else some text
  | _ => none

theorem text?_eq_some_iff {fs : Files} {p : Path} {text : String} :
    fs.text? p = some text ↔ p ∉ fs.unreadable ∧ fs.get? p = some (.file text) := by
  unfold text?
  cases fs.get? p with
  | none => simp
  | some node => cases node <;> simp

def read (fs : Files) (base : Path) (s : String) : Except Failure String :=
  match (fs.locate? base s).bind fs.text? with
  | some text => .ok text
  | none => .error .io

/-- Goes where names lead from `p` and makes the directories that are not there. -/
def makeAlong (fs : Files) (p : Path) : List String → Except Failure (Path × Files)
  | [] => .ok (p, fs)
  | name :: rest =>
    if Path.stays name then makeAlong fs p rest
    else if name = ".." then makeAlong fs p.parent rest
    else
      let below := p ++ [name]
      match fs.get? below with
      | some .directory => makeAlong fs below rest
      | some (.file _) => .error .io
      | none =>
        if Path.isName name then makeAlong (fs.put below .directory) below rest else .error .io

/-- Makes the directories that a text tells. A dot at its end tells a directory that must be there
already; the empty text tells none. -/
def createDirectories (fs : Files) (base : Path) (s : String) : Except Failure Files :=
  let ending := (Path.names s).filter fun name => !name.isEmpty
  if s.isEmpty then .ok fs
  else if !Path.isTold s then .error .io
  else if ending.getLast? = some "." && (fs.locate? base s).isNone then .error .io
  else (fs.makeAlong (Path.start base s) (Path.names s)).map (·.2)

/-- Opens a file to append to it. The directories above it and the file are made if they are not
there. -/
def openAppend (fs : Files) (base : Path) (s : String) : Except Failure (Path × Files) :=
  if !Path.isTold s then .error .io
  else do
    let (above, fs) ← fs.makeAlong (Path.start base s) (Path.names s).dropLast
    let name := (Path.names s).getLastD ""
    let p := above ++ [name]
    if Path.stays name || name = ".." || !Path.isName name then .error .io
    else match fs.get? p with
      | some (.file _) => .ok (p, fs)
      | some .directory => .error .io
      | none => .ok (p, fs.put p (.file ""))

def append (fs : Files) (p : Path) (text : String) : Files :=
  match fs.get? p with
  | some (.file old) => fs.put p (.file (old ++ text))
  | _ => fs.put p (.file text)

end Files
end DocQuery
