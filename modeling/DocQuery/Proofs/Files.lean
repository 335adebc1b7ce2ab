import DocQuery.Files
import DocQuery.Proofs.Chain
import Mathlib.Data.List.Induction
/-!
# What opening does to files

Directories that are made and files that are opened leave alone what was there: the new is a
directory or an empty file (`Files.Grows`). Where a file is opened does not depend on the files,
only on the text that tells its place (`openAppend_spec`).
-/
namespace DocQuery

namespace Path

theorem parts_append_slash (s rest : List Char) :
    parts (s ++ '/' :: rest) = parts s ++ parts rest := by
  induction s with
  | nil => simp [parts]
  | cons c s ih =>
    by_cases slash : c = '/'
    · simp [parts, slash, ih]
    · cases found : parts s with
      | nil => exact absurd found (parts_ne_nil s)
      | cons first others => simp [parts, slash, ih, found]

theorem parts_of_noSlash {s : List Char} (h : '/' ∉ s) : parts s = [s] := by
  induction s with
  | nil => rfl
  | cons c s ih =>
    simp only [List.mem_cons, not_or] at h
    simp [parts, Ne.symm h.1, ih h.2]

theorem names_append_slash (above below : String) :
    names (above ++ "/" ++ below) = names above ++ names below := by
  simp [names, String.toList_append, parts_append_slash]

theorem names_of_noSlash {name : String} (h : '/' ∉ name.toList) : names name = [name] := by
  simp [names, parts_of_noSlash h]

/-- Where a text starts is told by what stands before its first slash. -/
theorem start_append_slash (base : Path) (above below : String) :
    start base (above ++ "/" ++ below) = start base (above ++ "/") := by
  cases h : above.toList <;> simp [start, String.toList_append, h]

theorem start_of_noSlash (base : Path) {name : String} (h : '/' ∉ name.toList) :
    start base name = base := by
  have other : ¬ name.toList.head? = some '/' := fun first => h (List.mem_of_head? first)
  rw [start, if_neg other]

/-- Where names lead from `p`, if every one of them leads to something. -/
def follow (p : Path) (names : List String) : Path :=
  names.foldl
    (fun p name => if stays name then p else if name = ".." then p.parent else p ++ [name]) p

theorem follow_concat (p : Path) (names : List String) (name : String) :
    follow p (names ++ [name]) =
      if stays name then follow p names
      else if name = ".." then (follow p names).parent
      else follow p names ++ [name] := by
  simp [follow]

/-- A text leads where its names lead. -/
theorem along_getLastD (base : Path) (s : String) :
    (along base s).getLastD [] = follow (start base s) (names s) := by
  rw [along]
  induction names s using List.reverseRecOn with
  | nil => rfl
  | append_singleton names name ih =>
    rw [List.foldl_append, follow_concat, ← ih]
    simp

/-- A name that leads down: it stands between two slashes and is no dot. -/
structure LeadsDown (name : String) : Prop where
  moves : name ≠ "" ∧ name ≠ "." ∧ name ≠ ".."
  noSlash : '/' ∉ name.toList

theorem names_intercalate {place : Path} (filled : place ≠ [])
    (proper : ∀ name ∈ place, '/' ∉ name.toList) : names ("/".intercalate place) = place := by
  induction place with
  | nil => exact absurd rfl filled
  | cons name rest ih =>
    have first := names_of_noSlash (proper name List.mem_cons_self)
    cases rest with
    | nil => rw [String.intercalate_singleton, first]
    | cons next rest =>
      rw [String.intercalate_cons_cons, names_append_slash, first,
        ih (List.cons_ne_nil _ _) fun name member => proper name (List.mem_cons_of_mem _ member)]
      rfl

/-- Names that are there lead on from the directory. -/
theorem start_intercalate (base : Path) {name : String} (filled : name ≠ "")
    (noSlash : '/' ∉ name.toList) (rest : Path) :
    start base ("/".intercalate (name :: rest)) = base := by
  have front : ("/".intercalate (name :: rest)).toList.head? = name.toList.head? := by
    have first : name.toList ≠ [] := by simpa using filled
    cases rest with
    | nil => rw [String.intercalate_singleton]
    | cons next rest =>
      rw [String.intercalate_cons_cons, String.append_assoc, String.toList_append,
        List.head?_append, List.head?_eq_some_head first, Option.some_or]
  rw [start, front, if_neg fun slash => noSlash (List.mem_of_head? slash)]

/-- A name goes behind the text of its directory, with a slash in between if that text is not
empty. -/
theorem join_cases (directory : String) : directory = "" ∨
    ∃ above, ∀ name : String, '/' ∉ name.toList → join directory name = above ++ "/" ++ name := by
  by_cases empty : directory = ""
  · exact Or.inl empty
  right
  have first {name : String} (h : '/' ∉ name.toList) :
      ¬ (directory.isEmpty || name.toList.head? = some '/') = true := by
    have other : ¬ name.toList.head? = some '/' := fun first => h (List.mem_of_head? first)
    simp [empty, other]
  by_cases closed : directory.toList.getLast? = some '/'
  · obtain ⟨above, split⟩ := List.getLast?_eq_some_iff.mp closed
    refine ⟨String.ofList above, fun name h => ?_⟩
    rw [join, if_neg (first h), if_pos closed, ← String.toList_inj]
    simp [String.toList_append, split]
  · exact ⟨directory, fun name h => by rw [join, if_neg (first h), if_neg closed]⟩

end Path

namespace Files

/-- What stands at `p` before stands there after. Where nothing stood there may be a directory or an
empty file. -/
def GrowsAt (before after : Files) (p : Path) : Prop :=
  after.get? p = before.get? p ∨
    before.get? p = none ∧ (after.get? p = some .directory ∨ after.get? p = some (.file ""))

/-- A file stands at `p`. -/
def IsFile (fs : Files) (p : Path) : Prop :=
  ∃ text, fs.get? p = some (.file text)

/-- All that was there stays as it was, and the new has no text. -/
def Grows (before after : Files) : Prop :=
  ∀ p, GrowsAt before after p

variable {fs gs hs : Files} {p q : Path} {text : String}

theorem GrowsAt.refl (fs : Files) (p : Path) : GrowsAt fs fs p := Or.inl rfl

theorem GrowsAt.trans (first : GrowsAt fs gs p) (second : GrowsAt gs hs p) : GrowsAt fs hs p := by
  rcases first with same | ⟨absent, new⟩
  · rwa [GrowsAt, ← same]
  · rcases second with same | ⟨still, _⟩
    · exact Or.inr ⟨absent, by rwa [same]⟩
    · rw [still] at new
      simp at new

/-- A file that is there keeps its text. -/
theorem GrowsAt.file (grows : GrowsAt fs gs p) (there : fs.get? p = some (.file text)) :
    gs.get? p = some (.file text) := by
  rcases grows with same | ⟨absent, _⟩
  · rw [same, there]
  · rw [absent] at there
    cases there

/-- A file that is there after was there before or had no text at first. -/
theorem GrowsAt.of_file (grows : GrowsAt fs gs p) (there : gs.get? p = some (.file text)) :
    fs.get? p = some (.file text) ∨ fs.get? p = none ∧ text = "" := by
  rcases grows with same | ⟨absent, new⟩
  · exact Or.inl (by rw [← same, there])
  · right
    simpa [there, absent] using new

theorem GrowsAt.isFile (grows : GrowsAt fs gs p) (there : fs.IsFile p) : gs.IsFile p := by
  obtain ⟨text, there⟩ := there
  exact ⟨text, grows.file there⟩

theorem Grows.refl (fs : Files) : Grows fs fs := GrowsAt.refl fs

theorem Grows.trans (first : Grows fs gs) (second : Grows gs hs) : Grows fs hs :=
  fun p => (first p).trans (second p)

theorem ne_root_of_get?_eq_none (absent : fs.get? p = none) : p ≠ [] := by
  rintro rfl
  simp [get?] at absent

theorem ne_root_of_get?_eq_file (there : fs.get? p = some (.file text)) : p ≠ [] := by
  rintro rfl
  simp [get?] at there

theorem grows_put {node : FileNode} (absent : fs.get? p = none)
    (new : node = .directory ∨ node = .file "") : Grows fs (fs.put p node) := by
  intro q
  by_cases here : q = p
  · subst here
    have put := get?_put_self fs node (ne_root_of_get?_eq_none absent)
    exact Or.inr ⟨absent, by simpa [put] using new⟩
  · exact Or.inl (get?_put_of_ne fs node here)

/-- Directories are made where names lead. -/
theorem makeAlong_spec {names : List String} {done : Path × Files}
    (made : fs.makeAlong p names = .ok done) : done.1 = Path.follow p names ∧ Grows fs done.2 := by
  induction names generalizing fs p with
  | nil =>
    obtain rfl : (p, fs) = done := by simpa [makeAlong] using made
    exact ⟨rfl, Grows.refl fs⟩
  | cons name rest ih =>
    rw [Path.follow, List.foldl_cons, ← Path.follow]
    rw [makeAlong] at made
    by_cases stays : Path.stays name
    · rw [if_pos stays] at made ⊢
      exact ih made
    · rw [if_neg stays] at made ⊢
      by_cases up : name = ".."
      · rw [if_pos up] at made ⊢
        exact ih made
      · simp only [if_neg up] at made ⊢
        split at made
        · exact ih made
        · cases made
        next absent =>
          split at made
          · obtain ⟨place, grows⟩ := ih made
            exact ⟨place, (grows_put absent (Or.inl rfl)).trans grows⟩
          · cases made

theorem grows_createDirectories {base : Path} {s : String}
    (made : fs.createDirectories base s = .ok gs) : Grows fs gs := by
  rw [createDirectories] at made
  split at made
  · cases made
    exact Grows.refl fs
  split at made
  · cases made
  split at made
  · cases made
  obtain ⟨done, along, rfl⟩ := map_eq_ok_iff.mp made
  exact (makeAlong_spec along).2

/-- An opened file is there, at the place that the text tells. -/
theorem openAppend_spec {base : Path} {s : String} {done : Path × Files}
    (opened : fs.openAppend base s = .ok done) :
    done.1 = Path.follow (Path.start base s) (Path.names s).dropLast ++
        [(Path.names s).getLastD ""] ∧
      Grows fs done.2 ∧ done.2.IsFile done.1 := by
  rw [openAppend] at opened
  split at opened
  · cases opened
  obtain ⟨above, made, opened⟩ := bind_eq_ok_iff.mp opened
  obtain ⟨place, grows⟩ := makeAlong_spec made
  simp only at opened
  split at opened
  · cases opened
  rw [← place]
  split at opened
  next old there =>
    cases opened
    exact ⟨rfl, grows, ⟨old, there⟩⟩
  · cases opened
  next absent =>
    cases opened
    exact ⟨rfl, grows.trans (grows_put absent (Or.inr rfl)),
      ⟨"", get?_put_self _ _ (ne_root_of_get?_eq_none absent)⟩⟩

theorem get?_append_self (there : fs.get? p = some (.file text)) (more : String) :
    (fs.append p more).get? p = some (.file (text ++ more)) := by
  simp only [append, there]
  exact get?_put_self _ _ (ne_root_of_get?_eq_file there)

theorem get?_append_of_ne (h : q ≠ p) (more : String) :
    (fs.append p more).get? q = fs.get? q := by
  rw [append]
  split <;> exact get?_put_of_ne _ _ h

/-- Names lead down through directories. -/
theorem walk?_of_leadsDown {names : List String} (down : ∀ name ∈ names, Path.LeadsDown name)
    (above : ∀ front back, names = front ++ back → back ≠ [] →
      fs.get? (p ++ front) = some .directory)
    (there : fs.exist (p ++ names) = true) : fs.walk? p names = some (p ++ names) := by
  induction names generalizing p with
  | nil => simp [walk?]
  | cons name rest ih =>
    obtain ⟨⟨filled, noDot, noParent⟩, _⟩ := down name List.mem_cons_self
    have here : fs.get? p = some .directory := by simpa using above [] (name :: rest) rfl (by simp)
    have below : fs.exist (p ++ [name]) = true := by
      cases rest with
      | nil => exact there
      | cons next rest =>
        rw [exist, above [name] (next :: rest) rfl (List.cons_ne_nil _ _)]
        rfl
    have further := ih (p := p ++ [name])
      (fun other member => down other (List.mem_cons_of_mem _ member))
      (fun front back split filled => by
        simpa using above (name :: front) back (by rw [split]; rfl) filled)
      (by simpa using there)
    have moves : Path.stays name = false := by simp [Path.stays, filled, noDot]
    rw [walk?, here]
    simp [moves, noParent, below, further]

/-- A text leads from the root to a place whose names it tells. -/
theorem locate?_from_root {base place : Path} (filled : place ≠ [])
    (down : ∀ name ∈ place, Path.LeadsDown name)
    (above : ∀ front back, place = front ++ back → back ≠ [] → fs.get? front = some .directory)
    (there : fs.exist place = true) (told : Path.isTold ("/" ++ "/".intercalate place) = true) :
    fs.locate? base ("/" ++ "/".intercalate place) = some place := by
  have names : Path.names ("/" ++ "/".intercalate place) = "" :: place := by
    have split := Path.names_append_slash "" ("/".intercalate place)
    rw [Path.names_intercalate filled fun name member => (down name member).noSlash] at split
    exact split
  have start : Path.start base ("/" ++ "/".intercalate place) = [] := by
    rw [Path.start, if_pos (by simp [String.toList_append])]
  have onward : fs.walk? [] place = some place :=
    walk?_of_leadsDown down (by simpa using above) there
  rw [locate?, if_pos told, names, start, walk?]
  exact onward

/-- A text leads from a directory to a place below it whose names it tells. -/
theorem locate?_from_base {base below : Path} (filled : below ≠ [])
    (down : ∀ name ∈ below, Path.LeadsDown name)
    (above : ∀ front back, below = front ++ back → back ≠ [] →
      fs.get? (base ++ front) = some .directory)
    (there : fs.exist (base ++ below) = true) (told : Path.isTold ("/".intercalate below) = true) :
    fs.locate? base ("/".intercalate below) = some (base ++ below) := by
  have start : Path.start base ("/".intercalate below) = base := by
    obtain ⟨name, rest, rfl⟩ := List.exists_cons_of_ne_nil filled
    have first := down name List.mem_cons_self
    exact Path.start_intercalate base first.moves.1 first.noSlash rest
  rw [locate?, if_pos told, start,
    Path.names_intercalate filled fun name member => (down name member).noSlash]
  exact walk?_of_leadsDown down above there

end Files
end DocQuery
