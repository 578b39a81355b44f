/-!
# Disks

A disk holds folders, and in them texts and other folders.  What it holds is known by the names that
lead there from the root.  A path is followed part by part: from the root if it begins with a slash,
and else from the folder that the desk works in.

    where a path leads once, it leads after a write too            (place?_insert)
    what has been written to a path is found there again           (find_put)
-/

namespace LightingDesk

/-- What a disk holds at a place. -/
inductive Entry
  | text (contents : String)
  | folder
deriving DecidableEq, Repr

/-- What stands at the end of a path: nothing, a folder, a file, or something that cannot be
opened, such as a path that goes on behind a file. -/
inductive Found
  | nothing
  | folder
  | text (contents : String)
  | barred
deriving DecidableEq, Repr

/-- The names that lead somewhere from the root, the outermost first. -/
abbrev Place := List String

/-- Entries by place, of which the first counts, and the folder that the desk works in. -/
structure Disk where
  entries : List (Place × Entry)
  home : Place
deriving DecidableEq, Repr

namespace Disk

/-- A disk that holds nothing but the folder that the desk works in, and those around it. -/
def empty (home : Place) : Disk := ⟨[], home⟩

/-- The longest name that a file can have, in bytes. -/
def maxName : Nat := 255

/-- The longest path that can be followed, in bytes. -/
def maxPath : Nat := 4095

/-- What the disk holds at a place.  The folder that the desk works in is always there, with those
around it. -/
def lookup? (d : Disk) (place : Place) : Option Entry :=
  if place.isPrefixOf d.home then some .folder
  else (d.entries.find? (·.1 == place)).map (·.2)

/-! ## Paths -/

/-- Cuts a path at its slashes. -/
def cut : List Char → List (List Char)
  | [] => [[]]
  | c :: rest =>
    if c = '/' then [] :: cut rest
    else
      match cut rest with
      | part :: more => (c :: part) :: more
      | [] => [[c]]

/-- The parts of a path, of which some may be empty. -/
def parts (path : String) : List String := (cut path.toList).map String.ofList

/-- Whether a path begins at the root. -/
def isAbsolute (path : String) : Bool := path.toList.head? = some '/'

/-- Goes on from a place by a part of a path, if a folder is there.  An empty part and a single
point stay in it, and two points leave it. -/
def follow (d : Disk) (place : Place) (part : String) : Except Found Place :=
  match d.lookup? place with
  | none => .error .nothing
  | some (.text _) => .error .barred
  | some .folder =>
    if part = "" ∨ part = "." then .ok place
    else if part = ".." then .ok place.dropLast
    else if maxName < part.utf8ByteSize then .error .barred
    else .ok (place ++ [part])

/-- Where a path leads, or what is found instead if it cannot be followed to its end. -/
def place? (d : Disk) (path : String) : Except Found Place :=
  if path.toList.contains '\x00' ∨ maxPath < path.utf8ByteSize then .error .barred
  else if path = "" then .error .nothing
  else (parts path).foldlM d.follow (if isAbsolute path then [] else d.home)

/-- What stands at the end of a path. -/
def find (d : Disk) (path : String) : Found :=
  match d.place? path with
  | .error found => found
  | .ok place =>
    match d.lookup? place with
    | none => .nothing
    | some .folder => .folder
    | some (.text contents) => .text contents

/-! ## Changes -/

/-- Puts something at a place, in place of what was there. -/
def insert (d : Disk) (place : Place) (entry : Entry) : Disk :=
  { d with entries := (place, entry) :: d.entries.filter (·.1 != place) }

/-- Makes a folder at the end of a path, if it can be followed and nothing is there. -/
def addFolder (d : Disk) (path : String) : Disk :=
  match d.place? path with
  | .error _ => d
  | .ok place =>
    match d.lookup? place with
    | none => d.insert place .folder
    | some _ => d

/-- Writes a file, unless its path cannot be followed or leads to a folder. -/
def put (d : Disk) (path : String) (contents : String) : Option Disk :=
  match d.place? path with
  | .error _ => none
  | .ok place =>
    match d.lookup? place with
    | some .folder => none
    | _ => some (d.insert place (.text contents))

/-! ## Lemmas -/

/-- What is put where no folder is stands there, and all else stays. -/
theorem lookup?_insert (d : Disk) {place : Place} (free : d.lookup? place ≠ some .folder)
    (entry : Entry) (other : Place) :
    (d.insert place entry).lookup? other =
      if other = place then some entry else d.lookup? other := by
  have outside : place.isPrefixOf d.home = false := by
    rw [Bool.eq_false_iff]
    intro inside
    exact free (if_pos inside)
  by_cases hp : other = place
  · subst hp
    simp [lookup?, insert, outside]
  · have skipped : (d.entries.filter (·.1 != place)).find? (·.1 == other) =
        d.entries.find? (·.1 == other) := by
      rw [List.find?_filter]
      refine congrArg (List.find? · d.entries) (funext fun e => ?_)
      by_cases he : e.1 = other
      · simp [he, hp]
      · simp [he]
    simp [lookup?, insert, skipped, hp, Ne.symm hp]

/-- A path goes on from folders only. -/
theorem folder_of_follow {d : Disk} {place next : Place} {part : String}
    (h : d.follow place part = .ok next) : d.lookup? place = some .folder := by
  unfold follow at h
  split at h
  · cases h
  · cases h
  · assumption

/-- Writing a file touches no folder, so that a path goes on as before. -/
theorem follow_insert {d : Disk} {place : Place} (free : d.lookup? place ≠ some .folder)
    (entry : Entry) {start next : Place} {part : String} (h : d.follow start part = .ok next) :
    (d.insert place entry).follow start part = .ok next := by
  have apart : start ≠ place := by
    rintro rfl
    exact free (folder_of_follow h)
  unfold follow at h ⊢
  rw [lookup?_insert d free, if_neg apart]
  exact h

theorem foldlM_follow_insert {d : Disk} {place : Place} (free : d.lookup? place ≠ some .folder)
    (entry : Entry) {parts : List String} {start goal : Place}
    (leads : parts.foldlM d.follow start = .ok goal) :
    parts.foldlM (d.insert place entry).follow start = .ok goal := by
  induction parts generalizing start with
  | nil => exact leads
  | cons part rest ih =>
    rw [List.foldlM_cons] at leads ⊢
    cases hn : d.follow start part with
    | error found =>
      rw [hn] at leads
      cases leads
    | ok next =>
      rw [hn] at leads
      rw [follow_insert free entry hn]
      exact ih leads

theorem place?_insert {d : Disk} {place : Place} (free : d.lookup? place ≠ some .folder)
    (entry : Entry) {path : String} {goal : Place} (leads : d.place? path = .ok goal) :
    (d.insert place entry).place? path = .ok goal := by
  unfold place? at leads ⊢
  split at leads
  · cases leads
  · rename_i short
    rw [if_neg short]
    split at leads
    · cases leads
    · rename_i named
      rw [if_neg named]
      exact foldlM_follow_insert free entry leads

theorem find_put {d d' : Disk} {path contents : String} (h : d.put path contents = some d') :
    d'.find path = .text contents := by
  unfold put at h
  split at h
  · cases h
  · rename_i place leads
    have free : d.lookup? place ≠ some .folder := by
      intro there
      rw [there] at h
      cases h
    have written : d' = d.insert place (.text contents) := by
      split at h
      · cases h
      · exact (Option.some.inj h).symm
    unfold find
    rw [written, place?_insert free _ leads]
    simp only [lookup?_insert d free, if_pos]

end Disk

end LightingDesk
