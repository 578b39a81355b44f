import LightingDesk.Disk.Tree
import LightingDesk.Scene.Ring
import LightingDesk.Scene.Rows

/-!
# The scene store

A store is a ring of scenes that may have a file.  The file holds the saved scenes, and
is written anew after each change to them; when that fails the change stays.  A file that
does not exist yet holds no scenes.

    what an operation does to the ring does not depend on the file          (ring_delete)
-/

namespace LightingDesk

/-- Why a scene file cannot be used. -/
inductive SceneError
  | unreadable (path : String)
  | malformed (path : String)
  | badLength (path : String) (index length : Nat)
deriving DecidableEq, Repr

/-- The text shown for a scene file that cannot be used. -/
def SceneError.message : SceneError → String
  | .unreadable path => s!"unable to access scene file {path}"
  | .malformed path => s!"unable to parse scene file {path}"
  | .badLength path index length =>
    s!"scene {index} in {path} has {length} values, expected {universeSize + 1}"

/-- The file behind a store: the disk and the path that leads to it there, how often it was to be
written and how often that failed.  `refuses n` says that the `n`-th attempt comes to nothing. -/
structure SceneFile where
  disk : Disk
  path : String
  attempts : Nat
  failed : Nat
  refuses : Nat → Bool

namespace SceneFile

/-- A file that has not been written yet. -/
def fresh (disk : Disk) (path : String) : SceneFile := ⟨disk, path, 0, 0, fun _ => false⟩

/-- The frames of rows that all have the right length; otherwise the first that has not. -/
def frames (path : String) (index : Nat) : List (List UInt8) → Except SceneError (List Frame)
  | [] => .ok []
  | row :: rest =>
    if row.length = universeSize + 1 then
      (frames path (index + 1) rest).map (Frame.ofList row :: ·)
    else .error (.badLength path index row.length)

/-- The scenes in the file. -/
def scenes (f : SceneFile) : Except SceneError (List Frame) :=
  match f.disk.find f.path with
  | .nothing => .ok []
  | .folder => .error (.unreadable f.path)
  | .barred => .error (.unreadable f.path)
  | .text contents =>
    match Rows.read? contents with
    | none => .error (.malformed f.path)
    | some rows => frames f.path 0 rows

/-- Writes scenes to the file. -/
def save (f : SceneFile) (scenes : List Frame) : SceneFile :=
  let written := f.disk.put f.path (Rows.render (scenes.map Frame.toList))
  match written, f.refuses f.attempts with
  | some disk, false => { f with disk, attempts := f.attempts + 1 }
  | _, _ => { f with attempts := f.attempts + 1, failed := f.failed + 1 }

end SceneFile

/-- A ring of scenes and the file that holds the saved ones, if there is one. -/
structure SceneStore where
  ring : SceneRing
  file : Option SceneFile

namespace SceneStore

/-- A store that forgets everything. -/
def inMemory (saved : List Frame) : SceneStore := ⟨SceneRing.ofScenes saved, none⟩

/-- A store with the scenes of a file. -/
def load (file : SceneFile) : Except SceneError SceneStore := do
  return ⟨SceneRing.ofScenes (← file.scenes), some file⟩

/-- Changes the ring without touching the file. -/
def turn (s : SceneStore) (change : SceneRing → SceneRing) : SceneStore :=
  { s with ring := change s.ring }

/-- Writes the saved scenes to the file. -/
def save (s : SceneStore) : SceneStore := { s with file := s.file.map (·.save s.ring.saved) }

/-- Moves one place forward. -/
def next (s : SceneStore) : SceneStore := s.turn SceneRing.next

/-- Moves one place back. -/
def previous (s : SceneStore) : SceneStore := s.turn SceneRing.previous

/-- Makes a frame the live scene. -/
def capture (s : SceneStore) (scene : Frame) : SceneStore := s.turn (·.capture scene)

/-- Saves a scene behind the others. -/
def append (s : SceneStore) (scene : Frame) : SceneStore := (s.turn (·.append scene)).save

/-- Whether there is a saved scene at the position. -/
def canDelete (s : SceneStore) : Bool := s.ring.position.isSome

/-- Deletes the saved scene at the position, if there is one. -/
def delete (s : SceneStore) : SceneStore :=
  if s.canDelete then (s.turn SceneRing.delete).save else s

theorem ring_delete (s : SceneStore) : s.delete.ring = s.ring.delete := by
  unfold delete canDelete
  split
  · rfl
  · rename_i h
    have : s.ring.position = none := by simpa using h
    simp [SceneRing.delete, this]

end SceneStore

end LightingDesk
