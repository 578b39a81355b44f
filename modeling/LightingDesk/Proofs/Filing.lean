import Mathlib
import LightingDesk.Proofs.RowText
import LightingDesk.Scene.Store

/-!
# Scenes on file

A store with a file goes on like a ring of scenes in memory, whatever becomes of the file.  The file
is touched only when the saved scenes change; once it has been written it holds them until they
change again.

    what is asked of a store is asked of its ring             (ring_ask, ring_run)
    a file that has been written holds the saved scenes       (scenes_save)
    and keeps them until they change                          (keepsFile_run)
    a store on file is a ring in memory with a faithful file  (filed_run)
-/

namespace LightingDesk

/-- Something asked of a store of scenes. -/
inductive SceneRequest
  | next
  | previous
  | append (scene : Frame)
  | delete
  | capture (scene : Frame)
  | live
  | count
  | position
  | saved
deriving DecidableEq, Repr

/-- What a store of scenes answers. -/
inductive SceneAnswer
  | done
  | scene (scene : Frame)
  | hasDeleted (deleted : Bool)
  | count (n : Nat)
  | position (place : Option Nat)
  | scenes (scenes : List Frame)
deriving DecidableEq, Repr

namespace SceneRing

/-- Does what is asked of a ring in memory. -/
def ask (r : SceneRing) : SceneRequest → SceneRing × SceneAnswer
  | .next => (r.next, .scene r.next.shown)
  | .previous => (r.previous, .scene r.previous.shown)
  | .append scene => (r.append scene, .done)
  | .delete => (r.delete, .hasDeleted r.position.isSome)
  | .capture scene => (r.capture scene, .done)
  | .live => (r, .scene r.live)
  | .count => (r, .count r.count)
  | .position => (r, .position r.position)
  | .saved => (r, .scenes r.saved)

/-- Does what is asked, one after the other. -/
def run (r : SceneRing) (requests : List SceneRequest) : SceneRing :=
  requests.foldl (fun r request => (r.ask request).1) r

/-- What is answered on the way. -/
def answers (r : SceneRing) : List SceneRequest → List SceneAnswer
  | [] => []
  | request :: rest => (r.ask request).2 :: (r.ask request).1.answers rest

/-- Whether a request changes the saved scenes. -/
def changes (r : SceneRing) : SceneRequest → Bool
  | .append _ => true
  | .delete => r.position.isSome
  | _ => false

/-- Whether the saved scenes stay as they are. -/
def KeepsSaved (r : SceneRing) : List SceneRequest → Prop
  | [] => True
  | request :: rest => r.changes request = false ∧ (r.ask request).1.KeepsSaved rest

theorem saved_ask {r : SceneRing} {request : SceneRequest} (h : r.changes request = false) :
    (r.ask request).1.saved = r.saved := by
  cases request with
  | append scene => cases h
  | delete =>
    have hp : r.position = none := by simpa [changes] using h
    simp [ask, delete, hp]
  | _ => rfl

end SceneRing

/-! ## Frames as rows -/

namespace Frame

theorem length_toList (f : Frame) : f.toList.length = universeSize + 1 := by
  simp [toList, universeSize]

theorem ofList_toList (f : Frame) : ofList f.toList = f := by
  refine ext_level fun c hc => ?_
  rw [ofList, level_store, if_pos ⟨Nat.zero_le c, hc⟩, level_of_lt f hc]
  simp [toList, hc]

end Frame

namespace SceneFile

theorem frames_map (path : String) (index : Nat) (scenes : List Frame) :
    frames path index (scenes.map Frame.toList) = .ok scenes := by
  induction scenes generalizing index with
  | nil => rfl
  | cons scene rest ih =>
    rw [List.map_cons, frames, if_pos scene.length_toList, ih, Frame.ofList_toList]
    rfl

/-! ## The file -/

/-- The scenes in a file are a matter of the disk and the path. -/
theorem scenes_fresh (f : SceneFile) : (fresh f.disk f.path).scenes = f.scenes := rfl

theorem path_save (f : SceneFile) (scenes : List Frame) : (f.save scenes).path = f.path := by
  unfold save
  dsimp only
  split <;> rfl

/-- A file that has been written holds the scenes. -/
theorem scenes_save {f : SceneFile} {scenes : List Frame}
    (h : (f.save scenes).failed = f.failed) : (f.save scenes).scenes = .ok scenes := by
  unfold save at h ⊢
  dsimp only at h ⊢
  split at h
  · rename_i disk hput _
    have hfind := Disk.find_put hput
    simp only [SceneFile.scenes, hfind, Rows.read?_render]
    exact frames_map f.path 0 scenes
  · dsimp only at h
    omega

end SceneFile

namespace SceneStore

/-- Does what is asked of a store. -/
def ask (s : SceneStore) : SceneRequest → SceneStore × SceneAnswer
  | .next => (s.next, .scene s.next.ring.shown)
  | .previous => (s.previous, .scene s.previous.ring.shown)
  | .append scene => (s.append scene, .done)
  | .delete => (s.delete, .hasDeleted s.canDelete)
  | .capture scene => (s.capture scene, .done)
  | .live => (s, .scene s.ring.live)
  | .count => (s, .count s.ring.count)
  | .position => (s, .position s.ring.position)
  | .saved => (s, .scenes s.ring.saved)

/-- Does what is asked, one after the other. -/
def run (s : SceneStore) (requests : List SceneRequest) : SceneStore :=
  requests.foldl (fun s request => (s.ask request).1) s

/-- What is answered on the way. -/
def answers (s : SceneStore) : List SceneRequest → List SceneAnswer
  | [] => []
  | request :: rest => (s.ask request).2 :: (s.ask request).1.answers rest

/-- How often the file could not be written. -/
def failures (s : SceneStore) : Nat := s.file.elim 0 (·.failed)

/-- Whether the file of a store is at a path and holds the saved scenes. -/
def KeepsFile (s : SceneStore) (path : String) : Prop :=
  ∃ f, s.file = some f ∧ f.path = path ∧ f.scenes = .ok s.ring.saved

/-! ## One request -/

/-- What is asked of a store is asked of its ring, and the ring answers. -/
theorem ring_ask (s : SceneStore) (request : SceneRequest) :
    (s.ask request).1.ring = (s.ring.ask request).1 ∧
      (s.ask request).2 = (s.ring.ask request).2 := by
  cases request with
  | delete => exact ⟨ring_delete s, rfl⟩
  | _ => exact ⟨rfl, rfl⟩

/-- A request that does not change the saved scenes leaves the file untouched. -/
theorem file_ask {s : SceneStore} {request : SceneRequest}
    (h : s.ring.changes request = false) : (s.ask request).1.file = s.file := by
  cases request with
  | append scene => cases h
  | delete =>
    have hd : s.canDelete = false := h
    simp [ask, delete, hd]
  | _ => rfl

/-- A request that changes the saved scenes writes them to the file. -/
theorem file_ask_of_changes {s : SceneStore} {request : SceneRequest}
    (h : s.ring.changes request = true) :
    (s.ask request).1.file = s.file.map (·.save (s.ask request).1.ring.saved) := by
  cases request with
  | append scene => rfl
  | delete =>
    have hd : s.canDelete = true := h
    simp [ask, delete, hd, save, turn]
  | _ => cases h

theorem path_ask (s : SceneStore) (request : SceneRequest) :
    (s.ask request).1.file.map (·.path) = s.file.map (·.path) := by
  cases h : s.ring.changes request with
  | false => rw [file_ask h]
  | true =>
    rw [file_ask_of_changes h, Option.map_map]
    refine congrFun (congrArg Option.map (funext fun f => ?_)) s.file
    exact f.path_save _

theorem keepsFile_ask {s : SceneStore} {request : SceneRequest} {path : String}
    (h : s.ring.changes request = false) (kept : s.KeepsFile path) :
    (s.ask request).1.KeepsFile path := by
  obtain ⟨f, hf, hpath, hscenes⟩ := kept
  refine ⟨f, (file_ask h).trans hf, hpath, ?_⟩
  rw [(ring_ask s request).1, SceneRing.saved_ask h, hscenes]

/-- A change that is written without a failure is on file. -/
theorem keepsFile_of_changes {s : SceneStore} {request : SceneRequest} {path : String}
    (hs : s.file.map (·.path) = some path) (h : s.ring.changes request = true)
    (ok : (s.ask request).1.failures = s.failures) : (s.ask request).1.KeepsFile path := by
  obtain ⟨f, hf, hpath⟩ := Option.map_eq_some_iff.1 hs
  have hfile := file_ask_of_changes h
  rw [hf, Option.map_some] at hfile
  rw [failures, failures, hfile, hf] at ok
  exact ⟨_, hfile, (f.path_save _).trans hpath, SceneFile.scenes_save ok⟩

/-! ## Runs -/

theorem run_append (s : SceneStore) (before after : List SceneRequest) :
    s.run (before ++ after) = (s.run before).run after := List.foldl_append

theorem ring_run (s : SceneStore) (requests : List SceneRequest) :
    (s.run requests).ring = s.ring.run requests := by
  induction requests generalizing s with
  | nil => rfl
  | cons request rest ih =>
    show ((s.ask request).1.run rest).ring = (s.ring.ask request).1.run rest
    rw [ih, (ring_ask s request).1]

theorem answers_ring (s : SceneStore) (requests : List SceneRequest) :
    s.answers requests = s.ring.answers requests := by
  induction requests generalizing s with
  | nil => rfl
  | cons request rest ih =>
    rw [answers, SceneRing.answers, ih, (ring_ask s request).1, (ring_ask s request).2]

theorem path_run (s : SceneStore) (requests : List SceneRequest) :
    (s.run requests).file.map (·.path) = s.file.map (·.path) := by
  induction requests generalizing s with
  | nil => rfl
  | cons request rest ih => exact (ih (s.ask request).1).trans (path_ask s request)

theorem keepsFile_run {s : SceneStore} {path : String} (kept : s.KeepsFile path)
    {requests : List SceneRequest} (h : s.ring.KeepsSaved requests) :
    (s.run requests).KeepsFile path := by
  induction requests generalizing s with
  | nil => exact kept
  | cons request rest ih =>
    refine ih (keepsFile_ask h.1 kept) ?_
    rw [(ring_ask s request).1]
    exact h.2

theorem load_eq {file : SceneFile} {s : SceneStore} (h : load file = .ok s) :
    s = ⟨SceneRing.ofScenes s.ring.saved, some file⟩ := by
  unfold load at h
  cases hf : file.scenes with
  | error e =>
    rw [hf] at h
    cases h
  | ok scenes =>
    rw [hf] at h
    cases h
    rfl

theorem load_of_keepsFile {s : SceneStore} {path : String} (kept : s.KeepsFile path) :
    ∃ f s', s.file = some f ∧ load (.fresh f.disk path) = .ok s' ∧
      s'.ring = SceneRing.ofScenes s.ring.saved := by
  obtain ⟨f, hf, rfl, hscenes⟩ := kept
  refine ⟨f, ⟨SceneRing.ofScenes s.ring.saved, some (.fresh f.disk f.path)⟩, hf, ?_, rfl⟩
  rw [load, SceneFile.scenes_fresh, hscenes]
  rfl

/-- A store that has been loaded goes on and answers like a ring in memory with the same scenes,
whatever writes fail.  Only a change of the saved scenes touches the file.  When such a change has
been written without a failure, be it after others that were not, then until the next change the
file can be loaded, and gives the saved scenes, a dark live scene, and the place of that scene. -/
theorem filed_run {file : SceneFile} {s : SceneStore} (loaded : load file = .ok s)
    (requests : List SceneRequest) :
    (s.run requests).ring = (SceneRing.ofScenes s.ring.saved).run requests ∧
      s.answers requests = (SceneRing.ofScenes s.ring.saved).answers requests ∧
      ∀ request,
        ((s.run requests).ring.changes request = false →
          ((s.run requests).ask request).1.file = (s.run requests).file) ∧
        ((s.run requests).ring.changes request = true →
          ((s.run requests).ask request).1.failures = (s.run requests).failures →
          ∀ rest, ((s.run requests).ask request).1.ring.KeepsSaved rest →
            ∃ f s', (s.run (requests ++ request :: rest)).file = some f ∧
              load (.fresh f.disk file.path) = .ok s' ∧
              s'.ring.saved = (s.run (requests ++ request :: rest)).ring.saved ∧
              s'.ring.live = Frame.dark ∧ s'.ring.position = none) := by
  have hs := load_eq loaded
  have hring : s.ring = SceneRing.ofScenes s.ring.saved := congrArg ring hs
  have hfile : s.file = some file := congrArg SceneStore.file hs
  refine ⟨?_, ?_, ?_⟩
  · rw [ring_run, ← hring]
  · rw [answers_ring, ← hring]
  · intro request
    refine ⟨file_ask, ?_⟩
    intro change ok rest still
    have hpath : (s.run requests).file.map (·.path) = some file.path := by
      rw [path_run, hfile]
      rfl
    have kept := keepsFile_run (keepsFile_of_changes hpath change ok) still
    obtain ⟨f, s', hf, hl, hr⟩ := load_of_keepsFile kept
    rw [run_append]
    refine ⟨f, s', hf, hl, ?_, ?_, ?_⟩ <;> rw [hr] <;> rfl

/-- A file that does not exist yet and that cannot be written at the first attempt, beside the
folder that the desk works in. -/
def lateFile : SceneFile := ⟨.empty ["srv", "desk"], "../cue", 0, 0, fun n => n == 0⟩

/-- A store with nothing in it, on such a file. -/
def lateStore : SceneStore := ⟨SceneRing.ofScenes [], some lateFile⟩

/-- A scene at the beginning of the universe. -/
def lowScene : Frame := Frame.dark.put 1 10

/-- A scene at its end. -/
def highScene : Frame := Frame.dark.put 512 255

theorem place?_lateFile : lateFile.disk.place? lateFile.path = .ok ["srv", "cue"] := rfl

/-- There is nothing yet where the file is to be. -/
theorem lookup?_lateFile : lateFile.disk.lookup? ["srv", "cue"] = none := by decide

theorem load_lateFile : load lateFile = .ok lateStore := by
  have hs : lateFile.scenes = .ok [] := by
    simp [SceneFile.scenes, Disk.find, place?_lateFile, lookup?_lateFile]
  rw [load, hs]
  rfl

/-- The first scene is not written by itself, but it is on file together with the second. -/
theorem filed_run_lateStore :
    (lateStore.run [.append lowScene]).failures = 1 ∧
      ∃ f s', (lateStore.run [.append lowScene, .append highScene, .next, .count]).file = some f ∧
        load (.fresh f.disk "../cue") = .ok s' ∧ s'.ring.saved = [lowScene, highScene] := by
  have fails : (lateStore.run [.append lowScene]).failures = 1 := by
    simp [lateStore, lateFile, run, ask, append, turn, save, failures, SceneFile.save]
  have written : ((lateStore.run [.append lowScene]).ask (.append highScene)).1.failures =
      (lateStore.run [.append lowScene]).failures := by
    have free : ∀ contents, lateFile.disk.put lateFile.path contents =
        some (lateFile.disk.insert ["srv", "cue"] (.text contents)) := fun _ => by
      simp [Disk.put, place?_lateFile, lookup?_lateFile]
    unfold lateFile at free
    simp [lateStore, lateFile, run, ask, append, turn, save, failures, SceneFile.save, free]
  have all := filed_run load_lateFile [.append lowScene]
  obtain ⟨f, s', hf, hl, hsaved, -, -⟩ :=
    (all.2.2 (.append highScene)).2 rfl written [.next, .count] ⟨rfl, rfl, trivial⟩
  exact ⟨fails, f, s', hf, hl, hsaved⟩

end SceneStore

end LightingDesk
