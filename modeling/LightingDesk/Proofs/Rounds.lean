import LightingDesk.Proofs.Filing
import Mathlib.Data.List.Rotate

/-!
# Round the ring

The places of a ring are counted from that of the live scene, which is 0, through those of the saved
scenes in order.  Moving forward adds one to the count and moving back takes one away, both modulo
the number of places, so that as many moves as there are places visit each of them once.

    moving forward adds one to the count                      (rank_ahead)
    moving forward leads through the places in order          (positions_next)
    and as many moves as there are places lead back           (iterate_next)
    moving back leads through the same places in reverse      (positions_previous)
    the ring after any requests                               (ring_rounds)
-/

namespace LightingDesk

namespace SceneRing

/-- The place with a count: the live scene's for 0, and then the saved scenes'. -/
def place : Nat → Option Nat
  | 0 => none
  | k + 1 => some k

/-- The count of a place. -/
def rank : Option Nat → Nat
  | none => 0
  | some i => i + 1

/-- All places of a ring of `n` saved scenes. -/
def places (n : Nat) : List (Option Nat) := none :: (List.range n).map some

/-- The scene that a ring has at a place. -/
def sceneAt (r : SceneRing) (p : Option Nat) : Frame := (p.bind (r.saved[·]?)).getD r.live

/-- Whether a scene is the one at the position. -/
def StandsAt (r : SceneRing) (scene : Frame) : Prop :=
  match r.position with
  | none => scene = r.live
  | some i => r.saved[i]? = some scene

/-- The positions of a ring after each of some requests. -/
def positions (r : SceneRing) : List SceneRequest → List (Option Nat)
  | [] => []
  | request :: rest => (r.ask request).1.position :: (r.ask request).1.positions rest

/-! ## Places -/

theorem place_rank (p : Option Nat) : place (rank p) = p := by
  cases p <;> rfl

theorem places_eq (n : Nat) : places n = (List.range (n + 1)).map place := by
  rw [List.range_succ_eq_map, List.map_cons, List.map_map]
  rfl

theorem rank_lt {n : Nat} {p : Option Nat} (h : ∀ i ∈ p, i < n) : rank p < n + 1 := by
  cases p with
  | none => exact Nat.succ_pos n
  | some i => exact Nat.succ_lt_succ (h i rfl)

theorem rank_ahead {n : Nat} {p : Option Nat} (h : ∀ i ∈ p, i < n) :
    rank (ahead n p) = (rank p + 1) % (n + 1) := by
  cases p with
  | none =>
    show rank (if 0 < n then some 0 else none) = 1 % (n + 1)
    split
    · rw [Nat.mod_eq_of_lt (by omega)]
      rfl
    · rw [show n = 0 by omega]
      rfl
  | some i =>
    have hi := h i rfl
    show rank (if i + 1 < n then some (i + 1) else none) = (i + 1 + 1) % (n + 1)
    split
    · rw [Nat.mod_eq_of_lt (by omega)]
      rfl
    · rw [show i + 1 + 1 = n + 1 by omega, Nat.mod_self]
      rfl

theorem map_sceneAt_places (r : SceneRing) :
    (places r.saved.length).map r.sceneAt = r.live :: r.saved := by
  have hsaved : (List.range r.saved.length).map (r.sceneAt ∘ some) = r.saved := by
    refine List.ext_getElem (by simp) fun i _ hi => ?_
    simp [sceneAt, hi]
  rw [places, List.map_cons, List.map_map, hsaved]
  rfl

theorem standsAt_shown (r : SceneRing) : r.StandsAt r.shown := by
  unfold StandsAt shown
  cases hp : r.position with
  | none => rfl
  | some i => simp [r.position_lt i hp]

/-! ## Moves -/

theorem eq_of_position {r s : SceneRing} (hsaved : r.saved = s.saved) (hlive : r.live = s.live)
    (hposition : r.position = s.position) : r = s := by
  cases r
  cases s
  cases hsaved
  cases hlive
  cases hposition
  rfl

theorem previous_next (r : SceneRing) : r.next.previous = r :=
  eq_of_position rfl rfl (back_ahead r.saved.length r.position r.position_lt)

theorem next_previous (r : SceneRing) : r.previous.next = r :=
  eq_of_position rfl rfl (ahead_back r.saved.length r.position r.position_lt)

theorem kept_iterate_next (r : SceneRing) (k : Nat) :
    (next^[k] r).saved = r.saved ∧ (next^[k] r).live = r.live := by
  induction k with
  | zero => exact ⟨rfl, rfl⟩
  | succ k ih =>
    rw [Function.iterate_succ_apply']
    exact ih

theorem rank_iterate_next (r : SceneRing) (k : Nat) :
    rank (next^[k] r).position = (rank r.position + k) % (r.saved.length + 1) := by
  induction k with
  | zero => exact (Nat.mod_eq_of_lt (rank_lt r.position_lt)).symm
  | succ k ih =>
    have hstep : rank (next^[k] r).next.position = _ := rank_ahead (next^[k] r).position_lt
    rw [Function.iterate_succ_apply', hstep, (kept_iterate_next r k).1, ih, Nat.mod_add_mod,
      Nat.add_assoc]

theorem position_iterate_next (r : SceneRing) (k : Nat) :
    (next^[k] r).position = place ((rank r.position + k) % (r.saved.length + 1)) := by
  rw [← rank_iterate_next, place_rank]

/-- As many moves as there are places lead back to the start. -/
theorem iterate_next (r : SceneRing) : next^[r.saved.length + 1] r = r := by
  obtain ⟨hsaved, hlive⟩ := kept_iterate_next r (r.saved.length + 1)
  refine eq_of_position hsaved hlive ?_
  rw [position_iterate_next, Nat.add_mod_right, Nat.mod_eq_of_lt (rank_lt r.position_lt),
    place_rank]

/-- Moving back undoes moving forward, and so leads on the rest of the way round. -/
theorem iterate_previous (r : SceneRing) {j : Nat} (h : j ≤ r.saved.length + 1) :
    previous^[j] r = next^[r.saved.length + 1 - j] r := by
  have hround : next^[j] (next^[r.saved.length + 1 - j] r) = r := by
    rw [← Function.iterate_add_apply, Nat.add_sub_cancel' h, iterate_next]
  have hundo := Function.LeftInverse.iterate previous_next j (next^[r.saved.length + 1 - j] r)
  rwa [hround] at hundo

/-! ## Requests to move -/

/-- A request to move, and how it moves. -/
structure Moves (request : SceneRequest) (move : SceneRing → SceneRing) : Prop where
  ask_eq : ∀ r : SceneRing, r.ask request = (move r, .scene (move r).shown)
  saved_eq : ∀ r : SceneRing, (move r).saved = r.saved
  live_eq : ∀ r : SceneRing, (move r).live = r.live

theorem moves_next : Moves .next next := ⟨fun _ => rfl, fun _ => rfl, fun _ => rfl⟩

theorem moves_previous : Moves .previous previous := ⟨fun _ => rfl, fun _ => rfl, fun _ => rfl⟩

variable {request : SceneRequest} {move : SceneRing → SceneRing}

theorem Moves.run_replicate (h : Moves request move) (r : SceneRing) (m : Nat) :
    r.run (List.replicate m request) = move^[m] r := by
  induction m generalizing r with
  | zero => rfl
  | succ m ih =>
    show (r.ask request).1.run (List.replicate m request) = move^[m] (move r)
    rw [ih, h.ask_eq]

theorem Moves.positions_replicate (h : Moves request move) (r : SceneRing) (m : Nat) :
    r.positions (List.replicate m request) =
      (List.range m).map fun k => (move^[k + 1] r).position := by
  induction m generalizing r with
  | zero => rfl
  | succ m ih =>
    rw [List.replicate_succ, positions, ih, h.ask_eq, List.range_succ_eq_map, List.map_cons,
      List.map_map]
    rfl

/-- The way from the start, with the start. -/
theorem Moves.start_positions (h : Moves request move) (r : SceneRing) (m : Nat) :
    r.position :: r.positions (List.replicate m request) =
      (List.range (m + 1)).map fun k => (move^[k] r).position := by
  rw [h.positions_replicate, List.range_succ_eq_map, List.map_cons, List.map_map]
  rfl

/-- What is answered on the way are the scenes at the places that are visited. -/
theorem Moves.answers_replicate (h : Moves request move) (r : SceneRing) (m : Nat) :
    r.answers (List.replicate m request) =
      (r.positions (List.replicate m request)).map fun p => .scene (r.sceneAt p) := by
  induction m generalizing r with
  | zero => rfl
  | succ m ih =>
    have hscene : (move r).sceneAt = r.sceneAt := by
      funext p
      rw [sceneAt, sceneAt, h.saved_eq, h.live_eq]
    rw [List.replicate_succ, answers, positions, ih, h.ask_eq, List.map_cons, hscene, ← hscene]
    rfl

theorem positions_next (r : SceneRing) :
    r.positions (List.replicate (r.saved.length + 1) .next) =
      (places r.saved.length).rotate (rank r.position + 1) := by
  rw [moves_next.positions_replicate, places_eq]
  refine List.ext_getElem (by simp) fun k _ _ => ?_
  rw [List.getElem_map, List.getElem_range, position_iterate_next, List.getElem_rotate,
    List.getElem_map, List.getElem_range]
  simp only [List.length_map, List.length_range]
  congr 2
  omega

theorem positions_previous (r : SceneRing) :
    r.position :: r.positions (List.replicate (r.saved.length + 1) .previous) =
      (r.position :: r.positions (List.replicate (r.saved.length + 1) .next)).reverse := by
  rw [moves_previous.start_positions, moves_next.start_positions]
  refine List.ext_getElem (by simp) fun k hk _ => ?_
  have hk' : k ≤ r.saved.length + 1 := by
    rw [List.length_map, List.length_range] at hk
    omega
  rw [List.getElem_map, List.getElem_range, iterate_previous r hk', List.getElem_reverse,
    List.getElem_map, List.getElem_range, List.length_map, List.length_range]
  rfl

/-! ## Changes -/

theorem standsAt_append (r : SceneRing) (scene shown : Frame) :
    (r.append scene).StandsAt shown ↔ r.StandsAt shown := by
  unfold StandsAt
  rw [show (r.append scene).position = r.position from rfl]
  cases hp : r.position with
  | none => rfl
  | some i =>
    show (r.saved ++ [scene])[i]? = some shown ↔ _
    rw [List.getElem?_append_left (r.position_lt i hp)]

theorem ask_delete_of_saved {r : SceneRing} {i : Nat} (h : r.position = some i) :
    (r.ask .delete).2 = .hasDeleted true ∧
      (r.ask .delete).1.saved = r.saved.take i ++ r.saved.drop (i + 1) ∧
      (r.ask .delete).1.live = r.live ∧ (r.ask .delete).1.position = none := by
  simp [ask, delete, h, List.eraseIdx_eq_take_drop_succ]

theorem ask_delete_of_live {r : SceneRing} (h : r.position = none) :
    r.ask .delete = (r, .hasDeleted false) := by
  simp [ask, delete, h]

/-- A ring of which anything has been asked is at the live scene or at a saved one.  A move forward
and a move back undo each other; as many moves forward as there are places lead through all places,
and so past all scenes, in order back to the start, and as many moves back lead the same way in
reverse.  A move answers with the scene to which it leads and changes no scene.  A new scene is
saved behind the others, and the ring stands at the same scene as before.  Deleting takes away the
saved scene at the position alone and moves to the live scene; there it does nothing. -/
theorem ring_rounds (saved : List Frame) (requests : List SceneRequest) :
    let r := (ofScenes saved).run requests
    let forward := List.replicate (r.saved.length + 1) SceneRequest.next
    let backward := List.replicate (r.saved.length + 1) SceneRequest.previous
    (∀ i ∈ r.position, i < r.saved.length) ∧
      r.next.previous = r ∧ r.previous.next = r ∧
      r.run forward = r ∧ r.run backward = r ∧
      r.positions forward = (places r.saved.length).rotate (rank r.position + 1) ∧
      r.answers forward = ((r.live :: r.saved).rotate (rank r.position + 1)).map .scene ∧
      r.position :: r.positions backward = (r.position :: r.positions forward).reverse ∧
      .scene r.shown :: r.answers backward = (.scene r.shown :: r.answers forward).reverse ∧
      (∀ request, request = .next ∨ request = .previous →
        ∃ scene, (r.ask request).2 = .scene scene ∧ (r.ask request).1.StandsAt scene ∧
          (r.ask request).1.saved = r.saved ∧ (r.ask request).1.live = r.live) ∧
      (∀ scene, (r.append scene).saved = r.saved ++ [scene] ∧ (r.append scene).live = r.live ∧
        (r.append scene).position = r.position ∧
        ∀ shown, (r.append scene).StandsAt shown ↔ r.StandsAt shown) ∧
      match r.position with
      | some i =>
        (r.ask .delete).2 = .hasDeleted true ∧
          (r.ask .delete).1.saved = r.saved.take i ++ r.saved.drop (i + 1) ∧
          (r.ask .delete).1.live = r.live ∧ (r.ask .delete).1.position = none
      | none => r.ask .delete = (r, .hasDeleted false) := by
  intro r forward backward
  have hforward : r.answers forward = (r.positions forward).map fun p => .scene (r.sceneAt p) :=
    moves_next.answers_replicate r _
  have hbackward : r.answers backward = (r.positions backward).map fun p => .scene (r.sceneAt p) :=
    moves_previous.answers_replicate r _
  refine ⟨r.position_lt, r.previous_next, r.next_previous, ?_, ?_, r.positions_next, ?_,
    r.positions_previous, ?_, ?_, ?_, ?_⟩
  · exact (moves_next.run_replicate r _).trans r.iterate_next
  · refine (moves_previous.run_replicate r _).trans ?_
    rw [r.iterate_previous (Nat.le_refl _), Nat.sub_self]
    rfl
  · rw [hforward, positions_next, ← map_sceneAt_places, List.map_rotate, List.map_rotate,
      List.map_map]
    rfl
  · have hreverse := congrArg (List.map fun p => SceneAnswer.scene (r.sceneAt p))
      r.positions_previous
    rw [List.map_reverse, List.map_cons, List.map_cons] at hreverse
    rw [hforward, hbackward]
    exact hreverse
  · rintro request (rfl | rfl)
    · exact ⟨r.next.shown, rfl, r.next.standsAt_shown, rfl, rfl⟩
    · exact ⟨r.previous.shown, rfl, r.previous.standsAt_shown, rfl, rfl⟩
  · exact fun scene => ⟨rfl, rfl, rfl, r.standsAt_append scene⟩
  · cases hp : r.position with
    | some i => exact ask_delete_of_saved hp
    | none => exact ask_delete_of_live hp

/-- Once round two saved scenes from the live one, and back again. -/
example (a b : Frame) : (ofScenes [a, b]).positions
    [.next, .next, .next, .previous, .previous, .previous] =
      [some 0, some 1, none, some 1, some 0, none] := rfl

end SceneRing

end LightingDesk
