import LightingDesk.Desk.Basic

/-!
# What moves leave alone

Each part of a move changes only what it is there for.  A desk's book is what no effect and no
job ever changes: the rig, the choices and the scenes.

    concluding a move keeps the book                                       (book_conclude)
    a move that is carried out changes the choices by `Controls.after`     (controls_fulfil)
    and the scenes by `scenesAfter`                                        (scenes_fulfil)
    a stop that fails leaves choices and scenes as they were               (carryOut_error)
-/

namespace LightingDesk.Desk

variable {σ : Type} [Sink σ] (d : Desk σ)

/-- What a desk has on record. -/
structure Book where
  rig : List Fixture
  controls : Controls
  scenes : SceneStore

/-- The desk's book. -/
def book (d : Desk σ) : Book := ⟨d.rig, d.controls, d.scenes⟩

/-! ## The stage and the effect -/

theorem book_begin (effect : Effect) : (d.begin effect).book = d.book := rfl

theorem book_retune (p : Playback) (effect : Effect) (stage : Stage σ) :
    (d.retune p effect stage).book = d.book := rfl

theorem book_wait (span : Nat) : (d.wait span).book = d.book := by
  unfold wait
  dsimp only
  split <;> rfl

theorem rig_wait (span : Nat) : (d.wait span).rig = d.rig := congrArg Book.rig (book_wait d span)

theorem controls_wait (span : Nat) : (d.wait span).controls = d.controls :=
  congrArg Book.controls (book_wait d span)

theorem scenes_wait (span : Nat) : (d.wait span).scenes = d.scenes :=
  congrArg Book.scenes (book_wait d span)

theorem book_startHighlight : d.startHighlight.book = d.book := by
  unfold startHighlight
  dsimp only
  split <;> exact book_begin _ _

theorem book_startPreview : d.startPreview.book = d.book := by
  unfold startPreview
  split <;> exact book_begin _ _

theorem book_startChase : d.startChase.book = d.book := by
  unfold startChase
  cases Chase.start? d.scenes.ring.saved d.controls.chaseDelay with
  | none => rfl
  | some chase => exact book_begin d _

theorem book_editHighlight (edit : Highlight × Stage σ → Highlight × Stage σ) :
    (d.editHighlight edit).book = d.book := by
  unfold editHighlight
  split
  · split
    · exact book_retune _ _ _ _
    · rfl
  · rfl

theorem book_pointAt (i : Nat) : (d.pointAt i).book = d.book := by
  unfold pointAt
  cases d.rig[i]? with
  | none => rfl
  | some f => exact book_editHighlight _ _

theorem book_passDelay : d.passDelay.book = d.book := by
  unfold passDelay
  split
  · split
    · exact book_retune _ _ _ _
    · rfl
  · rfl

theorem book_stopEffect : d.stopEffect.1.book = d.book := by
  unfold stopEffect
  split <;> rfl

theorem rig_stopEffect : d.stopEffect.1.rig = d.rig := congrArg Book.rig (book_stopEffect d)

theorem controls_stopEffect : d.stopEffect.1.controls = d.controls :=
  congrArg Book.controls (book_stopEffect d)

theorem scenes_stopEffect : d.stopEffect.1.scenes = d.scenes :=
  congrArg Book.scenes (book_stopEffect d)

theorem playing_stopEffect : d.stopEffect.1.playing = none := by
  unfold stopEffect
  split
  · assumption
  · rfl

/-! ## Moves -/

theorem book_conclude (m : Move) : (d.conclude m).book = d.book := by
  cases m
  case enterLights => exact book_startHighlight _
  case backToLights => exact book_startHighlight _
  case keepEdit => exact book_startHighlight _
  case commitSelection => exact book_startPreview _
  case restage => exact book_startPreview _
  case dropEdit => exact book_startPreview _
  case startChase => exact book_startChase _
  case slower => exact book_passDelay _
  case faster => exact book_passDelay _
  all_goals rfl

/-- The scenes after a move. -/
def scenesAfter (d : Desk σ) : Move → SceneStore
  | .scene .ahead => d.scenes.next
  | .scene .back => d.scenes.previous
  | .liveScene => d.scenes.capture d.scenes.ring.live
  | .saveScene => d.scenes.append d.stage.frame
  | .deleteScene => d.scenes.delete
  | .enterLights | .enterShow _ | .keepEdit => d.scenes.capture d.stage.frame
  | _ => d.scenes

theorem book_prepare (m : Move) :
    (d.prepare m).book = ⟨d.rig, d.controls, d.scenesAfter m⟩ := by
  cases m
  case scene turn => cases turn <;> rfl
  case cursor turn => exact book_pointAt _ _
  case clearSelection => exact book_editHighlight _ _
  case commitStaged => unfold prepare; dsimp only; split <;> rfl
  all_goals rfl

theorem book_fulfil (m : Move) :
    (d.fulfil m).book = ⟨d.rig, d.controls.after d.rig m, d.scenesAfter m⟩ := by
  obtain ⟨hr, hc, hs⟩ : (d.prepare m).rig = d.rig ∧ (d.prepare m).controls = d.controls ∧
      (d.prepare m).scenes = d.scenesAfter m := by
    have h := book_prepare d m
    unfold book at h
    exact ⟨congrArg Book.rig h, congrArg Book.controls h, congrArg Book.scenes h⟩
  unfold fulfil
  rw [book_conclude]
  simp only [book, hr, hc, hs]

theorem rig_fulfil (m : Move) : (d.fulfil m).rig = d.rig :=
  congrArg Book.rig (book_fulfil d m)

theorem controls_fulfil (m : Move) : (d.fulfil m).controls = d.controls.after d.rig m :=
  congrArg Book.controls (book_fulfil d m)

theorem scenes_fulfil (m : Move) : (d.fulfil m).scenes = d.scenesAfter m :=
  congrArg Book.scenes (book_fulfil d m)

theorem carryOut_error (m : Move) {e : StopError} (h : (d.carryOut m).2 = .error e) :
    (d.carryOut m).1 = d.stopEffect.1 ∧ d.stopEffect.2 = .error e := by
  unfold carryOut at h ⊢
  by_cases ha : d.allows m
  · by_cases hm : m.stopsEffect
    · simp only [ha, hm, if_true] at h ⊢
      split at h
      · simp at h
      · rename_i hd
        injection h with h
        rw [hd, h]
        exact ⟨rfl, rfl⟩
    · simp [ha, hm] at h
  · simp [ha] at h

end LightingDesk.Desk
