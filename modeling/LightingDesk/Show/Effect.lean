import LightingDesk.Show.Chase
import LightingDesk.Show.Highlight
import LightingDesk.Show.Previews

/-!
# Effects

An effect is one animation with everything it remembers.  It is ticked once per interval,
and restored once when it is stopped.  Ticks and restores only say which jobs the sink has
to do; a tick reads the sink's levels before its first job.
-/

namespace LightingDesk

/-- The animation that is playing. -/
inductive Effect
  | highlight (h : Highlight)
  | cycle (c : ColorCycle)
  | pulse (p : RawPulse)
  | chase (c : Chase)

namespace Effect

/-- What the effect is called. -/
def name : Effect → EffectName
  | highlight _ => .highlight
  | cycle c =>
    match c.sequence with
    | .presets => .presetCycle
    | .rainbow => .rainbowCycle
  | pulse _ => .rawPulse
  | chase _ => .sceneChase

/-- How long the effect rests between two ticks. -/
def interval : Effect → Nat
  | highlight _ => Span.ofMillis 30
  | cycle c =>
    match c.sequence with
    | .presets => Span.ofMillis 400
    | .rainbow => Span.ofMillis 25
  | pulse _ => Span.ofMillis 30
  | chase c => c.delay

/-- One tick on a sink that shows `frame`. -/
def tick (frame : Frame) : Effect → Effect × List Job
  | highlight h => let (h', jobs) := h.tick frame; (.highlight h', jobs)
  | cycle c => let (c', jobs) := c.tick; (.cycle c', jobs)
  | pulse p => let (p', jobs) := p.tick; (.pulse p', jobs)
  | chase c => let (c', jobs) := c.tick; (.chase c', jobs)

/-- What putting back everything temporary takes. -/
def restore : Effect → Effect × List Job
  | highlight h => let (h', jobs) := h.restore; (.highlight h', jobs)
  | cycle c => (.cycle c, [])
  | pulse p => (.pulse p, p.restore)
  | chase c => (.chase c, [])

/-- A tick never changes which effect it is or how long it rests. -/
theorem interval_tick (frame : Frame) (e : Effect) :
    (e.tick frame).1.name = e.name ∧ (e.tick frame).1.interval = e.interval := by
  cases e <;> exact ⟨rfl, rfl⟩

end Effect

end LightingDesk
