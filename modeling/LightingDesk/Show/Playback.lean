import LightingDesk.Clock.Pacer
import LightingDesk.Show.Effect
import LightingDesk.Task.Worker

/-!
# Playback

A playback is an effect that runs in a worker of its own and ticks on a stage.  It ticks at
once when it is started, and then each time its pacer says so.  When its effect has been
changed it looks at the clock again, so that a shorter interval counts at once.
-/

namespace LightingDesk

/-- A sink together with the number of failed jobs reported so far. -/
structure Stage (σ : Type) where
  sink : σ
  reported : Nat

namespace Stage

variable {σ : Type} [Sink σ]

/-- The levels that the stage shows. -/
def frame (s : Stage σ) : Frame := Sink.frame s.sink

/-- Does jobs and reports the ones that fail. -/
def play (s : Stage σ) (author : Author) (jobs : List Job) : Stage σ :=
  let (sink, failed) := Sink.performAll s.sink author jobs
  ⟨sink, s.reported + failed⟩

end Stage

/-- An effect that is running. -/
structure Playback where
  effect : Effect
  pacer : Pacer
  worker : Worker

namespace Playback

variable {σ : Type} [Sink σ]

/-- Whether jobs of an effect never return on this stage: there is something to write, and a
write hangs. -/
def blocks (s : Stage σ) (jobs : List Job) : Bool :=
  Sink.hangs s.sink && jobs.any fun job => !job.isSilent

/-- One tick.  A worker that hangs or has broken down no longer ticks. -/
def tick (p : Playback) (s : Stage σ) : Playback × Stage σ :=
  match p.worker.body with
  | .waits =>
    let (effect, jobs) := p.effect.tick s.frame
    if blocks s jobs then ({ p with worker := { p.worker with body := .hangs } }, s)
    else ({ p with effect }, s.play (.effect p.effect.name) jobs)
  | _ => (p, s)

/-- A number of ticks. -/
def ticks : Nat → Playback → Stage σ → Playback × Stage σ
  | 0, p, s => (p, s)
  | n + 1, p, s =>
    let (p', s') := p.tick s
    ticks n p' s'

/-- Starts an effect, which ticks at once. -/
def start (effect : Effect) (now : Nat) (s : Stage σ) : Playback × Stage σ :=
  tick ⟨effect, ⟨now⟩, Worker.spawn ("effect-" ++ effect.name.text) .waits⟩ s

/-- Looks at the clock after the effect has been changed, and ticks if that is due now. -/
def recheck (p : Playback) (now : Nat) (s : Stage σ) : Playback × Stage σ :=
  if p.pacer.isDue p.effect.interval now then tick { p with pacer := ⟨now⟩ } s else (p, s)

/-- Lets time pass up to the instant `stop`. -/
def wait (p : Playback) (stop : Nat) (s : Stage σ) : Playback × Stage σ :=
  let interval := p.effect.interval
  ticks (p.pacer.due interval stop) { p with pacer := p.pacer.advance interval stop } s

/-- Stops the effect, which puts back what it changed; one that hangs puts nothing back. -/
def stop (p : Playback) (limit : Nat) (s : Stage σ) : Stage σ × Except StopError Unit :=
  match p.worker.body with
  | .waits =>
    let (_, jobs) := p.effect.restore
    if blocks s jobs then
      (s, (Worker.stop { p.worker with body := .hangs } limit).2)
    else (s.play (.effect p.effect.name) jobs, (p.worker.stop limit).2)
  | _ => (s, (p.worker.stop limit).2)

end Playback

end LightingDesk
