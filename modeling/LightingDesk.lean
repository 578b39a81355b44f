import LightingDesk.Dmx.Recorder
import LightingDesk.Dmx.Feed
import LightingDesk.Color.Wheel
import LightingDesk.Desk.Lemmas
import LightingDesk.Show.Interleaving
import LightingDesk.Show.Playback
import LightingDesk.Number.Read
import LightingDesk.Number.Shortest
import LightingDesk.Link.Intake
import LightingDesk.Main
import LightingDesk.Proofs.Run
import LightingDesk.Proofs.Choices
import LightingDesk.Proofs.Channels
import LightingDesk.Proofs.Piece
import LightingDesk.Proofs.Playing
import LightingDesk.Proofs.Quiet
import LightingDesk.Proofs.Steady
import LightingDesk.Proofs.Confinement
import LightingDesk.Proofs.Excursion
import LightingDesk.Proofs.Idling
import LightingDesk.Proofs.Performers
import LightingDesk.Proofs.Onset
import LightingDesk.Proofs.Course
import LightingDesk.Proofs.Utf8
import LightingDesk.Proofs.RoundTrip
import LightingDesk.Proofs.Cuts
import LightingDesk.Proofs.RowText
import LightingDesk.Proofs.Filing
import LightingDesk.Proofs.Pacing
import LightingDesk.Proofs.Schedule
import LightingDesk.Proofs.Tempo
import LightingDesk.Proofs.Chasing
import LightingDesk.Proofs.Acceptance
import LightingDesk.Proofs.Bounds
import LightingDesk.Proofs.Aiming
import LightingDesk.Proofs.Mishaps
import LightingDesk.Proofs.Discipline
import LightingDesk.Proofs.Highlighting
import LightingDesk.Proofs.Prompt
import LightingDesk.Proofs.Shutdown
import LightingDesk.Proofs.Announcing
import LightingDesk.Proofs.Mirroring
import LightingDesk.Proofs.Delivery
import LightingDesk.Proofs.Rounds
import LightingDesk.Proofs.Relaying
import LightingDesk.Proofs.Chatter
import LightingDesk.Proofs.Pulsing
import LightingDesk.Proofs.Editing
import LightingDesk.Proofs.Glow
import LightingDesk.Proofs.Pointing
import LightingDesk.Proofs.Coloring
import LightingDesk.Proofs.Portions
import LightingDesk.Proofs.Spelling
