import LightingDesk.Clock.Pacer
import LightingDesk.Link.Post
import LightingDesk.Remote.Wire

/-!
# Heartbeats

A heartbeat tells the controller that the desk is alive and which mode it is in.  It goes
to everyone until a controller has been heard, and then to that controller alone.  Failures
to reach it are borne until the third in a row, which goes to everyone instead.  A
heartbeat that everyone was to get and that could not be sent is an error.  Heartbeats go
out at once, then once per interval, and whenever the desk asks for one.

    hearing the controller that is aimed at changes nothing           (observe_again)
-/

namespace LightingDesk

/-- Whom heartbeats are for: everyone, or one controller that could not be reached so many times
in a row. -/
inductive Aim
  | everyone
  | only (host : Ip) (failures : Nat)
deriving DecidableEq, Repr

namespace Aim

/-- How often in a row a controller may be missed before everyone is tried. -/
def failureLimit : Nat := 3

/-- How many heartbeats in a row have been missed. -/
def failures : Aim → Nat
  | everyone => 0
  | only _ n => n

/-- Aims at the controller that has been heard. -/
def observe (a : Aim) (host : Ip) : Aim :=
  match a with
  | everyone => only host 0
  | only known _ => if known = host then a else only host 0

theorem observe_again (host : Ip) (n : Nat) : (only host n).observe host = only host n := by
  simp [observe]

end Aim

/-- The heartbeats of a desk.  `pacer` remembers when the last periodic one was sent; there are
no more of these once one has failed. -/
structure Heartbeat where
  broadcast : Address
  aim : Aim
  mode : UInt8
  interval : Nat
  pacer : Pacer
  failed : Bool
  post : Post

namespace Heartbeat

/-- The address of a controller: heartbeats keep to the port that everyone uses. -/
def addressOf (h : Heartbeat) (host : Ip) : Address := ⟨host, h.broadcast.port, 0⟩

/-- Sends a heartbeat to everyone. -/
def sendAll (h : Heartbeat) (now : Nat) : Heartbeat × Bool :=
  let out := h.post.send now h.broadcast (Wire.heartbeat h.mode)
  ({ h with aim := .everyone, post := out.1 }, out.2)

/-- Sends one heartbeat, and whether that was not an error. -/
def send (h : Heartbeat) (now : Nat) : Heartbeat × Bool :=
  match h.aim with
  | .everyone => h.sendAll now
  | .only host failures =>
    let out := h.post.send now (h.addressOf host) (Wire.heartbeat h.mode)
    if out.2 then ({ h with aim := .only host 0, post := out.1 }, true)
    else if failures + 1 < Aim.failureLimit then
      ({ h with aim := .only host (failures + 1), post := out.1 }, true)
    else sendAll { h with post := out.1 } now

/-- Tells the controller a mode, and from now on that mode. -/
def beat (h : Heartbeat) (mode : UInt8) (now : Nat) : Heartbeat × Bool := send { h with mode } now

/-- Aims at the controller that has been heard. -/
def observe (h : Heartbeat) (host : Ip) : Heartbeat := { h with aim := h.aim.observe host }

/-- The heartbeat that is due, unless an earlier one has failed. -/
def pulse (h : Heartbeat) (now : Nat) : Heartbeat :=
  if h.failed then h
  else
    let sent := send { h with pacer := ⟨now⟩ } now
    { sent.1 with failed := !sent.2 }

/-- Starts heartbeats, the first one at once. -/
def start (broadcast : Address) (interval : Nat) (mode : UInt8) (now : Nat) (post : Post) :
    Heartbeat :=
  pulse ⟨broadcast, .everyone, mode, interval, ⟨now⟩, false, post⟩ now

/-- Sends what falls due up to the instant `stop`; with an interval of zero nothing does. -/
def wait (h : Heartbeat) (stop : Nat) : Heartbeat :=
  (h.pacer.instants h.interval stop).foldl pulse h

end Heartbeat

end LightingDesk
