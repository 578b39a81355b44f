import LightingDesk.Link.Address

/-!
# The post

Datagrams go out through the post, which may fail to take one.  It keeps those that it took,
with the instant at which they went out.
-/

namespace LightingDesk

/-- A datagram that has gone out. -/
structure Datagram where
  instant : Nat
  target : Address
  bytes : List UInt8
deriving DecidableEq, Repr

/-- What has gone out, newest first.  `takes n a` says whether the `n`-th datagram can be sent to
the address `a`. -/
structure Post where
  attempts : Nat
  sent : List Datagram
  takes : Nat → Address → Bool

namespace Post

/-- A post through which nothing has gone out. -/
def fresh (takes : Nat → Address → Bool) : Post := ⟨0, [], takes⟩

/-- Sends a datagram, and whether it went out. -/
def send (p : Post) (instant : Nat) (target : Address) (bytes : List UInt8) : Post × Bool :=
  if p.takes p.attempts target then
    ({ p with attempts := p.attempts + 1, sent := ⟨instant, target, bytes⟩ :: p.sent }, true)
  else ({ p with attempts := p.attempts + 1 }, false)

end Post

end LightingDesk
