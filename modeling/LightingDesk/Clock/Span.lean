/-!
# Spans of time

Spans and instants are counted in whole nanoseconds; an instant is the span since the clock
was started.
-/

namespace LightingDesk

namespace Span

/-- A number of milliseconds. -/
def ofMillis (n : Nat) : Nat := n * 1000000

/-- A number of seconds. -/
def ofSeconds (n : Nat) : Nat := n * 1000000000

/-- The whole milliseconds in a span. -/
def millis (s : Nat) : Nat := s / 1000000

/-- The whole seconds in a span. -/
def seconds (s : Nat) : Nat := s / 1000000000

/-- A count of `unit`s with as many decimals as it needs: a part of `10 ^ digits` is written
after a point, without closing zeros. -/
def decimal (whole part digits : Nat) (unit : String) : String :=
  let written := (toString part).toList
  let padded := List.replicate (digits - written.length) '0' ++ written
  let needed := (padded.reverse.dropWhile (· == '0')).reverse
  if needed.isEmpty then s!"{whole}{unit}" else s!"{whole}.{String.ofList needed}{unit}"

/-- A span in the largest of the units s, ms, µs and ns that it fills. -/
def text (s : Nat) : String :=
  if 1000000000 ≤ s then decimal (s / 1000000000) (s % 1000000000) 9 "s"
  else if 1000000 ≤ s then decimal (s / 1000000) (s % 1000000) 6 "ms"
  else if 1000 ≤ s then decimal (s / 1000) (s % 1000) 3 "µs"
  else s!"{s}ns"

/-- The nanoseconds of a span beyond its whole seconds. -/
def subseconds (s : Nat) : Nat := s % 1000000000

end Span

end LightingDesk
