import LightingDesk.Setup.FixtureSpec
import LightingDesk.Yaml.Written

/-!
# Listings

A plot as the operator sees it: a line for each fixture, or the fixtures as they could stand in a
configuration, with every channel spelled out.
-/

namespace LightingDesk.Listing

open Yaml

/-- The name of the channel that is lit when a fixture has to be seen. -/
def colorName (f : Fixture) : String := (f.defaultColor.bind (f.channels[·]?)).getD "none"

/-- The lines about fixtures. -/
def plain (plot : List Fixture) : List String :=
  s!"Fixtures (count: {plot.length}):" ::
    plot.map fun f => s!"- {f.describe} (default color: {colorName f})"

/-- A description as an item of a list. -/
def item (s : FixtureSpec) : List String :=
  let channels := match s.channels with
    | some [] => ["channels: []"]
    | some names =>
      "channels:" :: names.flatMap fun name => Written.behind "- " (Written.write name)
    | none => []
  let layout := match s.layout with
    | some name => Written.behind "template: " (Written.write name)
    | none => []
  Written.behind "- " (Written.behind "name: " (Written.write s.name) ++
    [s!"address: {s.address}"] ++ channels ++ layout)

/-- Fixtures as they could stand in a configuration. -/
def configured (plot : List Fixture) : List String :=
  (plot.map FixtureSpec.ofFixture).flatMap item

end LightingDesk.Listing
