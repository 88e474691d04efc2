import Autoscaler.Zone.Allocation

/-!
# Bounds of one zone set

Zone sets decide one after the other and without a common transaction. For the total to stay within
its limits, each assumes that every other may end up at the most, or at the least, that it could
still claim.
-/

namespace Autoscaler

/-- What is known when a zone set decides: all zone sets, what each holds, and what those that have
decided in this cycle plan to hold. -/
structure Holdings where
  zoneSets : List ZoneSet
  enforced : Allocation
  planned : Allocation

namespace Holdings

/-- The zone sets other than one. -/
def others (h : Holdings) (z : ZoneSet) : List ZoneSet := h.zoneSets.filter (· ≠ z)

/-- The most that a zone set may still claim. -/
def ceiling (h : Holdings) (perZoneMax : Capacity) (o : ZoneSet) : Capacity :=
  min perZoneMax (max (h.enforced.get o) (h.planned.get o))

/-- The least that a zone set may still claim. A plan of no capacity counts as none made yet. -/
def floor (h : Holdings) (perZoneMin : Capacity) (o : ZoneSet) : Capacity :=
  if (h.planned.get o).isZero then max (h.enforced.get o) perZoneMin
  else max perZoneMin (min (h.enforced.get o) (h.planned.get o))

/-- The largest capacity that a zone set may be given. -/
def maximumFor (h : Holdings) (z : ZoneSet) (totalMax perZoneMax : Capacity) : Capacity :=
  min perZoneMax (totalMax - Capacity.sum ((h.others z).map (h.ceiling perZoneMax)))

/-- The smallest capacity that a zone set may be given. -/
def minimumFor (h : Holdings) (z : ZoneSet) (totalMin perZoneMin : Capacity) : Capacity :=
  max perZoneMin (totalMin - Capacity.sum ((h.others z).map (h.floor perZoneMin)))

end Holdings

end Autoscaler
