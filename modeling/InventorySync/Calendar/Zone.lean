/-! # Time zones

A zone says how far its clocks are ahead at each instant and, the other way round, at which instants
they show a local time: at none when clocks skip it, at several when they are put back. Instants
are seconds since 1970-01-01T00:00:00Z, local times are seconds since 1970-01-01T00:00:00 on the
zone's clocks. -/

namespace InventorySync.Calendar

/-- A time zone. -/
structure Zone where
  /-- The seconds by which the zone's clocks are ahead. -/
  offsetAt : Int → Int
  /-- The instants at which the zone's clocks show a local time, the earliest first. -/
  instantsOf : Int → List Int
  mem_instantsOf : ∀ time instant,
    instant ∈ instantsOf time ↔ instant + offsetAt instant = time
  instantsOf_sorted : ∀ time, (instantsOf time).Pairwise (· < ·)

namespace Zone

/-- What the zone's clocks show at an instant. -/
def localTime (z : Zone) (instant : Int) : Int := instant + z.offsetAt instant

/-- The zone whose clocks are always the same number of seconds ahead. -/
def fixed (offset : Int) : Zone where
  offsetAt := fun _ => offset
  instantsOf := fun time => [time - offset]
  mem_instantsOf := by
    intro time instant
    rw [List.mem_singleton]
    omega
  instantsOf_sorted := by simp

/-- The zone whose clocks are never ahead. -/
def utc : Zone := fixed 0

/-- The zone whose clocks are changed once, from one offset to another. -/
def shifting (shiftAt before after : Int) : Zone where
  offsetAt := fun instant => if instant < shiftAt then before else after
  instantsOf := fun time =>
    (if time - before < shiftAt then [time - before] else []) ++
      (if shiftAt ≤ time - after then [time - after] else [])
  mem_instantsOf := by
    intro time instant
    simp only [List.mem_append]
    split <;> split <;> split <;> simp only [List.mem_singleton, List.not_mem_nil, or_false,
      false_or, false_iff] <;> omega
  instantsOf_sorted := by
    intro time
    split <;> split <;> simp
    omega

end Zone
end InventorySync.Calendar
