/-! # Durations

A span of time in seconds and nanoseconds, up to the largest that 64-bit seconds allow. `toNanos`
is the view that laws are stated on: doubling and the minimum are those of natural numbers, except
that doubling stops at the largest duration. -/

namespace InventorySync

/-- A span of time. -/
structure Duration where
  seconds : Nat
  nanos : Nat
  seconds_lt : seconds < UInt64.size := by decide
  nanos_lt : nanos < 1000000000 := by decide
deriving DecidableEq, Repr

namespace Duration

/-- The span in nanoseconds. -/
def toNanos (d : Duration) : Nat := d.seconds * 1000000000 + d.nanos

/-- The largest duration. -/
def largest : Duration := ⟨UInt64.size - 1, 1000000000 - 1, by decide, by decide⟩

/-- The duration of so many seconds and nanoseconds, whole seconds among the nanoseconds carried
over; at most the largest one. -/
def ofParts (seconds nanos : Nat) : Duration :=
  if h : seconds + nanos / 1000000000 < UInt64.size then
    ⟨seconds + nanos / 1000000000, nanos % 1000000000, h, Nat.mod_lt _ (by decide)⟩
  else largest

/-- Whole seconds. -/
def ofSeconds (seconds : Nat) : Duration := ofParts seconds 0

/-- Whole milliseconds. -/
def ofMillis (millis : Nat) : Duration := ofParts (millis / 1000) (millis % 1000 * 1000000)

/-- The span in whole milliseconds, a started one counted in full. -/
def toMillis (d : Duration) : Nat := (d.toNanos + 999999) / 1000000

/-- Twice the duration, with the carry from the nanoseconds; at most the largest one. -/
def double (d : Duration) : Duration := ofParts (2 * d.seconds) (2 * d.nanos)

/-- The smaller of two durations. -/
def min (a b : Duration) : Duration := if b.toNanos < a.toNanos then b else a

instance : Min Duration := ⟨min⟩
instance : Inhabited Duration := ⟨⟨0, 0, by decide, by decide⟩⟩

/-! ## The view in nanoseconds -/

theorem toNanos_lt (d : Duration) : d.toNanos < UInt64.size * 1000000000 := by
  have := d.seconds_lt
  have := d.nanos_lt
  unfold toNanos
  omega

theorem toNanos_inj {a b : Duration} (h : a.toNanos = b.toNanos) : a = b := by
  obtain ⟨s, n, hs, hn⟩ := a
  obtain ⟨t, m, ht, hm⟩ := b
  simp only [toNanos, mk.injEq] at *
  omega

theorem toNanos_ofParts (seconds nanos : Nat) :
    (ofParts seconds nanos).toNanos =
      Min.min (seconds * 1000000000 + nanos) (UInt64.size * 1000000000 - 1) := by
  have hsize : UInt64.size = 18446744073709551616 := rfl
  unfold ofParts
  split
  · simp only [toNanos]
    omega
  · simp only [toNanos, largest]
    omega

/-- Doubling doubles the nanoseconds, up to the largest duration. -/
theorem toNanos_double (d : Duration) :
    d.double.toNanos = Min.min (2 * d.toNanos) (UInt64.size * 1000000000 - 1) := by
  rw [double, toNanos_ofParts]
  simp only [toNanos]
  omega

@[simp] theorem toNanos_min (a b : Duration) :
    (Min.min a b).toNanos = Min.min a.toNanos b.toNanos := by
  show (Duration.min a b).toNanos = _
  unfold Duration.min
  split <;> omega

end Duration
end InventorySync
