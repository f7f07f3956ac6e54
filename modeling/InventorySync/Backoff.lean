import InventorySync.Duration

/-! # Backoff

The delay before the next attempt: it doubles with every failure up to a limit and starts again
after a success. -/

namespace InventorySync

/-- A doubling delay with an upper bound. -/
structure Backoff where
  initial : Duration
  limit : Duration
  current : Duration
deriving DecidableEq, Repr

namespace Backoff

/-- A fresh backoff: the first delay is `initial`, or `limit` when that is less. -/
def new (initial limit : Duration) : Backoff := ⟨initial, limit, min initial limit⟩

/-- The delay to wait now; the one after it is twice as long, up to the limit. -/
def next (b : Backoff) : Duration × Backoff :=
  (b.current, { b with current := min b.current.double b.limit })

/-- Start again from the initial delay. -/
def reset (b : Backoff) : Backoff := { b with current := min b.initial b.limit }

end Backoff
end InventorySync
