import InventorySync.Pipeline.Activity

/-! # Periodic jobs

The three things that are done again and again: queued sends are tried again, the inventory is
cleaned up, and sizes are published. -/

namespace InventorySync

/-- A job of the timetable. -/
inductive Job where
  | flush
  | cleanup
  | stats
deriving DecidableEq, Repr, Inhabited

namespace Job

/-- The name of the job. -/
def tag : Job → String
  | flush => "retry-flush"
  | cleanup => "cache-cleanup"
  | stats => "cache-stats"

/-- A run of the job begins. A flush of an empty queue is left out, and publishing sizes sends
nothing. -/
def begin? (job : Job) (p : Pipeline) (visitor : Nat) : Option (Turn Activity) :=
  match job with
  | flush => if p.retry.needsRun then some (Activity.beginFlush p visitor) else none
  | cleanup => some (Activity.beginSweep p p.normalizer.owner)
  | stats => none

end Job
end InventorySync
