import InventorySync.Watch.Informer
import InventorySync.Watch.Paged

/-! # Watchers

The two strategies behind one interface: lists in pages without keeping objects, or a caching
informer. -/

namespace InventorySync

/-- A watcher of either kind. -/
inductive Watcher where
  | paged (w : PagedWatcher)
  | informer (w : Informer)
deriving DecidableEq, Repr

namespace Watcher

/-- What the watcher waits for. -/
def wait : Watcher → Option Request
  | .paged w => w.wait
  | .informer w => w.wait

/-- Whether the watcher has stopped for good. -/
def isStopped : Watcher → Bool
  | .paged w => w.phase == .stopped
  | .informer w => w.stage == .stopped

/-- The watcher begins, or begins its next step. -/
def begin (w : Watcher) (s : Signals) : Watcher :=
  match w with
  | .paged w => .paged (w.begin s)
  | .informer w => .informer (w.begin s)

/-- What the watcher waits for has come. -/
def answered (w : Watcher) (s : Signals) (answer : Answer) : Watcher :=
  match w with
  | .paged w => .paged (w.answered s answer)
  | .informer w => .informer (w.answered s answer)

/-- The watcher looks at the signals while it waits. -/
def interrupted (w : Watcher) (s : Signals) : Watcher :=
  match w with
  | .paged w => .paged (w.interrupted s)
  | .informer w => .informer (w.interrupted s)

end Watcher
end InventorySync
