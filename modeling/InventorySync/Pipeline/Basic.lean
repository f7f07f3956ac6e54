import InventorySync.Cache
import InventorySync.Gate
import InventorySync.Record.Normalize
import InventorySync.Remote.Reply
import InventorySync.Retry

/-! # The pipeline

What all sends share: the rule that turns documents into records, the change cache, the queue of
failed sends, the gate, and the count of failures since the last success. Live events, flushes of
the queue and cleanup sweeps are activities on this state; each goes on without pause until it has
to wait for the gate or for a reply (`InventorySync.Pipeline.Activity`). -/

namespace InventorySync

/-- The state shared by everything that sends. -/
structure Pipeline where
  normalizer : Normalizer
  cache : ChangeCache
  retry : RetryQueue
  gate : SendGate
  /-- Failed sends since the last success. -/
  errors : Nat
deriving DecidableEq, Inhabited

namespace Pipeline

/-- A pipeline that knows nothing and has sent nothing. Kinds outside the catalog pass. -/
def new (owner : Owner) : Pipeline :=
  ⟨⟨owner, .passthrough⟩, .empty, .empty, .empty, 0⟩

/-- Note a confirmed send in the cache: a deleted identifier is forgotten, any other has the hash
that was sent. -/
def settle (p : Pipeline) (action : Action) (r : Record) : Pipeline :=
  match action with
  | .delete => { p with cache := p.cache.forget r.identifier }
  | .create | .update => { p with cache := p.cache.updateHash r.identifier r.contentHash }

/-- Count a reply as success or failure. -/
def countReply (p : Pipeline) (reply : Reply) : Pipeline :=
  { p with errors := reply.countErrors p.errors }

/-- Drop what is queued for an identifier. -/
def dropRetry (p : Pipeline) (id : String) : Pipeline := { p with retry := (p.retry.remove id).2 }

/-- Ask for the gate of an identifier. -/
def enter (p : Pipeline) (id : String) (visitor : Nat) : Visit × Pipeline :=
  let (visit, gate) := p.gate.enter id visitor
  (visit, { p with gate })

/-- Leave the gate; gives the visitor who has it next. -/
def leave (p : Pipeline) (visit : Visit) : Option Nat × Pipeline :=
  let (next, gate) := p.gate.leave visit
  (next, { p with gate })

end Pipeline

/-- What a step of an activity leaves behind: the shared state, where the activity is now, who has
been let through the gate, and whether those who wait for a window are told of one. -/
structure Turn (α : Type) where
  pipeline : Pipeline
  stage : α
  admitted : Option Nat
  opensWindow : Bool

end InventorySync
