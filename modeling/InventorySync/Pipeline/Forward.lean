import InventorySync.Pipeline.Basic

/-! # Forwarding a live event

A document arrives with the action that it stands for. It becomes a record, waits for the gate of
its identifier, and is sent unless the cache says that the inventory has this content already; a
deletion is always sent. A failed send is queued. -/

namespace InventorySync

/-- What became of an event. -/
inductive Forwarded where
  | sent
  /-- The inventory has this content already. -/
  | unchanged
  /-- The send failed and waits in the retry queue. -/
  | queued
  /-- The document gave no record. -/
  | dropped
deriving DecidableEq, Repr, Inhabited

/-- Where the forwarding of an event stands. -/
inductive Forwarding where
  /-- In the line of the gate. -/
  | entering (visit : Visit) (action : Action) (record : Record)
  /-- Through the gate, the request sent and not yet answered. -/
  | sending (visit : Visit) (action : Action) (record : Record)
  | done (outcome : Forwarded)
deriving DecidableEq, Repr, Inhabited

namespace Forwarding

/-- An event arrives: its document is read and the gate asked for. -/
def start (p : Pipeline) (visitor : Nat) (action : Action) (doc : Json) : Turn Forwarding :=
  match p.normalizer.normalize doc with
  | .error _ => ⟨p, .done .dropped, none, false⟩
  | .ok record =>
    let (visit, p) := p.enter record.identifier visitor
    ⟨p, .entering visit action record, none, false⟩

/-- Whether the cache makes a send unnecessary. -/
def isUnchanged (p : Pipeline) (action : Action) (record : Record) : Bool :=
  action != .delete && !p.cache.needsUpdate record.identifier record.contentHash

/-- Note that the identifier was seen, unless it is being deleted. -/
def observe (p : Pipeline) (action : Action) (record : Record) : Pipeline :=
  match action with
  | .delete => p
  | .create | .update => { p with cache := p.cache.markActive record.identifier }

/-- The gate is free. Content that the inventory has already makes a queued re-send outdated, so it
is dropped from the queue; anything else is sent. -/
def admitted (p : Pipeline) (visit : Visit) (action : Action) (record : Record) :
    Turn Forwarding :=
  let p := observe p action record
  if isUnchanged p action record then
    let (next, p) := (p.dropRetry record.identifier).leave visit
    ⟨p, .done .unchanged, next, false⟩
  else ⟨p, .sending visit action record, none, false⟩

/-- The reply is there: a success is noted in the cache and replaces what was queued, a failure is
queued. -/
def replied (p : Pipeline) (visit : Visit) (action : Action) (record : Record) (reply : Reply) :
    Turn Forwarding :=
  let p := p.countReply reply
  if reply.isOk then
    let (next, p) := ((p.settle action record).dropRetry record.identifier).leave visit
    ⟨p, .done .sent, next, false⟩
  else
    let (next, p) := { p with retry := (p.retry.add record action).2 }.leave visit
    ⟨p, .done .queued, next, false⟩

/-- How many steps are left. -/
def stepsLeft : Forwarding → Nat
  | .entering .. => 2
  | .sending .. => 1
  | .done _ => 0

end Forwarding
end InventorySync
