import InventorySync.Pipeline.Basic

/-! # Flushing the retry queue

The queued items are sent again, oldest first, each behind the gate of its identifier. The first
failure ends the flush, so that an outage costs one request. An item that was replaced or removed
while the flush waited for the gate is passed over. -/

namespace InventorySync

/-- The result of a flush. -/
structure FlushReport where
  sent : Nat
  /-- A send failed and the flush stopped there. -/
  halted : Bool
  /-- The number of items queued at the end. -/
  remaining : Nat
deriving DecidableEq, Repr, Inhabited

/-- Where a flush stands. -/
inductive Flushing where
  /-- In the line of the gate with an item; the items after it, and how many were sent. -/
  | entering (visit : Visit) (item : RetryItem) (rest : List RetryItem) (sent : Nat)
  /-- Through the gate with an item, the request sent and not yet answered. -/
  | sending (visit : Visit) (item : RetryItem) (rest : List RetryItem) (sent : Nat)
  | done (report : FlushReport)
deriving DecidableEq, Repr, Inhabited

namespace Flushing

/-- Go on with the next item, or end when there is none. -/
def next (p : Pipeline) (visitor : Nat) (admitted : Option Nat) (items : List RetryItem)
    (sent : Nat) : Turn Flushing :=
  match items with
  | [] => ⟨p, .done ⟨sent, false, p.retry.size⟩, admitted, false⟩
  | item :: rest =>
    let (visit, p) := p.enter item.identifier visitor
    ⟨p, .entering visit item rest sent, admitted, false⟩

/-- A flush begins with the items that are queued now. -/
def start (p : Pipeline) (visitor : Nat) : Turn Flushing :=
  let (items, retry) := p.retry.list
  next { p with retry } visitor none items 0

/-- The gate is free: the item is sent if it is still the one queued. -/
def admitted (p : Pipeline) (visit : Visit) (item : RetryItem) (rest : List RetryItem)
    (sent : Nat) : Turn Flushing :=
  if p.retry.holds item.identifier item.seq then ⟨p, .sending visit item rest sent, none, false⟩
  else
    let (handed, p) := p.leave visit
    next p visit.visitor handed rest sent

/-- The reply is there. After a success the item leaves the queue and is noted in the cache, if it
is still the one queued; a failure is counted and ends the flush. -/
def replied (p : Pipeline) (visit : Visit) (item : RetryItem) (rest : List RetryItem) (sent : Nat)
    (reply : Reply) : Turn Flushing :=
  let p := p.countReply reply
  if reply.isOk then
    let (completed, retry) := p.retry.complete item.identifier item.seq
    let p := { p with retry }
    let p := if completed then p.settle item.action item.record else p
    let (handed, p) := p.leave visit
    next p visit.visitor handed rest (sent + 1)
  else
    let p := { p with retry := p.retry.recordFailure item.identifier item.seq }
    let (handed, p) := p.leave visit
    ⟨p, .done ⟨sent, true, p.retry.size⟩, handed, false⟩

/-- How many steps are left at most. -/
def stepsLeft : Flushing → Nat
  | .entering _ _ rest _ => 2 * rest.length + 2
  | .sending _ _ rest _ => 2 * rest.length + 1
  | .done _ => 0

theorem stepsLeft_next (p : Pipeline) (visitor : Nat) (handed : Option Nat)
    (items : List RetryItem) (sent : Nat) :
    (next p visitor handed items sent).stage.stepsLeft = 2 * items.length := by
  cases items <;> simp [next, stepsLeft]
  omega

end Flushing
end InventorySync
