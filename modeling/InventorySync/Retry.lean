import Std.Data.ExtTreeMap
import InventorySync.Record

/-! # The retry queue

Sends that failed, one per identifier, in the order of arrival. A newer item for an identifier
replaces the queued one and keeps its place.

An identifier's place is a ticket in the order list. A ticket whose identifier has left the queue,
or has come back under a newer ticket, is dead: it is skipped, and pruned when the queue is listed
or when dead tickets have become too many. -/

namespace InventorySync

open Std (ExtTreeMap)

/-- A failed send that waits for the next flush. -/
structure RetryItem where
  record : Record
  action : Action
  /-- How many re-sends of this item have failed. -/
  failures : Nat
  /-- The generation: every item added gets a new one. -/
  seq : Nat
deriving DecidableEq, Repr, Inhabited

namespace RetryItem

/-- The identifier of the record. -/
def identifier (i : RetryItem) : String := i.record.identifier

/-- The largest count of failures that is kept. -/
def maxFailures : Nat := UInt32.size - 1

/-- The item after one more failure. -/
def failedOnce (i : RetryItem) : RetryItem :=
  { i with failures := min (i.failures + 1) maxFailures }

end RetryItem

/-- A queued item and the ticket of its place. -/
structure RetrySlot where
  item : RetryItem
  ticket : Nat
deriving DecidableEq, Repr, Inhabited

/-- Failed sends by identifier, in order of arrival. -/
structure RetryQueue where
  slots : ExtTreeMap String RetrySlot
  /-- Tickets in increasing order, each with its identifier, dead ones included. -/
  order : Array (Nat × String)
  /-- The generation of the newest item, zero before the first. -/
  lastSeq : Nat
  /-- How many items were replaced by newer ones. -/
  superseded : Nat
deriving DecidableEq

namespace RetryQueue

/-- The queue with nothing in it. -/
def empty : RetryQueue := ⟨∅, #[], 0, 0⟩

instance : Inhabited RetryQueue := ⟨empty⟩

/-- The item queued for an identifier. -/
def get? (q : RetryQueue) (id : String) : Option RetryItem := q.slots[id]?.map (·.item)

/-- Whether a ticket is the place of its identifier. -/
def isLive (q : RetryQueue) (entry : Nat × String) : Bool :=
  match q.slots[entry.2]? with
  | some slot => slot.ticket == entry.1
  | none => false

/-- The queue without its dead tickets. -/
def prune (q : RetryQueue) : RetryQueue := { q with order := q.order.filter q.isLive }

/-- The number of queued items. -/
def size (q : RetryQueue) : Nat := q.slots.size

/-- Whether anything is queued. -/
def needsRun (q : RetryQueue) : Bool := 0 < q.size

/-- Queue a record; says whether it replaced an older item. -/
def add (q : RetryQueue) (record : Record) (action : Action) : Bool × RetryQueue :=
  let seq := q.lastSeq + 1
  let item : RetryItem := ⟨record, action, 0, seq⟩
  match q.slots[record.identifier]? with
  | some slot =>
    (true, { q with
      slots := q.slots.insert record.identifier { slot with item }
      lastSeq := seq
      superseded := q.superseded + 1 })
  | none =>
    (false, { q with
      slots := q.slots.insert record.identifier ⟨item, seq⟩
      order := q.order.push (seq, record.identifier)
      lastSeq := seq })

/-- Take an identifier's item out. The order list is emptied with the queue, and pruned once it
holds more than twice the queued items and 64. -/
def remove (q : RetryQueue) (id : String) : Option RetryItem × RetryQueue :=
  match q.slots[id]? with
  | none => (none, q)
  | some slot =>
    let q := { q with slots := q.slots.erase id }
    let q :=
      if q.slots.isEmpty then { q with order := #[] }
      else if 2 * q.slots.size + 64 < q.order.size then q.prune
      else q
    (some slot.item, q)

/-- Everything queued, oldest place first. The items stay queued. -/
def list (q : RetryQueue) : List RetryItem × RetryQueue :=
  let q := q.prune
  (q.order.toList.filterMap fun entry => q.get? entry.2, q)

/-- Whether this generation is still the one queued for the identifier. -/
def holds (q : RetryQueue) (id : String) (seq : Nat) : Bool :=
  match q.get? id with
  | some item => item.seq == seq
  | none => false

/-- Take the item out if it is still the generation that was sent; says whether it was. -/
def complete (q : RetryQueue) (id : String) (seq : Nat) : Bool × RetryQueue :=
  if q.holds id seq then
    let (item, q) := q.remove id
    (item.isSome, q)
  else (false, q)

/-- Count one more failure of the generation that was sent. -/
def recordFailure (q : RetryQueue) (id : String) (seq : Nat) : RetryQueue :=
  if q.holds id seq then
    { q with slots := q.slots.modify id fun slot => { slot with item := slot.item.failedOnce } }
  else q

end RetryQueue
end InventorySync
