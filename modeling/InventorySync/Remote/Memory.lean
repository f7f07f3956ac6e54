import InventorySync.Remote.Reply
import InventorySync.Wire
import Std.Data.ExtTreeMap

/-! # An inventory in memory

An inventory that records every change asked of it and answers at once: with success, with the
status set for the identifier, or not at all while it is offline. -/

namespace InventorySync

open Std (ExtTreeMap)

/-- A change asked of the inventory. -/
structure Call where
  action : Action
  uid : String
  hash : String
deriving DecidableEq, Repr, Inhabited

/-- The change that an action on a record asks for. -/
def Call.ofSend (action : Action) (r : Record) : Call := ⟨action, r.identifier, r.contentHash⟩

/-- The inventory's list, the calls so far, and what it is to answer. -/
structure MemoryInventory where
  hashes : HashList
  calls : Array Call
  /-- The status answered for an identifier instead of success. -/
  failing : ExtTreeMap String Nat
  offline : Bool

namespace MemoryInventory

/-- An inventory that holds these identifiers and hashes. -/
def withHashes (items : List (String × String)) : MemoryInventory :=
  ⟨⟨items.map fun i => ⟨i.1, i.2⟩⟩, #[], ∅, false⟩

/-- From now on answer this status for an identifier. -/
def fail (m : MemoryInventory) (uid : String) (status : Nat) : MemoryInventory :=
  { m with failing := m.failing.insert uid status }

/-- Answer success for an identifier again. -/
def heal (m : MemoryInventory) (uid : String) : MemoryInventory :=
  { m with failing := m.failing.erase uid }

/-- Why an offline inventory does not answer. -/
def refused : String := "connection refused"

/-- Answer a change, and record it unless offline. -/
def respond (m : MemoryInventory) (action : Action) (r : Record) : Reply × MemoryInventory :=
  if m.offline then (.lost refused, m)
  else
    (.status (m.failing[r.identifier]?.getD 200),
      { m with calls := m.calls.push (.ofSend action r) })

/-- The list of everything held, or the reason why there is none. -/
def hashList (m : MemoryInventory) : Except String HashList :=
  if m.offline then .error refused else .ok m.hashes

/-- The calls for one identifier. -/
def callsFor (m : MemoryInventory) (uid : String) : Array Call :=
  m.calls.filter fun c => c.uid = uid

end MemoryInventory
end InventorySync
