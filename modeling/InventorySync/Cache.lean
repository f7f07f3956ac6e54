import Std.Data.ExtTreeMap

/-! # The change cache

For every identifier the fingerprint that the inventory confirmed last, and whether the identifier
was seen since the cleanup window opened. An identifier without an entry is unknown and always
sent. -/

namespace InventorySync

open Std (ExtTreeMap)

/-- What is remembered of an identifier. -/
structure CacheEntry where
  hash : String
  active : Bool
deriving DecidableEq, Repr, Inhabited

/-- The entries by identifier, and whether a cleanup window is open. -/
structure ChangeCache where
  entries : ExtTreeMap String CacheEntry
  windowOpen : Bool
deriving DecidableEq

namespace ChangeCache

/-- Nothing is known and no window is open. -/
def empty : ChangeCache := ⟨∅, false⟩

instance : Inhabited ChangeCache := ⟨empty⟩

/-- What is remembered of an identifier. -/
def get? (c : ChangeCache) (id : String) : Option CacheEntry := c.entries[id]?

/-- Start over from the inventory's own list, every entry unseen; of pairs with one identifier the
last one counts. The window stays as it is. -/
def init (c : ChangeCache) (remote : List (String × String)) : ChangeCache :=
  { c with entries := remote.foldl (fun m p => m.insert p.1 ⟨p.2, false⟩) ∅ }

/-- Whether the inventory may lack this content: the identifier is unknown or has another hash. -/
def needsUpdate (c : ChangeCache) (id hash : String) : Bool :=
  match c.get? id with
  | some e => e.hash != hash
  | none => true

/-- Note that a known identifier was seen, while a window is open. -/
def markActive (c : ChangeCache) (id : String) : ChangeCache :=
  if c.windowOpen then
    { c with entries := c.entries.modify id fun e => { e with active := true } }
  else c

/-- Store the hash that the inventory confirmed; the identifier counts as seen when a window is
open. -/
def updateHash (c : ChangeCache) (id hash : String) : ChangeCache :=
  { c with entries := c.entries.insert id ⟨hash, c.windowOpen⟩ }

/-- Drop an identifier whose deletion the inventory confirmed. -/
def forget (c : ChangeCache) (id : String) : ChangeCache :=
  { c with entries := c.entries.erase id }

/-- The identifiers that were not seen, in increasing order. -/
def inactive (c : ChangeCache) : List String :=
  (c.entries.filter fun _ e => !e.active).keys

/-- Open a cleanup window. -/
def openWindow (c : ChangeCache) : ChangeCache := { c with windowOpen := true }

/-- Close the window and forget what was seen. -/
def closeWindow (c : ChangeCache) : ChangeCache :=
  ⟨c.entries.map fun _ e => { e with active := false }, false⟩

/-- The number of identifiers. -/
def size (c : ChangeCache) : Nat := c.entries.size

/-- The number of identifiers that were seen. -/
def activeCount (c : ChangeCache) : Nat := (c.entries.filter fun _ e => e.active).size

/-- Every entry, in increasing order of identifiers. -/
def toList (c : ChangeCache) : List (String × CacheEntry) := c.entries.toList

end ChangeCache
end InventorySync
