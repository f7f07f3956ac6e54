import InventorySync.Json.Basic

/-! # Records

What the inventory stores of an object: its identifier, its kind, the fingerprint of its content,
its owner, and the document itself; and what can be asked of the inventory. -/

namespace InventorySync

/-- What the inventory is asked to do with a record. -/
inductive Action where
  | create
  | update
  | delete
deriving DecidableEq, Repr, Inhabited

/-- The word for an action. -/
def Action.name : Action → String
  | .create => "create"
  | .update => "update"
  | .delete => "delete"

/-- The identity that scopes the records of one sender. -/
structure Owner where
  scope : String
  subject : String
deriving DecidableEq, Repr, Inhabited

/-- The owner of everything in one cluster. -/
def Owner.cluster (id : String) : Owner := ⟨"cluster", id⟩

/-- An object reduced to what the inventory stores. -/
structure Record where
  identifier : String
  apiVersion : String
  kind : String
  contentHash : String
  owner : Owner
  /-- The document without its volatile parts; null where only the identifier is known. -/
  payload : Json
deriving DecidableEq, Repr, Inhabited

/-- A record that names an identifier and nothing else, for deleting what was never seen. -/
def Record.tombstone (identifier : String) (owner : Owner) : Record :=
  ⟨identifier, "", "", "", owner, .null⟩

end InventorySync
