import InventorySync.Json.Reader
import InventorySync.Record
import InventorySync.Schema
import InventorySync.Wire.Fields

/-! # The wire form of the domain types

Encoding to and decoding from JSON values, for schemas, owners, actions, records, cache rows, the
body of an inventory request and the inventory's own list. -/

namespace InventorySync

open Wire

/-! ## Schemas, owners and actions -/

/-- The encoded schema. -/
def Schema.toJson (s : Schema) : Json :=
  .mkObject [("group", .string s.group), ("version", .string s.version),
    ("resource", .string s.resource)]

/-- The schema that a value encodes. -/
def Schema.ofJson? (v : Json) : Option Schema :=
  match fields? ["group", "version", "resource"] v with
  | some [group, version, resource] =>
    return ⟨← string? group, ← string? version, ← string? resource⟩
  | _ => none

/-- The encoded owner. -/
def Owner.toJson (o : Owner) : Json :=
  .mkObject [("scope", .string o.scope), ("subject", .string o.subject)]

/-- The owner that a value encodes. -/
def Owner.ofJson? (v : Json) : Option Owner :=
  match fields? ["scope", "subject"] v with
  | some [scope, subject] => return ⟨← string? scope, ← string? subject⟩
  | _ => none

/-- The encoded action: its name. -/
def Action.toJson (a : Action) : Json := .string a.name

/-- The action with this name. -/
def Action.ofName? (name : String) : Option Action :=
  [Action.create, .update, .delete].find? fun a => a.name = name

/-- The action that a value encodes: its name, or an object with its name and null. -/
def Action.ofJson? : Json → Option Action
  | .string name => Action.ofName? name
  | .object [(name, .null)] => Action.ofName? name
  | _ => none

/-! ## Records -/

/-- The encoded record. -/
def Record.toJson (r : Record) : Json :=
  .mkObject [("identifier", .string r.identifier), ("apiVersion", .string r.apiVersion),
    ("kind", .string r.kind), ("contentHash", .string r.contentHash), ("owner", r.owner.toJson),
    ("payload", r.payload)]

/-- The record that a value encodes. -/
def Record.ofJson? (v : Json) : Option Record :=
  match fields? ["identifier", "apiVersion", "kind", "contentHash", "owner", "payload"] v with
  | some [identifier, apiVersion, kind, contentHash, owner, payload] =>
    return ⟨← string? identifier, ← string? apiVersion, ← string? kind, ← string? contentHash,
      ← required? Owner.ofJson? owner, ← payload⟩
  | _ => none

/-- One row of a change cache, as it is shown outside. -/
structure HashListEntry where
  identifier : String
  hash : String
  active : Bool
deriving DecidableEq, Repr, Inhabited

/-- The encoded row. -/
def HashListEntry.toJson (e : HashListEntry) : Json :=
  .mkObject [("identifier", .string e.identifier), ("hash", .string e.hash),
    ("active", .bool e.active)]

/-- The row that a value encodes. -/
def HashListEntry.ofJson? (v : Json) : Option HashListEntry :=
  match fields? ["identifier", "hash", "active"] v with
  | some [identifier, hash, active] =>
    return ⟨← string? identifier, ← string? hash, ← bool? active⟩
  | _ => none

/-! ## Inventory requests and answers -/

/-- The body of every change asked of the inventory. -/
structure ResourceUpdate where
  owner : Owner
  apiVersion : String
  kind : String
  uid : String
  action : Action
  hash : String
  resource : Json
deriving DecidableEq, Repr, Inhabited

/-- The body that asks for an action on a record. -/
def ResourceUpdate.new (action : Action) (r : Record) : ResourceUpdate :=
  ⟨r.owner, r.apiVersion, r.kind, r.identifier, action, r.contentHash, r.payload⟩

/-- The encoded body. -/
def ResourceUpdate.toJson (u : ResourceUpdate) : Json :=
  .mkObject [("owner", u.owner.toJson), ("apiVersion", .string u.apiVersion),
    ("kind", .string u.kind), ("uid", .string u.uid), ("action", u.action.toJson),
    ("hash", .string u.hash), ("resource", u.resource)]

/-- The body that a value encodes. -/
def ResourceUpdate.ofJson? (v : Json) : Option ResourceUpdate :=
  match fields? ["owner", "apiVersion", "kind", "uid", "action", "hash", "resource"] v with
  | some [owner, apiVersion, kind, uid, action, hash, resource] =>
    return ⟨← required? Owner.ofJson? owner, ← string? apiVersion, ← string? kind,
      ← string? uid, ← required? Action.ofJson? action, ← string? hash, ← resource⟩
  | _ => none

/-- An identifier and its hash in the inventory. -/
structure HashItem where
  uid : String
  hash : String
deriving DecidableEq, Repr, Inhabited

/-- The encoded item. -/
def HashItem.toJson (i : HashItem) : Json :=
  .mkObject [("uid", .string i.uid), ("hash", .string i.hash)]

/-- The item that a value encodes. -/
def HashItem.ofJson? (v : Json) : Option HashItem :=
  match fields? ["uid", "hash"] v with
  | some [uid, hash] => return ⟨← string? uid, ← string? hash⟩
  | _ => none

/-- What the inventory holds for one owner. -/
structure HashList where
  items : List HashItem
deriving DecidableEq, Repr, Inhabited

/-- The encoded list. -/
def HashList.toJson (l : HashList) : Json :=
  .mkObject [("items", .array (l.items.map HashItem.toJson))]

/-- The list that a value encodes; without items it is empty. -/
def HashList.ofJson? (v : Json) : Option HashList :=
  match fields? ["items"] v with
  | some [none] => some ⟨[]⟩
  | some [some items] => (list? HashItem.ofJson? items).map HashList.mk
  | _ => none

/-- The list that a text encodes. -/
def HashList.read? (text : String) : Option HashList :=
  (Json.readRaw Json.documentDepth text).toOption.bind HashList.ofJson?

/-- The hash of every identifier, empty identifiers left out, in the list's order. -/
def HashList.pairs (l : HashList) : List (String × String) :=
  (l.items.filter fun i => i.uid ≠ "").map fun i => (i.uid, i.hash)

end InventorySync
