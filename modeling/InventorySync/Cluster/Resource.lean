import InventorySync.Text.Percent
import InventorySync.Watch.Basic

/-! # Served resources

A kind of object that a cluster serves, where it is found, and how it is asked for. -/

namespace InventorySync

/-- A kind of object that a cluster serves. -/
structure ServedResource where
  group : String
  version : String
  apiVersion : String
  kind : String
  /-- The name of the resource, in the plural. -/
  plural : String
deriving DecidableEq, Repr, Inhabited

namespace ServedResource

/-- The resource of a group and version; the group is empty for the core group. -/
def ofParts (group version kind plural : String) : ServedResource :=
  ⟨group, version, if group = "" then version else group ++ "/" ++ version, kind, plural⟩

/-- Where the objects are found. -/
def path (r : ServedResource) : String :=
  (if r.group = "" then "/api/" else "/apis/") ++ r.apiVersion ++ "/" ++ r.plural

/-- The target of a request for a page of the list. -/
def listTarget (r : ServedResource) (limit : Nat) (token : Option String) : String :=
  r.path ++ "?&limit=" ++ toString limit ++
    match token with
    | some token => "&continue=" ++ Text.formEncode token
    | none => ""

/-- The timeout of a watch in seconds: from 1 to 290, as servers refuse longer ones; 290 unless said
otherwise. -/
def watchTimeout (seconds : Option Nat) : Nat := max 1 (min (seconds.getD 290) 290)

/-- The target of a request for a change stream. -/
def watchTarget (r : ServedResource) (timeout : Nat) (version : String) : String :=
  r.path ++ "?&watch=true&timeoutSeconds=" ++ toString timeout ++
    "&allowWatchBookmarks=true&resourceVersion=" ++ Text.formEncode version

end ServedResource
end InventorySync
