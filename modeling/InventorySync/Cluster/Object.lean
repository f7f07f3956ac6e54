import InventorySync.Cluster.Resource
import InventorySync.Cluster.Shape

/-! # Objects of a cluster

How an object is read from a cluster's answer: the known metadata is kept in a uniform form, all
other members stay as they are, and the API version and kind, which lists leave out, are filled in
from the resource. -/

namespace InventorySync

namespace Shape

/-- A reference to the owner of an object. -/
def ownerReference : Shape :=
  withTexts ["apiVersion", "kind", "name", "uid"] <|
    record [("apiVersion", text), ("blockOwnerDeletion", flag), ("controller", flag),
      ("kind", text), ("name", text), ("uid", text)]

/-- Who manages which fields of an object. -/
def managedFields : Shape :=
  record [("apiVersion", text), ("fieldsType", text), ("fieldsV1", anything), ("manager", text),
    ("operation", text), ("subresource", text), ("time", time)]

/-- The metadata of an object. -/
def objectMeta : Shape :=
  record [("annotations", mapOf text), ("creationTimestamp", time),
    ("deletionGracePeriodSeconds", integer64), ("deletionTimestamp", time),
    ("finalizers", listOf text), ("generateName", text), ("generation", integer64),
    ("labels", mapOf text), ("managedFields", listOf managedFields), ("name", text),
    ("namespace", text), ("ownerReferences", listOf ownerReference), ("resourceVersion", text),
    ("selfLink", text), ("uid", text)]

/-- The metadata of a list. -/
def listMeta : Shape :=
  record [("continue", text), ("remainingItemCount", integer64), ("resourceVersion", text),
    ("selfLink", text)]

end Shape

/-- What an object says about its type, as far as it was read. -/
structure TypeMarks where
  apiVersion : Option String
  kind : Option String
  /-- Whether a mark was repeated or was no text; the marks after it are ordinary members. -/
  spoilt : Bool
deriving DecidableEq, Repr, Inhabited

namespace TypeMarks

/-- No mark was read. -/
def empty : TypeMarks := ⟨none, none, false⟩

/-- Read a member as a mark; none when it is an ordinary member. -/
def take? (t : TypeMarks) (name : String) (v : Json) : Option TypeMarks :=
  if t.spoilt then none
  else
    match name with
    | "apiVersion" =>
      match t.apiVersion, v with
      | none, .string s => some { t with apiVersion := some s }
      | _, _ => some { t with spoilt := true }
    | "kind" =>
      match t.kind, v with
      | none, .string s => some { t with kind := some s }
      | _, _ => some { t with spoilt := true }
    | _ => none

/-- Divides members into the marks of the type and the ordinary members, in their order. -/
def split (ms : Members) : TypeMarks × List (String × Json) :=
  let (marks, others) := ms.foldl
    (fun (marks, others) (name, v) =>
      match take? marks name v with
      | some marks => (marks, others)
      | none => (marks, (name, v) :: others))
    (empty, [])
  (marks, others.reverse)

/-- The API version and kind, when both were read. -/
def both? (t : TypeMarks) : Option (String × String) :=
  if t.spoilt then none
  else
    match t.apiVersion, t.kind with
    | some a, some k => some (a, k)
    | _, _ => none

end TypeMarks

namespace ServedResource

/-- The object that a value stands for. -/
def readObject (r : ServedResource) : Json → Option Json
  | .object ms => do
    let metadata ← Shape.objectMeta ((← Members.single? ms "metadata").getD (.object []))
    let (marks, others) := TypeMarks.split (Members.erase ms "metadata")
    let (apiVersion, kind) := marks.both?.getD (r.apiVersion, r.kind)
    return .mkObject (("apiVersion", .string apiVersion) :: ("kind", .string kind) ::
      ("metadata", metadata) :: others.map fun m => (m.1, m.2.canonical))
  | _ => none

/-- The page of a list that a text stands for. -/
def readPage (r : ServedResource) (body : String) : Option ListPage :=
  match Json.readRaw Json.documentDepth body with
  | .ok (.object ms) => do
    let metadata ← Shape.listMeta (← (← Members.single? ms "metadata"))
    let items ←
      match ← (← Members.single? ms "items") with
      | .null => some []
      | .array items => items.mapM r.readObject
      | _ => none
    let next := metadata.textAt "continue"
    return ⟨items, metadata.textAt "resourceVersion", if next = "" then none else some next⟩
  | _ => none

end ServedResource
end InventorySync
