import InventorySync.Cluster.Object
import InventorySync.Schema
import InventorySync.Text.Split

/-! # Discovery

Which of the wanted schemas a cluster serves. The cluster is asked for its groups, then for the
resources of every version of the groups that are wanted; the core group is asked for last. One
failure is the failure of all. -/

namespace InventorySync

/-- The resources of one version of a group. -/
structure ServedVersion where
  version : String
  resources : List ServedResource
deriving DecidableEq, Repr, Inhabited

/-- A group that the cluster serves. -/
structure ServedGroup where
  name : String
  versions : List ServedVersion
deriving DecidableEq, Repr, Inhabited

namespace Shape

/-- Addresses of the server for some clients. -/
def serverAddresses : Shape := listOf (record [("clientCIDR", text), ("serverAddress", text)])

/-- A version of a group. -/
def groupVersion : Shape := record [("groupVersion", text), ("version", text)]

/-- A group and its versions. -/
def apiGroup : Shape :=
  marked "v1" "APIGroup" <|
    record [("name", text), ("preferredVersion", groupVersion),
      ("serverAddressByClientCIDRs", serverAddresses), ("versions", listOf groupVersion)]

/-- The groups of the cluster. -/
def apiGroups : Shape := marked "v1" "APIGroupList" <| record [("groups", listOf apiGroup)]

/-- The versions of the core group. -/
def apiVersions : Shape :=
  marked "v1" "APIVersions" <|
    record [("serverAddressByClientCIDRs", serverAddresses), ("versions", listOf text)]

/-- A resource. -/
def apiResource : Shape :=
  record [("categories", listOf text), ("group", text), ("kind", text), ("name", text),
    ("namespaced", flag), ("shortNames", listOf text), ("singularName", text),
    ("storageVersionHash", text), ("verbs", listOf text), ("version", text)]

/-- The resources of a version of a group. -/
def apiResources : Shape :=
  marked "v1" "APIResourceList" <|
    record [("groupVersion", text), ("resources", listOf apiResource)]

end Shape

namespace ServedResource

/-- The resource that a list of resources names, in a group and version such as `apps/v1`, or `v1`
for the core group. -/
def ofListed (groupVersion : String) (listed : Json) : ServedResource :=
  let (group, version) :=
    match Text.splitString '/' groupVersion with
    | group :: v :: rest => (group, String.intercalate "/" (v :: rest))
    | _ => ("", groupVersion)
  let named (name given : String) := ((listed.get? name).bind Json.asString?).getD given
  { ofParts group version (listed.textAt "kind") (listed.textAt "name") with
    group := named "group" group
    version := named "version" version }

/-- The resources of a list, parts of other resources left out. -/
def ofList (list : Json) : List ServedResource :=
  ((list.itemsAt "resources").map (ofListed (list.textAt "groupVersion"))).filter
    fun r => !r.plural.toList.contains '/'

end ServedResource

/-! ## Asking the cluster -/

namespace Discovery

/-- Why discovery gives no groups. -/
inductive Stop where
  | failed
  /-- A request is never answered. -/
  | silent
deriving DecidableEq, Repr, Inhabited

/-- What comes back for a request: nothing ever, or a body if it succeeds. -/
abbrev Fetch := String → Option (Option String)

/-- An inquiry, and the paths that it asked for, latest first. -/
abbrev Inquiry (α : Type) := ExceptT Stop (StateM (List String)) α

/-- Ask for a path and read what comes back. -/
def ask (fetch : Fetch) (shape : Shape) (path : String) : Inquiry Json := do
  modify (path :: ·)
  match fetch path with
  | none => throw .silent
  | some body =>
    match body.bind fun text =>
        (Json.readRaw Json.documentDepth text).toOption.bind shape with
    | some v => return v
    | none => throw .failed

/-- The resources of a version, found at a path. -/
def askVersion (fetch : Fetch) (version path : String) : Inquiry ServedVersion := do
  let list ← ask fetch Shape.apiResources path
  return ⟨version, ServedResource.ofList list⟩

/-- A group with its versions and the paths of their resources; there has to be one. -/
def askGroup (fetch : Fetch) (name : String) (versions : List (String × String)) :
    Inquiry ServedGroup := do
  if versions.isEmpty then throw .failed
  return ⟨name, ← versions.mapM fun (version, path) => askVersion fetch version path⟩

/-- All groups that are wanted. -/
def askGroups (fetch : Fetch) (wanted : List String) : Inquiry (List ServedGroup) := do
  let listed ← ask fetch Shape.apiGroups "/apis"
  let named := (listed.itemsAt "groups").filter fun g => g.textAt "name" ∈ wanted
  let groups ← named.mapM fun g =>
    askGroup fetch (g.textAt "name") <| (g.itemsAt "versions").map fun v =>
      (v.textAt "version", "/apis/" ++ v.textAt "groupVersion")
  if "" ∈ wanted then
    let core ← ask fetch Shape.apiVersions "/api"
    let group ← askGroup fetch "" <| ((core.itemsAt "versions").filterMap Json.asString?).map
      fun v => (v, "/api/" ++ v)
    return groups ++ [group]
  else return groups

/-- The groups that the schemas want, and the paths that were asked for, in order. -/
def run (fetch : Fetch) (schemas : List Schema) : Except Stop (List ServedGroup) × List String :=
  let (result, paths) := (askGroups fetch (schemas.map (·.group))).run []
  (result, paths.reverse)

end Discovery

/-! ## Schemas served -/

/-- The resource that serves a schema: the first with its name in the first version with its
version, of groups with one name the last. -/
def Schema.servedBy? (s : Schema) (groups : List ServedGroup) : Option ServedResource := do
  let group ← groups.reverse.find? fun g => g.name = s.group
  let version ← group.versions.find? fun v => v.version = s.version
  version.resources.find? fun r => r.plural = s.resource

/-- The schemas that the cluster serves, in their order, each with its resource. -/
def servedSchemas (schemas : List Schema) (groups : List ServedGroup) :
    List (Schema × ServedResource) :=
  schemas.filterMap fun s => (s.servedBy? groups).map (s, ·)

end InventorySync
