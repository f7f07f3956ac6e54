import InventorySync.Proofs.Fingerprint

/-!
# What a record keeps of its document

The payload is the document without its managed fields and the last applied configuration, and
without annotations when none is left; whatever stands anywhere else stands there unchanged.
Stripping what is stripped changes nothing, and neither identity nor kind is read from what is
stripped, so the payload is itself a document, with the same record.

## Key results

- `pruned`: the document without what does not belong into a record
- `at?_pruned`: at every depth everything else is as it was
- `pruned_of_identifies`: this is the payload
- `Normalizer.normalize_payload`: the payload of an accepted document, and its own record
-/

namespace InventorySync.Document

open Json

/-! ## The pruned document -/

/-- Where the managed fields stand. -/
def managedFieldsPath : List String := ["metadata", "managedFields"]

/-- Where the annotations stand. -/
def annotationsPath : List String := ["metadata", "annotations"]

/-- Where the last applied configuration stands. -/
def lastAppliedPath : List String :=
  ["metadata", "annotations", "kubectl.kubernetes.io/last-applied-configuration"]

theorem lastAppliedPath_eq : lastAppliedPath = annotationsPath ++ [lastAppliedKey] := rfl

/-- A document without its managed fields and the last applied configuration, and without
annotations when they are an object and none is left. -/
def pruned (doc : Json) : Json :=
  let trimmed := (doc.without managedFieldsPath).without lastAppliedPath
  if trimmed.at? (annotationsPath.map .member) = some (.object []) then
    trimmed.without annotationsPath
  else trimmed

/-- Everything apart from `managedFieldsPath` and `lastAppliedPath` is in the `pruned` document as
it was. -/
theorem at?_pruned (doc : Json) {path : Path}
    (hmanaged : Apart path (managedFieldsPath.map .member))
    (happlied : Apart path (lastAppliedPath.map .member)) :
    (pruned doc).at? path = doc.at? path := by
  have htrimmed : ((doc.without managedFieldsPath).without lastAppliedPath).at? path =
      doc.at? path := by
    rw [at?_without _ happlied, at?_without _ hmanaged]
  have hprefix : annotationsPath.map Step.member <+: lastAppliedPath.map .member := by
    rw [lastAppliedPath_eq, List.map_append]
    exact List.prefix_append ..
  unfold pruned
  dsimp only
  split
  next hempty =>
    rw [← htrimmed]
    by_cases hbelow : annotationsPath.map Step.member <+: path
    · -- There is nothing below an object without members.
      obtain ⟨rest, rfl⟩ := hbelow
      rw [at?_append, at?_append, hempty, annotationsPath, at?_without_self]
      cases rest with
      | nil =>
        rw [List.append_nil] at happlied
        exact absurd hprefix happlied.1
      | cons step rest => cases step <;> rfl
    · exact at?_without _ ⟨fun h => happlied.1 (h.trans hprefix), hbelow⟩
  next => exact htrimmed

/-- The metadata of a pruned document. -/
def prunedMetadata (v : Json) : Json :=
  let trimmed := (v.without ["managedFields"]).without ["annotations", lastAppliedKey]
  if trimmed.at? ["annotations"] = some (.object []) then trimmed.without ["annotations"]
  else trimmed

/-- Pruning a document is `prunedMetadata` of its metadata. -/
theorem pruned_object {ms : Members} (h : Members.Sorted ms) (v : Json) :
    pruned (.object (Members.insert "metadata" v ms)) =
      .object (Members.insert "metadata" (prunedMetadata v) ms) := by
  have hat : ∀ w, (Json.object (Members.insert "metadata" w ms)).at?
      (annotationsPath.map .member) = w.at? ["annotations"] := by
    intro w
    rw [annotationsPath, List.map_cons, at?_member_cons, Members.get?_insert, if_pos rfl]
    rfl
  unfold pruned prunedMetadata
  rw [lastAppliedPath_eq]
  unfold managedFieldsPath annotationsPath
  simp only [List.cons_append, List.nil_append, without_cons_insert h]
  rw [← annotationsPath, hat]
  split <;> rfl

/-! ## Stripped metadata -/

/-- On metadata in the order of names `prunedMetadata` does what `strip` does. -/
theorem prunedMetadata_object {metadata : Members} (h : Members.Sorted metadata) :
    prunedMetadata (.object metadata) = .object (strip metadata) := by
  have hrest : Members.Sorted (Members.erase metadata "managedFields") :=
    Members.sorted_erase h "managedFields"
  unfold prunedMetadata strip stripAnnotations
  rw [without]
  generalize Members.erase metadata "managedFields" = rest at hrest
  dsimp only
  cases hfound : Members.get? rest "annotations" with
  | none =>
    simp [without_cons_of_missing hfound, at?_member, hfound]
  | some v =>
    rw [without_cons_of_get? hrest hfound, at?_member, Members.get?_insert, if_pos rfl]
    cases v with
    | object annotations =>
      rw [without]
      dsimp only
      cases Members.erase annotations lastAppliedKey with
      | nil => rw [if_pos rfl, without, Members.erase_insert]
      | cons m kept => rw [if_neg (by simp)]
    | _ =>
      -- Annotations that are no object stay where they are.
      rw [if_neg (by simp [without])]
      exact congrArg Json.object (Members.insert_of_get? hrest hfound)

theorem get?_strip_of_ne (metadata : Members) {key : String} (hannotations : key ≠ "annotations")
    (hmanaged : key ≠ "managedFields") :
    Members.get? (strip metadata) key = Members.get? metadata key := by
  rw [get?_strip, if_neg hannotations, if_neg hmanaged]

theorem erase_erase (ms : Members) (name : String) :
    Members.erase (Members.erase ms name) name = Members.erase ms name := by
  simp [Members.erase]

theorem bind_annotationsStripped_twice (v : Json) :
    (annotationsStripped v).bind annotationsStripped = annotationsStripped v := by
  cases v with
  | object annotations =>
    rw [annotationsStripped]
    have hagain := erase_erase annotations lastAppliedKey
    cases hleft : Members.erase annotations lastAppliedKey with
    | nil => rfl
    | cons m kept =>
      rw [hleft] at hagain
      rw [nonEmptyObject?, Option.bind_some, annotationsStripped, hagain]
      rfl
  | _ => rfl

/-- What `strip` leaves, it leaves a second time. -/
theorem strip_strip {metadata : Members} (h : Members.Sorted metadata) :
    strip (strip metadata) = strip metadata := by
  have hstripped := sorted_strip h
  apply Members.ext_of_sorted (sorted_strip hstripped) hstripped
  intro key
  rw [get?_strip (strip metadata)]
  split
  next hkey =>
    rw [hkey, get?_strip, if_pos rfl, Option.bind_assoc]
    simp only [bind_annotationsStripped_twice]
  next hkey =>
    split
    next hmanaged => rw [get?_strip, if_neg hkey, if_pos hmanaged]
    next => rfl

/-! ## The record of a payload -/

/-- The document with its metadata stripped. -/
def Identified.stripped (d : Identified) : Identified :=
  { d with
    members := Members.insert "metadata" (.object (strip d.metadata)) d.members
    metadata := strip d.metadata }

/-- `Identified.stripped` takes away nothing that identifies a document. -/
theorem Identifies.stripped {doc : Json} {d : Identified} (h : Identifies doc d) :
    Identifies (.object d.stripped.members) d.stripped where
  isObject := rfl
  apiVersion := by
    show Members.get? (Members.insert _ _ _) _ = _
    rw [Members.get?_insert, if_neg (by decide)]
    exact h.apiVersion
  apiVersion_ne := h.apiVersion_ne
  kind := by
    show Members.get? (Members.insert _ _ _) _ = _
    rw [Members.get?_insert, if_neg (by decide)]
    exact h.kind
  kind_ne := h.kind_ne
  metadata := by
    show Members.get? (Members.insert _ _ _) _ = _
    rw [Members.get?_insert, if_pos rfl]
    rfl
  uid := by
    show Members.get? (strip _) _ = _
    rw [get?_strip_of_ne _ (by decide) (by decide)]
    exact h.uid
  uid_ne := h.uid_ne

theorem checkKind_stripped (policy : KindPolicy) (d : Identified) :
    checkKind policy d.stripped = checkKind policy d := by
  have hname : Members.get? d.stripped.metadata "name" = Members.get? d.metadata "name" :=
    get?_strip_of_ne _ (by decide) (by decide)
  unfold checkKind
  rw [hname]
  rfl

end InventorySync.Document

namespace InventorySync.Normalizer

open Document Json

theorem record_stripped (n : Normalizer) {d : Identified} (h : Members.Sorted d.metadata) :
    n.record d.stripped = n.record d := by
  have hstrip : strip (strip d.metadata) = strip d.metadata := strip_strip h
  simp only [record, Identified.stripped, hstrip, contentHash, fingerprinted,
    Members.insert_insert]

/-- The payload of what `normalize` accepts is the `pruned` document, without its managed fields and
the last applied configuration, and without annotations when none is left; at every depth everything
else is as it was. What identifies the record stands in the document, and `normalize` makes that
very record of the payload again. -/
theorem normalize_payload {n : Normalizer} {doc : Json} (hdoc : doc.Canonical) {r : Record}
    (h : n.normalize doc = .ok r) :
    r.payload = pruned doc ∧
    (∀ path, Apart path (managedFieldsPath.map .member) →
      Apart path (lastAppliedPath.map .member) → r.payload.at? path = doc.at? path) ∧
    doc.at? ["metadata", "uid"] = some (.string r.identifier) ∧
    doc.at? ["apiVersion"] = some (.string r.apiVersion) ∧
    doc.at? ["kind"] = some (.string r.kind) ∧
    n.normalize r.payload = .ok r := by
  obtain ⟨d, hd, hkind, rfl⟩ := normalize_eq_ok_iff.mp h
  have hmetadata : Members.Sorted d.metadata := hd.sorted_metadata hdoc
  have hmembers : Members.Sorted d.members := by
    rw [hd.isObject] at hdoc
    exact hdoc.1
  -- Putting the metadata back where it was shows that only the metadata is pruned.
  have hpruned : (n.record d).payload = pruned doc := by
    rw [hd.isObject, ← Members.insert_of_get? hmembers hd.metadata, pruned_object hmembers,
      prunedMetadata_object hmetadata]
    rfl
  refine ⟨hpruned, ?_, ?_, ?_, ?_, ?_⟩
  · intro path hmanaged happlied
    rw [hpruned, at?_pruned doc hmanaged happlied]
  · rw [hd.isObject, at?_member_cons, hd.metadata, Option.bind_some, at?_member]
    exact hd.uid
  · rw [hd.isObject, at?_member]
    exact hd.apiVersion
  · rw [hd.isObject, at?_member]
    exact hd.kind
  · exact normalize_eq_ok_iff.mpr ⟨d.stripped, hd.stripped,
      (checkKind_stripped n.policy d).trans hkind, record_stripped n hmetadata⟩

/-- A deployment as it is applied by a tool: a list among its members, volatile metadata, and no
other annotation than that of the tool. -/
def appliedDeployment : Json :=
  .object [("apiVersion", .string "apps/v1"), ("kind", .string "Deployment"),
    ("metadata", .object
      [("annotations",
          .object [("kubectl.kubernetes.io/last-applied-configuration", .string "x")]),
        ("generation", ofNat 3), ("managedFields", .array [.null]), ("name", .string "web"),
        ("uid", .string "u1")]),
    ("spec", .array [.object [("managedFields", ofNat 2)]])]

/-- What is kept of it. -/
def keptDeployment : Json :=
  .object [("apiVersion", .string "apps/v1"), ("kind", .string "Deployment"),
    ("metadata", .object
      [("generation", ofNat 3), ("name", .string "web"), ("uid", .string "u1")]),
    ("spec", .array [.object [("managedFields", ofNat 2)]])]

theorem canonical_appliedDeployment : appliedDeployment.Canonical := by
  simp only [appliedDeployment, ofNat, Canonical, CanonicalMembers, CanonicalItems,
    List.pairwise_cons, List.forall_mem_cons]
  decide

/-- The payload of `appliedDeployment` has neither managed fields nor annotations in the metadata,
everything else, and its record. -/
theorem normalize_payload_of_deployment : ∃ r,
    (Normalizer.mk (.cluster "c-1") .strict).normalize appliedDeployment = .ok r ∧
    r.payload = keptDeployment ∧
    (Normalizer.mk (.cluster "c-1") .strict).normalize r.payload = .ok r := by
  obtain ⟨r, hr⟩ := exists_ok (x := (Normalizer.mk (.cluster "c-1") .strict).normalize
    appliedDeployment) (by decide +kernel)
  obtain ⟨hpayload, -, -, -, -, hagain⟩ := normalize_payload canonical_appliedDeployment hr
  have hpruned : pruned appliedDeployment = keptDeployment := by decide +kernel
  exact ⟨r, hr, hpayload.trans hpruned, hagain⟩

end InventorySync.Normalizer
