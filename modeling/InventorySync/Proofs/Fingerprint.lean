import InventorySync.Proofs.Acceptance
import InventorySync.Proofs.CompactText

/-!
# What the fingerprint tells apart

The substance of a document is what is left of it when everything volatile is taken out or made the
same, said of the document as it was written, member by member. The bytes that are digested are
the compact text of the substance's canonical form, and that text determines it; so the digested
bytes of two documents are equal exactly when their substances are the same, the order of members
aside. What the digest adds is its collisions, and nothing else.

## Key results

- `substance`: the document without its volatile parts
- `canonical_substance`: the text is written of the substance
- `fingerprint_of_substance`: equal bytes for the same substance, and for no other
-/

namespace InventorySync.Md5

/-- Two messages with one `digest`. -/
structure Collision (x y : ByteArray) : Prop where
  ne : x ≠ y
  digest_eq : digest x = digest y

theorem digitChar_injective {m n : Nat} (hm : m < 16) (hn : n < 16)
    (h : Nat.digitChar m = Nat.digitChar n) : m = n := by
  have hread := Json.Reader.hexValue?_digitChar m hm
  rw [h, Json.Reader.hexValue?_digitChar n hn] at hread
  exact (Option.some.inj hread).symm

/-- `hex` determines the bytes. -/
theorem hex_injective {xs ys : List UInt8} (h : hex xs = hex ys) : xs = ys := by
  have hchars := String.ofList_injective h
  clear h
  induction xs generalizing ys with
  | nil =>
    cases ys with
    | nil => rfl
    | cons y ys => cases hchars
  | cons x xs ih =>
    cases ys with
    | nil => cases hchars
    | cons y ys =>
      obtain ⟨hhigh, hrest⟩ := List.cons.inj hchars
      obtain ⟨hlow, hrest⟩ := List.cons.inj hrest
      have hx : x.toNat < 256 := x.toNat_lt
      have hy : y.toNat < 256 := y.toNat_lt
      have hdiv := digitChar_injective (by omega) (by omega) hhigh
      have hmod := digitChar_injective (by omega) (by omega) hlow
      have hbyte : x = y := UInt8.toNat_inj.mp (by omega)
      rw [hbyte, ih hrest]

end InventorySync.Md5

namespace InventorySync.Document

open Json

/-! ## The substance -/

/-- Members with a rule applied to each: it is dropped, or kept with a value. -/
def revise (rule : String → Json → Option Json) (ms : Members) : Members :=
  ms.filterMap fun m => (rule m.1 m.2).map fun v => (m.1, v)

/-- An object with at least one member. -/
def nonEmptyObject? : Members → Option Json
  | [] => none
  | m :: ms => some (.object (m :: ms))

/-- Every annotation is kept but the last applied configuration. -/
def keptIfOther (name : String) (v : Json) : Option Json :=
  if name = "kubectl.kubernetes.io/last-applied-configuration" then none else some v

/-- What is kept of the annotations; none when there is no other. -/
def annotationsKept : Json → Option Json
  | .object annotations => nonEmptyObject? (revise keptIfOther annotations)
  | v => some v

/-- What is kept of a member of the metadata. -/
def metadataKept (name : String) (v : Json) : Option Json :=
  if name = "managedFields" ∨ name ∈ ["resourceVersion", "creationTimestamp", "generation"] then
    none
  else if name = "annotations" then annotationsKept v
  else some v

/-- The metadata that lasts, with every volatile field null. -/
def lasting : Json → Json
  | .object metadata =>
    .object ([("resourceVersion", .null), ("creationTimestamp", .null), ("generation", .null)] ++
      revise metadataKept metadata)
  | v => v

/-- The document without its volatile parts. -/
def substance : Json → Json
  | .object ms =>
    .object (revise (fun name v => some (if name = "metadata" then lasting v else v)) ms)
  | v => v

/-- The bytes that are digested for a document; none when it does not say what it is. -/
def digested (doc : Json) : ByteArray :=
  match identify doc with
  | .ok d => (fingerprinted d.members (strip d.metadata)).compact.toUTF8
  | .error _ => .empty

/-! ### What the fingerprint leaves out

The names above are those of `lastAppliedKey` and `volatileMetadata`. -/

theorem keptIfOther_eq (name : String) (v : Json) :
    keptIfOther name v = if name = lastAppliedKey then none else some v := rfl

theorem metadataKept_eq (name : String) (v : Json) :
    metadataKept name v =
      if name = "managedFields" ∨ name ∈ volatileMetadata then none
      else if name = "annotations" then annotationsKept v
      else some v := rfl

theorem lasting_object (metadata : Members) :
    lasting (.object metadata) =
      .object (volatileMetadata.map (fun name => (name, .null)) ++ revise metadataKept metadata) :=
  rfl

/-! ## Look-ups in revised members -/

section

variable {rule : String → Json → Option Json} {ms : Members}

theorem revise_cons (rule : String → Json → Option Json) (k : String) (v : Json) (ms : Members) :
    revise rule ((k, v) :: ms) =
      match rule k v with
      | none => revise rule ms
      | some w => (k, w) :: revise rule ms := by
  unfold revise
  rw [List.filterMap_cons]
  cases rule k v <;> rfl

theorem names_revise_sublist (rule : String → Json → Option Json) (ms : Members) :
    (Members.names (revise rule ms)).Sublist (Members.names ms) := by
  induction ms with
  | nil => exact .slnil
  | cons m ms ih =>
    obtain ⟨k, v⟩ := m
    rw [revise_cons]
    split
    · exact ih.cons k
    · exact ih.cons_cons k

theorem names_revise_nodup (h : (Members.names ms).Nodup) :
    (Members.names (revise rule ms)).Nodup :=
  (names_revise_sublist rule ms).nodup h

theorem get?_revise (h : (Members.names ms).Nodup) (key : String) :
    Members.get? (revise rule ms) key = (Members.get? ms key).bind (rule key) := by
  induction ms with
  | nil => rfl
  | cons m ms ih =>
    obtain ⟨k, v⟩ := m
    obtain ⟨hfresh, hrest⟩ := List.nodup_cons.mp h
    rw [revise_cons, Members.get?_cons]
    by_cases hkey : key = k
    · subst hkey
      have hnone : Members.get? (revise rule ms) key = none := by
        rw [ih hrest, Members.get?_eq_none_iff.mpr hfresh]
        rfl
      rw [if_pos rfl, Option.bind_some]
      split
      next hdrop => rw [hnone, hdrop]
      next w hkeep => rw [Members.get?_cons, if_pos rfl, hkeep]
    · rw [if_neg hkey]
      split
      · exact ih hrest
      · rw [Members.get?_cons, if_neg hkey, ih hrest]

theorem distinctMembers_revise (hms : DistinctMembers ms)
    (hrule : ∀ k v w, Distinct v → rule k v = some w → Distinct w) :
    DistinctMembers (revise rule ms) := by
  rw [distinctMembers_iff] at hms ⊢
  intro m hm
  obtain ⟨⟨k, v⟩, hmem, hkept⟩ := List.mem_filterMap.mp hm
  obtain ⟨w, hw, rfl⟩ := Option.map_eq_some_iff.mp hkept
  exact hrule k v w (hms _ hmem) hw

end

/-! ## Look-ups in stripped and blanked metadata -/

/-- `get?` after an `insert` of null under each of the `names`. -/
theorem get?_foldl_null (names : List String) (ms : Members) (key : String) :
    Members.get? (names.foldl (fun ms name => Members.insert name .null ms) ms) key =
      if key ∈ names then some .null else Members.get? ms key := by
  induction names generalizing ms with
  | nil => simp
  | cons name names ih =>
    rw [List.foldl_cons, ih, Members.get?_insert]
    by_cases hmem : key ∈ names
    · simp [hmem]
    · by_cases hname : key = name <;> simp [hmem, hname]

theorem get?_map_null (names : List String) (key : String) :
    Members.get? (names.map fun name => (name, Json.null)) key =
      if key ∈ names then some .null else none := by
  induction names with
  | nil => rfl
  | cons name names ih =>
    rw [List.map_cons, Members.get?_cons, ih]
    by_cases hname : key = name <;> simp [hname]

theorem sorted_foldl_null (names : List String) {ms : Members} (h : Members.Sorted ms) :
    Members.Sorted (names.foldl (fun ms name => Members.insert name .null ms) ms) := by
  induction names generalizing ms with
  | nil => exact h
  | cons name names ih => exact ih (Members.sorted_insert name .null h)

/-- What stripping leaves of the annotations. -/
def annotationsStripped : Json → Option Json
  | .object annotations => nonEmptyObject? (Members.erase annotations lastAppliedKey)
  | v => some v

theorem get?_stripAnnotations (metadata : Members) (key : String) :
    Members.get? (stripAnnotations metadata) key =
      if key = "annotations" then (Members.get? metadata "annotations").bind annotationsStripped
      else Members.get? metadata key := by
  unfold stripAnnotations
  split
  next annotations hfound =>
    rw [hfound, Option.bind_some, annotationsStripped]
    cases Members.erase annotations lastAppliedKey with
    | nil => exact Members.get?_erase _ _ _
    | cons m kept => exact Members.get?_insert _ _ _ _
  next hother =>
    split
    next hkey =>
      rw [hkey]
      cases hfound : Members.get? metadata "annotations" with
      | none => rfl
      | some v =>
        cases v with
        | object annotations => exact absurd hfound (hother annotations)
        | _ => rfl
    next => rfl

theorem get?_strip (metadata : Members) (key : String) :
    Members.get? (strip metadata) key =
      if key = "annotations" then (Members.get? metadata "annotations").bind annotationsStripped
      else if key = "managedFields" then none
      else Members.get? metadata key := by
  have hne : ("annotations" : String) ≠ "managedFields" := by decide
  rw [strip, get?_stripAnnotations, Members.get?_erase, Members.get?_erase, if_neg hne]

theorem sorted_strip {metadata : Members} (h : Members.Sorted metadata) :
    Members.Sorted (strip metadata) := by
  have herased := Members.sorted_erase h "managedFields"
  unfold strip stripAnnotations
  split
  · split
    · exact Members.sorted_erase herased "annotations"
    · exact Members.sorted_insert "annotations" _ herased
  · exact herased

/-! ## The text is written of the substance -/

theorem nonEmptyObject?_ordered {ms : Members} (hnames : (Members.names ms).Nodup) :
    (nonEmptyObject? ms).map canonical = nonEmptyObject? (ordered ms) := by
  cases ms with
  | nil => rfl
  | cons m ms =>
    have hfound := get?_ordered hnames m.1
    rw [Members.get?_of_mem hnames (.head _)] at hfound
    show some (Json.object (ordered (m :: ms))) = _
    cases hordered : ordered (m :: ms) with
    | nil =>
      rw [hordered] at hfound
      cases hfound
    | cons n ns => rfl

/-- `annotationsKept` is `annotationsStripped`, before the members are put in order and after. -/
theorem annotationsKept_canonical {v : Json} (hv : v.Distinct) :
    (annotationsKept v).map canonical = annotationsStripped v.canonical := by
  cases v with
  | object annotations =>
    have hordered : ordered (revise keptIfOther annotations) =
        Members.erase (ordered annotations) lastAppliedKey := by
      refine Members.ext_of_sorted (sorted_ordered _)
        (Members.sorted_erase (sorted_ordered annotations) _) fun key => ?_
      rw [get?_ordered (names_revise_nodup hv.1), get?_revise hv.1, Members.get?_erase,
        get?_ordered hv.1]
      by_cases hkey : key = lastAppliedKey
      · simp [keptIfOther_eq, hkey]
      · cases Members.get? annotations key <;> simp [keptIfOther_eq, hkey]
    rw [canonical_object, annotationsKept, annotationsStripped, ← hordered]
    exact nonEmptyObject?_ordered (names_revise_nodup hv.1)
  | _ => rfl

theorem names_lasting_nodup {metadata : Members} (h : (Members.names metadata).Nodup) :
    (Members.names (volatileMetadata.map (fun name => (name, Json.null)) ++
      revise metadataKept metadata)).Nodup := by
  have hvolatile : Members.names (volatileMetadata.map fun name => (name, Json.null)) =
      volatileMetadata := rfl
  rw [Members.names, List.map_append]
  refine List.nodup_append'.mpr ⟨by decide, names_revise_nodup h, ?_⟩
  -- The rule drops the volatile names, so none of them is there twice.
  intro name hname hkept
  have hmem : name ∈ volatileMetadata := hname
  refine Members.get?_eq_none_iff.mp ?_ hkept
  rw [get?_revise h]
  cases Members.get? metadata name <;> simp [metadataKept_eq, hmem]

/-- The `canonical` form of `lasting` metadata is what `strip` and `blankVolatile` make of it. -/
theorem canonical_lasting {metadata : Members} (h : (Json.object metadata).Distinct) :
    (lasting (.object metadata)).canonical =
      .object (blankVolatile (strip (ordered metadata))) := by
  rw [lasting_object, canonical_object]
  congr 1
  refine Members.ext_of_sorted (sorted_ordered _)
    (sorted_foldl_null _ (sorted_strip (sorted_ordered metadata))) fun key => ?_
  rw [get?_ordered (names_lasting_nodup h.1), Members.get?_append, get?_map_null, get?_revise h.1,
    blankVolatile, get?_foldl_null]
  -- Name by name: the volatile ones, the annotations, the managed fields, and all others.
  by_cases hvolatile : key ∈ volatileMetadata
  · rw [if_pos hvolatile, if_pos hvolatile]
    rfl
  · rw [if_neg hvolatile, if_neg hvolatile, Option.none_or, get?_strip, get?_ordered h.1,
      get?_ordered h.1]
    by_cases hannotations : key = "annotations"
    · subst hannotations
      cases hfound : Members.get? metadata "annotations" with
      | none => rfl
      | some v =>
        have hv : v.Distinct := distinctMembers_iff.mp h.2 _ (Members.mem_of_get? hfound)
        exact annotationsKept_canonical hv
    · by_cases hmanaged : key = "managedFields"
      · subst hmanaged
        cases Members.get? metadata "managedFields" <;> rfl
      · cases Members.get? metadata key <;>
          simp [metadataKept_eq, hvolatile, hannotations, hmanaged]

/-- The `canonical` form of the `substance` is what is `fingerprinted`. -/
theorem canonical_substance {doc : Json} (hdoc : doc.Distinct) {d : Identified}
    (h : identify doc.canonical = .ok d) :
    (substance doc).canonical = fingerprinted d.members (strip d.metadata) := by
  obtain ⟨hobject, -, -, -, -, hmetadata, -, -⟩ := identify_eq_ok_iff.mp h
  cases doc with
  | object ms =>
    obtain hmembers : ordered ms = d.members := Json.object.inj hobject
    rw [← hmembers, get?_ordered hdoc.1] at hmetadata
    -- The metadata that was written, of which the identified one is the canonical form.
    obtain ⟨v, hfound, hv⟩ := Option.map_eq_some_iff.mp hmetadata
    have hdistinct : v.Distinct := distinctMembers_iff.mp hdoc.2 _ (Members.mem_of_get? hfound)
    cases v with
    | object metadata =>
      have hordered : ordered metadata = d.metadata := Json.object.inj hv
      rw [substance, canonical_object, fingerprinted, ← hmembers, ← hordered,
        ← canonical_lasting hdistinct]
      congr 1
      refine Members.ext_of_sorted (sorted_ordered _)
        (Members.sorted_insert "metadata" _ (sorted_ordered ms)) fun key => ?_
      rw [get?_ordered (names_revise_nodup hdoc.1), get?_revise hdoc.1, Members.get?_insert,
        get?_ordered hdoc.1]
      by_cases hkey : key = "metadata"
      · subst hkey
        rw [hfound]
        rfl
      · cases Members.get? ms key <;> simp [hkey]
    | _ => cases hv
  | _ => cases hobject

/-! ## Distinct names in the substance -/

theorem eq_of_nonEmptyObject? {ms : Members} {v : Json} (h : nonEmptyObject? ms = some v) :
    v = .object ms := by
  cases ms with
  | nil => cases h
  | cons m ms => exact (Option.some.inj h).symm

theorem distinct_annotationsKept {v w : Json} (hv : v.Distinct) (h : annotationsKept v = some w) :
    w.Distinct := by
  cases v with
  | object annotations =>
    rw [eq_of_nonEmptyObject? h]
    refine ⟨names_revise_nodup hv.1, distinctMembers_revise hv.2 fun k v w hv hw => ?_⟩
    unfold keptIfOther at hw
    split at hw
    · cases hw
    · rw [← Option.some.inj hw]
      exact hv
  | _ =>
    rw [← Option.some.inj h]
    exact hv

theorem distinct_metadataKept {k : String} {v w : Json} (hv : v.Distinct)
    (h : metadataKept k v = some w) : w.Distinct := by
  unfold metadataKept at h
  split at h
  · cases h
  · split at h
    · exact distinct_annotationsKept hv h
    · rw [← Option.some.inj h]
      exact hv

theorem distinct_lasting {v : Json} (hv : v.Distinct) : (lasting v).Distinct := by
  cases v with
  | object metadata =>
    rw [lasting_object]
    refine ⟨names_lasting_nodup hv.1, distinctMembers_iff.mpr fun m hm => ?_⟩
    rcases List.mem_append.mp hm with hnull | hkept
    · obtain ⟨name, -, rfl⟩ := List.mem_map.mp hnull
      trivial
    · have hrevised : DistinctMembers (revise metadataKept metadata) :=
        distinctMembers_revise hv.2 fun _ _ _ => distinct_metadataKept
      exact distinctMembers_iff.mp hrevised m hkept
  | _ => exact hv

theorem distinct_substance {doc : Json} (hdoc : doc.Distinct) : (substance doc).Distinct := by
  cases doc with
  | object ms =>
    refine ⟨names_revise_nodup hdoc.1, distinctMembers_revise hdoc.2 fun k v w hv hw => ?_⟩
    rw [← Option.some.inj hw]
    split
    · exact distinct_lasting hv
    · exact hv
  | _ => exact hdoc

/-! ## The fingerprint -/

theorem normalize_ok {n : Normalizer} {doc : Json} {r : Record} (h : n.normalize doc = .ok r) :
    ∃ d, identify doc = .ok d ∧ r.identifier = d.uid ∧
      r.contentHash = contentHash d.members (strip d.metadata) := by
  obtain ⟨d, hd, -, rfl⟩ := Normalizer.normalize_eq_ok_iff.mp h
  exact ⟨d, identify_eq_ok_iff.mpr hd, rfl, rfl⟩

/-- The `contentHash` of a record is the `Md5.digest` of the document's `digested` bytes. -/
theorem contentHash_eq {n : Normalizer} {doc : Json} {r : Record} (h : n.normalize doc = .ok r) :
    r.contentHash = Md5.hex (Md5.digest (digested doc)) := by
  obtain ⟨d, hidentify, -, hhash⟩ := normalize_ok h
  rw [hhash, contentHash, digested, hidentify]

theorem length_contentHash {n : Normalizer} {doc : Json} {r : Record}
    (h : n.normalize doc = .ok r) : r.contentHash.length = 32 := by
  rw [contentHash_eq h, Md5.length_hex_digest]

/-- The bytes that are `digested` for an accepted document are the `compact` text of its
`substance`. -/
theorem digested_eq {n : Normalizer} {doc : Json} (hdoc : doc.Distinct) {r : Record}
    (h : n.normalize doc.canonical = .ok r) :
    digested doc.canonical = (substance doc).canonical.compact.toUTF8 := by
  obtain ⟨d, hidentify, -, -⟩ := normalize_ok h
  rw [digested, hidentify, canonical_substance hdoc hidentify]

/-- The fingerprint identifies the substance: of two accepted documents, whoever accepted them,
the digested bytes are equal exactly when the substances are the same. So the hashes of one
substance are equal, and equal hashes of two are a collision of the digest. The documents are taken
as they were written, in any order of members; that names are distinct holds of all that is read
(`Json.canonical_of_read`, `Json.Canonical.distinct`). -/
theorem fingerprint_of_substance {n m : Normalizer} {a b : Json} (ha : a.Distinct)
    (hb : b.Distinct) {r s : Record} (hr : n.normalize a.canonical = .ok r)
    (hs : m.normalize b.canonical = .ok s) :
    r.contentHash = Md5.hex (Md5.digest (digested a.canonical)) ∧
      s.contentHash = Md5.hex (Md5.digest (digested b.canonical)) ∧
      (digested a.canonical = digested b.canonical ↔ (substance a).Same (substance b)) ∧
      ((substance a).Same (substance b) → r.contentHash = s.contentHash) ∧
      (¬ (substance a).Same (substance b) → r.contentHash = s.contentHash →
        Md5.Collision (digested a.canonical) (digested b.canonical)) := by
  -- Bytes determine the text, the text determines the canonical value, and that the substance.
  have hbytes : digested a.canonical = digested b.canonical ↔
      (substance a).Same (substance b) := by
    rw [digested_eq ha hr, digested_eq hb hs, same_iff (distinct_substance ha)
      (distinct_substance hb)]
    constructor
    · intro h
      exact compact_injective (String.toByteArray_inj.mp h)
    · intro h
      rw [h]
  have hr' := contentHash_eq hr
  have hs' := contentHash_eq hs
  refine ⟨hr', hs', hbytes, ?_, ?_⟩
  · intro hsame
    rw [hr', hs', hbytes.mpr hsame]
  · intro hother hhash
    rw [hr', hs'] at hhash
    exact ⟨fun h => hother (hbytes.mp h), Md5.hex_injective hhash⟩

/-- A pod as it was listed. -/
def listedPod (replicas : Nat) : Json :=
  .object [("apiVersion", .string "v1"), ("kind", .string "Pod"),
    ("metadata", .object [("uid", .string "u1"), ("name", .string "p"),
      ("resourceVersion", .string "7"), ("managedFields", .array [])]),
    ("spec", .object [("replicas", ofNat replicas),
      ("b", .array [.object [("y", .null), ("x", .bool true)]])])]

/-- The pod as it was seen to change, its members in another order. -/
def changedPod : Json :=
  .object [("spec", .object [("b", .array [.object [("x", .bool true), ("y", .null)]]),
      ("replicas", ofNat 1)]),
    ("metadata", .object [("annotations",
        .object [("kubectl.kubernetes.io/last-applied-configuration", .string "")]),
      ("name", .string "p"), ("generation", ofNat 3), ("uid", .string "u1")]),
    ("kind", .string "Pod"), ("apiVersion", .string "v1")]

theorem distinct_listedPod (replicas : Nat) : (listedPod replicas).Distinct := by
  simp [listedPod, Distinct, DistinctMembers, DistinctItems, ofNat]

theorem distinct_changedPod : changedPod.Distinct := by
  simp [changedPod, Distinct, DistinctMembers, DistinctItems, ofNat]

theorem exists_ok {ε α : Type} {x : Except ε α} (h : x.isOk = true) : ∃ r, x = .ok r := by
  cases x with
  | error e => cases h
  | ok r => exact ⟨r, rfl⟩

/-- `listedPod 1` and `changedPod` have one `contentHash`; with another number of replicas the
`digested` bytes are others. -/
theorem fingerprint_of_pods : ∃ r s t,
    (Normalizer.mk (.cluster "c-1") .strict).normalize (listedPod 1).canonical = .ok r ∧
    (Normalizer.mk (.cluster "c-2") .passthrough).normalize changedPod.canonical = .ok s ∧
    (Normalizer.mk (.cluster "c-1") .strict).normalize (listedPod 2).canonical = .ok t ∧
    r.contentHash = s.contentHash ∧
    digested (listedPod 2).canonical ≠ digested changedPod.canonical := by
  obtain ⟨r, hr⟩ := exists_ok (x := (Normalizer.mk (.cluster "c-1") .strict).normalize
    (listedPod 1).canonical) (by decide +kernel)
  obtain ⟨s, hs⟩ := exists_ok (x := (Normalizer.mk (.cluster "c-2") .passthrough).normalize
    changedPod.canonical) (by decide +kernel)
  obtain ⟨t, ht⟩ := exists_ok (x := (Normalizer.mk (.cluster "c-1") .strict).normalize
    (listedPod 2).canonical) (by decide +kernel)
  have hlisted := distinct_listedPod
  have hchanged := distinct_changedPod
  have hsame : (substance (listedPod 1)).Same (substance changedPod) :=
    (same_iff (distinct_substance (hlisted 1)) (distinct_substance hchanged)).mpr
      (by decide +kernel)
  have hother : ¬ (substance (listedPod 2)).Same (substance changedPod) := by
    rw [same_iff (distinct_substance (hlisted 2)) (distinct_substance hchanged)]
    decide +kernel
  obtain ⟨-, -, -, hhash, -⟩ := fingerprint_of_substance (hlisted 1) hchanged hr hs
  obtain ⟨-, -, hbytes, -, -⟩ := fingerprint_of_substance (hlisted 2) hchanged ht hs
  exact ⟨r, s, t, hr, hs, ht, hhash hsame, fun h => hother (hbytes.mp h)⟩

end InventorySync.Document
