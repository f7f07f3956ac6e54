import InventorySync.Proofs.Paths
import InventorySync.Record.Normalize

/-!
# Which documents become records

Whether a document is accepted is decided by eight demands, looked at in a fixed order; the first
one that is not met is what the document is refused for. The policy for unknown kinds is looked at
last, so a strict normalizer differs from a lenient one in nothing but the kinds it refuses.

## Key results

- `isKnownKind_eq_true_iff`: the kinds that are recognized are those of the catalog
- `Document.identify_eq_ok_iff`: what identifies a document is read where it stands
- `Normalizer.fault?_passthrough`: a lenient normalizer reports the first demand that is not met
- `Normalizer.strict_refines_passthrough`: what is accepted, by which policy, and what is reported
-/

namespace InventorySync

/-! ## The kinds of the catalog -/

theorem afterPrefix?_eq_some_iff {pre text rest : List Char} :
    afterPrefix? pre text = some rest ↔ text = pre ++ rest := by
  fun_induction afterPrefix? pre text with
  | case1 text => simp
  | case2 p ps cs ih => simp [ih]
  | case3 p ps c cs hne => simp [Ne.symm hne]
  | case4 p ps => simp

/-- Some row of the catalog has this kind, under the group and version that its documents carry. -/
def Catalogued (apiVersion kind : String) : Prop :=
  ∃ row ∈ catalog, apiVersion = row.schema.apiVersion ∧ kind = row.kind

instance (apiVersion kind : String) : Decidable (Catalogued apiVersion kind) :=
  inferInstanceAs (Decidable (∃ row ∈ catalog, _ ∧ _))

/-- Taking the group and a slash off with `afterPrefix?` leaves the version exactly when both stand
there. -/
theorem afterGroup_eq_some_iff {group version apiVersion : String} :
    (afterPrefix? group.toList apiVersion.toList).bind (afterPrefix? ['/'] ·) =
      some version.toList ↔ apiVersion = group ++ "/" ++ version := by
  have hslash : group.toList ++ ('/' :: version.toList) = (group ++ "/" ++ version).toList := by
    simp [String.toList_append]
  simp only [Option.bind_eq_some_iff, afterPrefix?_eq_some_iff, List.singleton_append]
  constructor
  · rintro ⟨_, happ, rfl⟩
    rw [hslash] at happ
    exact String.toList_inj.mp happ
  · rintro rfl
    exact ⟨_, hslash.symm, rfl⟩

/-- The kinds `isKnownKind` recognizes are the `Catalogued` ones. -/
theorem isKnownKind_eq_true_iff {apiVersion kind : String} :
    isKnownKind apiVersion kind = true ↔ Catalogued apiVersion kind := by
  unfold isKnownKind Catalogued
  rw [List.any_eq_true]
  apply exists_congr
  intro row
  apply and_congr_right
  intro _
  rw [Bool.and_eq_true, decide_eq_true_eq, eq_comm (a := row.kind), and_comm]
  apply and_congr_left
  intro _
  unfold Schema.apiVersion
  split
  · exact decide_eq_true_iff
  · rw [decide_eq_true_iff]
    exact afterGroup_eq_some_iff

example : isKnownKind "apps/v1" "Deployment" = true ∧
    isKnownKind "apps//v1" "Deployment" = false := by
  decide +kernel

namespace Document

open Json (at?_member at?_member_cons)

/-! ## Identified documents -/

theorem nonEmptyString?_eq_some_iff {ms : Members} {name text : String} :
    nonEmptyString? ms name = some text ↔
      Members.get? ms name = some (.string text) ∧ text ≠ "" := by
  unfold nonEmptyString?
  rw [Option.filter_eq_some_iff, decide_eq_true_eq]
  apply and_congr_left
  intro _
  cases Members.get? ms name with
  | none => simp
  | some v => cases v <;> simp [Json.asString?]

/-- What identifies a document: the parts of `d` stand in it where `identify` reads them. -/
structure Identifies (doc : Json) (d : Identified) : Prop where
  isObject : doc = .object d.members
  apiVersion : Members.get? d.members "apiVersion" = some (.string d.apiVersion)
  apiVersion_ne : d.apiVersion ≠ ""
  kind : Members.get? d.members "kind" = some (.string d.kind)
  kind_ne : d.kind ≠ ""
  metadata : Members.get? d.members "metadata" = some (.object d.metadata)
  uid : Members.get? d.metadata "uid" = some (.string d.uid)
  uid_ne : d.uid ≠ ""

theorem Identifies.sorted_metadata {doc : Json} {d : Identified} (hdoc : doc.Canonical)
    (h : Identifies doc d) : Members.Sorted d.metadata := by
  have hmembers : Json.CanonicalMembers d.members := by
    rw [h.isObject] at hdoc
    exact hdoc.2
  exact (Json.canonicalMembers_iff.mp hmembers _ (Members.mem_of_get? h.metadata)).1

/-- `identify` reads what `Identifies` a document. -/
theorem identify_eq_ok_iff {doc : Json} {d : Identified} :
    identify doc = .ok d ↔ Identifies doc d := by
  constructor
  -- Every demand was met on the way, in the order of the reader.
  · intro h
    unfold identify at h
    split at h
    case h_1 | h_2 | h_4 => cases h
    case h_3 ms _ =>
      split at h
      case h_1 => cases h
      case h_2 apiVersion hversion =>
        split at h
        case h_1 => cases h
        case h_2 kind hkind =>
          split at h
          case h_1 | h_3 => cases h
          case h_2 metadata hmetadata =>
            split at h
            case h_1 => cases h
            case h_2 uid huid =>
              obtain rfl := Except.ok.inj h
              obtain ⟨hversion, hversion'⟩ := nonEmptyString?_eq_some_iff.mp hversion
              obtain ⟨hkind, hkind'⟩ := nonEmptyString?_eq_some_iff.mp hkind
              obtain ⟨huid, huid'⟩ := nonEmptyString?_eq_some_iff.mp huid
              exact ⟨rfl, hversion, hversion', hkind, hkind', hmetadata, huid, huid'⟩
  · intro h
    have hversion := nonEmptyString?_eq_some_iff.mpr ⟨h.apiVersion, h.apiVersion_ne⟩
    have hkind := nonEmptyString?_eq_some_iff.mpr ⟨h.kind, h.kind_ne⟩
    have huid := nonEmptyString?_eq_some_iff.mpr ⟨h.uid, h.uid_ne⟩
    -- An object with an apiVersion is not empty.
    have hne : d.members ≠ [] := by
      intro hnil
      have hfound := h.apiVersion
      rw [hnil] at hfound
      cases hfound
    rw [h.isObject]
    unfold identify
    split
    case h_1 hnull => cases hnull
    case h_2 hempty => exact absurd (Json.object.inj hempty) hne
    case h_3 ms _ hms =>
      obtain rfl := Json.object.inj hms
      simp only [hversion, hkind, h.metadata, huid]
    case h_4 hother => exact absurd rfl (hother d.members)

/-- A document of a kind of the catalog has a name. -/
def Named (d : Identified) : Prop :=
  Catalogued d.apiVersion d.kind →
    ∃ name, Members.get? d.metadata "name" = some (.string name)

/-! ## Demands -/

/-- What is asked of a document, and what is reported when it is not met. -/
structure Demand where
  fault : Malformed
  met : Json → Bool

/-- A string with at least one character stands there. -/
def isText : Option Json → Bool
  | some (.string text) => text ≠ ""
  | _ => false

/-- A string stands there. -/
def isString : Option Json → Bool
  | some (.string _) => true
  | _ => false

/-- An object stands there. -/
def isObject : Option Json → Bool
  | some (.object _) => true
  | _ => false

/-- The demands for an identity, in the order in which they are looked at. -/
def identityDemands : List Demand :=
  [⟨.empty, fun doc => doc ≠ .null ∧ doc ≠ .object []⟩,
   ⟨.notAnObject, fun doc => isObject (doc.at? [])⟩,
   ⟨.missing "apiVersion", fun doc => isText (doc.at? ["apiVersion"])⟩,
   ⟨.missing "kind", fun doc => isText (doc.at? ["kind"])⟩,
   ⟨.missing "metadata", fun doc => (doc.at? ["metadata"]).isSome⟩,
   ⟨.metadataNotAnObject, fun doc => isObject (doc.at? ["metadata"])⟩,
   ⟨.missing "metadata.uid", fun doc => isText (doc.at? ["metadata", "uid"])⟩]

/-- The demand for a name. -/
def nameDemand : Demand :=
  ⟨.missing "metadata.name", fun doc => Catalogued (doc.textAt "apiVersion") (doc.textAt "kind") →
    isString (doc.at? ["metadata", "name"])⟩

/-- All demands, in the order in which they are looked at. -/
def demands : List Demand := identityDemands ++ [nameDemand]

/-- What the first demand that is not met reports. -/
def firstUnmet? (doc : Json) : List Demand → Option Malformed
  | [] => none
  | demand :: rest => bif demand.met doc then firstUnmet? doc rest else some demand.fault

theorem firstUnmet?_append (doc : Json) (before after : List Demand) :
    firstUnmet? doc (before ++ after) = (firstUnmet? doc before).or (firstUnmet? doc after) := by
  induction before with
  | nil => rfl
  | cons demand before ih =>
    rw [List.cons_append, firstUnmet?, firstUnmet?, ih]
    cases demand.met doc <;> rfl

theorem isText_get? (ms : Members) (name : String) :
    isText (Members.get? ms name) = (nonEmptyString? ms name).isSome := by
  unfold nonEmptyString?
  cases Members.get? ms name with
  | none => rfl
  | some v =>
    cases v with
    | string text => by_cases htext : text = "" <;> simp [isText, Json.asString?, htext]
    | _ => rfl

theorem isString_get? (ms : Members) (name : String) :
    isString (Members.get? ms name) = ((Members.get? ms name).bind Json.asString?).isSome := by
  cases Members.get? ms name with
  | none => rfl
  | some v => cases v <;> rfl

/-! ## What is refused -/

/-- The error of a result. -/
def fault? {ε α : Type} : Except ε α → Option ε
  | .ok _ => none
  | .error e => some e

/-- A document that `identify` refuses is refused for the first of the `identityDemands`. -/
theorem fault?_identify (doc : Json) :
    fault? (identify doc) = firstUnmet? doc identityDemands := by
  unfold identify
  split
  case h_1 | h_2 => rfl
  case h_3 ms hne =>
    -- From here on the document is an object, and each look-up is one of the demands.
    have hnotEmpty : decide (Json.object ms ≠ .null ∧ Json.object ms ≠ .object []) = true := by
      simpa using hne
    have hobject : isObject ((Json.object ms).at? []) = true := rfl
    simp only [identityDemands, firstUnmet?, hnotEmpty, hobject, at?_member, isText_get?,
      cond_true]
    -- The first look-up that fails is the first demand that is not met.
    split
    case h_1 h =>
      rw [h]
      rfl
    case h_2 apiVersion hversion =>
      rw [hversion]
      split
      case h_1 h =>
        rw [h]
        rfl
      case h_2 kind hkind =>
        rw [hkind]
        split
        case h_1 h =>
          rw [h]
          rfl
        case h_2 metadata hmetadata =>
          rw [at?_member_cons, hmetadata, Option.bind_some, at?_member, isText_get?]
          cases nonEmptyString? metadata "uid" <;> rfl
        case h_3 v hother hv =>
          rw [hv]
          cases v with
          | object metadata => exact absurd rfl (hother metadata)
          | _ => rfl
  -- What is neither null nor an object fails already the demand to be one.
  case h_4 hnull hempty hobject =>
    cases doc with
    | null => exact absurd rfl hnull
    | object ms => exact absurd rfl (hobject ms)
    | _ => rfl

/-- The name is looked at last, and `nameDemand` is all that is left for a `.passthrough` policy. -/
theorem fault?_checkKind {doc : Json} {d : Identified} (h : Identifies doc d) :
    fault? (checkKind .passthrough d) = firstUnmet? doc [nameDemand] := by
  have hname : doc.at? ["metadata", "name"] = Members.get? d.metadata "name" := by
    rw [h.isObject, at?_member_cons, h.metadata, Option.bind_some, at?_member]
  have hversion : doc.textAt "apiVersion" = d.apiVersion := by
    rw [h.isObject, Json.textAt, Json.get?, h.apiVersion]
    rfl
  have hkind : doc.textAt "kind" = d.kind := by
    rw [h.isObject, Json.textAt, Json.get?, h.kind]
    rfl
  simp only [firstUnmet?, nameDemand, hname, hversion, hkind, isString_get?, checkKind,
    isKnownKind_eq_true_iff]
  by_cases hcatalog : Catalogued d.apiVersion d.kind
  · rw [if_pos hcatalog]
    cases (Members.get? d.metadata "name").bind Json.asString? <;> simp [hcatalog, fault?]
  · rw [if_neg hcatalog]
    simp [hcatalog, fault?]

theorem exists_of_firstUnmet? {doc : Json} {ds : List Demand} {e : Malformed}
    (h : firstUnmet? doc ds = some e) : ∃ demand ∈ ds, demand.fault = e := by
  induction ds with
  | nil => cases h
  | cons demand ds ih =>
    rw [firstUnmet?] at h
    cases hmet : demand.met doc with
    | true =>
      rw [hmet] at h
      obtain ⟨other, hother, hfault⟩ := ih h
      exact ⟨other, List.mem_cons_of_mem _ hother, hfault⟩
    | false =>
      rw [hmet] at h
      exact ⟨demand, List.mem_cons_self, Option.some.inj h⟩

theorem checkKind_passthrough_eq_ok_iff {d : Identified} :
    checkKind .passthrough d = .ok () ↔ Named d := by
  have hname : (∃ name, Members.get? d.metadata "name" = some (.string name)) ↔
      ((Members.get? d.metadata "name").bind Json.asString?).isSome = true := by
    cases Members.get? d.metadata "name" with
    | none => simp
    | some v => cases v <;> simp [Json.asString?]
  unfold checkKind Named
  rw [hname]
  simp only [isKnownKind_eq_true_iff]
  by_cases hcatalog : Catalogued d.apiVersion d.kind
  · cases (Members.get? d.metadata "name").bind Json.asString? <;> simp [hcatalog]
  · simp [hcatalog]

/-- A `.strict` policy differs from `.passthrough` in the kinds that are not `Catalogued`. -/
theorem checkKind_strict (d : Identified) :
    checkKind .strict d =
      if Catalogued d.apiVersion d.kind then checkKind .passthrough d
      else .error (.unknownKind d.apiVersion d.kind) := by
  unfold checkKind
  simp only [isKnownKind_eq_true_iff]
  split <;> rfl

end Document

namespace Normalizer

open Document
open Json (at?_member)

/-- The record of an identified document. -/
def record (n : Normalizer) (d : Identified) : Record where
  identifier := d.uid
  apiVersion := d.apiVersion
  kind := d.kind
  contentHash := contentHash d.members (strip d.metadata)
  owner := n.owner
  payload := .object (Members.insert "metadata" (.object (strip d.metadata)) d.members)

theorem normalize_of_error {n : Normalizer} {doc : Json} {e : Malformed}
    (h : identify doc = .error e) : n.normalize doc = .error e := by
  rw [normalize, h]
  rfl

theorem normalize_of_ok {n : Normalizer} {doc : Json} {d : Identified}
    (h : identify doc = .ok d) :
    n.normalize doc = (checkKind n.policy d).map fun _ => n.record d := by
  rw [normalize, h]
  show (checkKind n.policy d).bind (fun _ => .ok (n.record d)) = _
  cases checkKind n.policy d <;> rfl

/-- A document is refused by `identify`, or else by `checkKind`. -/
theorem fault?_normalize (n : Normalizer) (doc : Json) :
    fault? (n.normalize doc) =
      match identify doc with
      | .error e => some e
      | .ok d => fault? (checkKind n.policy d) := by
  cases hidentify : identify doc with
  | error e =>
    rw [normalize_of_error hidentify]
    rfl
  | ok d =>
    rw [normalize_of_ok hidentify]
    show _ = fault? (checkKind n.policy d)
    cases checkKind n.policy d <;> rfl

/-- A `.passthrough` normalizer reports the first of the `demands` that is not met. -/
theorem fault?_passthrough (owner : Owner) (doc : Json) :
    fault? ((Normalizer.mk owner .passthrough).normalize doc) = firstUnmet? doc demands := by
  have hfirst := fault?_identify doc
  rw [fault?_normalize, demands, firstUnmet?_append, ← hfirst]
  cases hidentify : identify doc with
  | error e => rfl
  | ok d => exact fault?_checkKind (identify_eq_ok_iff.mp hidentify)

/-- What `normalize` accepts is the `record` of an identified document whose kind `checkKind` lets
pass. -/
theorem normalize_eq_ok_iff {n : Normalizer} {doc : Json} {r : Record} :
    n.normalize doc = .ok r ↔
      ∃ d, Identifies doc d ∧ checkKind n.policy d = .ok () ∧ n.record d = r := by
  simp only [← identify_eq_ok_iff]
  cases hidentify : identify doc with
  | error e =>
    rw [normalize_of_error hidentify]
    simp
  | ok d =>
    rw [normalize_of_ok hidentify]
    cases hcheck : checkKind n.policy d <;> simp [Except.map, hcheck]

theorem normalize_strict {doc : Json} {d : Identified} (owner : Owner) (h : Identifies doc d) :
    (Normalizer.mk owner .strict).normalize doc =
      if Catalogued d.apiVersion d.kind then (Normalizer.mk owner .passthrough).normalize doc
      else .error (.unknownKind d.apiVersion d.kind) := by
  have hidentify := identify_eq_ok_iff.mpr h
  rw [normalize_of_ok hidentify, normalize_of_ok hidentify, checkKind_strict]
  split <;> rfl

/-- What `Identifies` a document determines the record that `normalize` makes of it. -/
theorem eq_record {n : Normalizer} {doc : Json} {d : Identified} {r : Record}
    (hd : Identifies doc d) (h : n.normalize doc = .ok r) : r = n.record d := by
  obtain ⟨d', hd', -, rfl⟩ := normalize_eq_ok_iff.mp h
  rw [← identify_eq_ok_iff] at hd hd'
  rw [Except.ok.inj (hd.symm.trans hd')]

theorem normalize_strict_eq_ok_iff (owner : Owner) (doc : Json) (r : Record) :
    (Normalizer.mk owner .strict).normalize doc = .ok r ↔
      (Normalizer.mk owner .passthrough).normalize doc = .ok r ∧
        Catalogued r.apiVersion r.kind := by
  cases hidentify : identify doc with
  | error e =>
    rw [normalize_of_error hidentify, normalize_of_error hidentify]
    simp
  | ok d =>
    have hd := identify_eq_ok_iff.mp hidentify
    rw [normalize_strict owner hd]
    by_cases hcatalog : Catalogued d.apiVersion d.kind
    · rw [if_pos hcatalog]
      constructor
      · intro hr
        refine ⟨hr, ?_⟩
        rw [eq_record hd hr]
        exact hcatalog
      · exact And.left
    · rw [if_neg hcatalog]
      constructor
      · exact fun hr => nomatch hr
      · rintro ⟨hr, hkind⟩
        rw [eq_record hd hr] at hkind
        exact absurd hkind hcatalog

/-- None of the `demands` is about the policy: an `.unknownKind` is no fault of theirs. -/
theorem fault_ne_unknownKind {doc : Json} {e : Malformed} (h : firstUnmet? doc demands = some e)
    (apiVersion kind : String) : e ≠ .unknownKind apiVersion kind := by
  have hall : ∀ demand ∈ demands, demand.fault ≠ .unknownKind apiVersion kind := by
    simp [demands, identityDemands, nameDemand]
  obtain ⟨demand, hdemand, rfl⟩ := exists_of_firstUnmet? h
  exact hall demand hdemand

theorem firstUnmet?_of_error {owner : Owner} {doc : Json} {e : Malformed}
    (h : (Normalizer.mk owner .passthrough).normalize doc = .error e) :
    firstUnmet? doc demands = some e := by
  rw [← fault?_passthrough owner, h]
  rfl

/-- What a `.passthrough` normalizer refuses, a `.strict` one refuses for the same reason. -/
theorem normalize_strict_of_error {owner : Owner} {doc : Json} {e : Malformed}
    (h : (Normalizer.mk owner .passthrough).normalize doc = .error e) :
    (Normalizer.mk owner .strict).normalize doc = .error e := by
  cases hidentify : identify doc with
  | error e' =>
    rw [normalize_of_error hidentify] at h ⊢
    exact h
  | ok d =>
    -- Only the name can be missing, and that is looked at in the kinds of the catalog.
    have hd := identify_eq_ok_iff.mp hidentify
    have hcatalog : Catalogued d.apiVersion d.kind := by
      by_contra hother
      have hcheck : checkKind .passthrough d = .ok () :=
        checkKind_passthrough_eq_ok_iff.mpr fun hcatalog => absurd hcatalog hother
      rw [normalize_eq_ok_iff.mpr ⟨d, hd, hcheck, rfl⟩] at h
      cases h
    rw [normalize_strict owner hd, if_pos hcatalog]
    exact h

theorem normalize_strict_eq_unknownKind_iff (owner : Owner) (doc : Json)
    (apiVersion kind : String) :
    (Normalizer.mk owner .strict).normalize doc = .error (.unknownKind apiVersion kind) ↔
      ∃ r, (Normalizer.mk owner .passthrough).normalize doc = .ok r ∧
        apiVersion = r.apiVersion ∧ kind = r.kind ∧ ¬ Catalogued apiVersion kind := by
  cases hlenient : (Normalizer.mk owner .passthrough).normalize doc with
  | error e =>
    have hother := fault_ne_unknownKind (firstUnmet?_of_error hlenient) apiVersion kind
    rw [normalize_strict_of_error hlenient]
    simp [hother]
  | ok r =>
    obtain ⟨d, hd, -, rfl⟩ := normalize_eq_ok_iff.mp hlenient
    rw [normalize_strict owner hd, hlenient]
    by_cases hcatalog : Catalogued d.apiVersion d.kind
    · rw [if_pos hcatalog]
      constructor
      · exact fun h => nomatch h
      · rintro ⟨r, hr, rfl, rfl, hnot⟩
        rw [← Except.ok.inj hr] at hnot
        exact absurd hcatalog hnot
    · rw [if_neg hcatalog]
      constructor
      · intro h
        obtain ⟨rfl, rfl⟩ := Malformed.unknownKind.inj (Except.error.inj h)
        exact ⟨_, rfl, rfl, rfl, hcatalog⟩
      · rintro ⟨r, hr, rfl, rfl, -⟩
        rw [← Except.ok.inj hr]
        rfl

/-- Whatever the document: a `.passthrough` normalizer accepts it exactly when it identifies itself
and has a name where its kind is `Catalogued`, and otherwise reports the first of the `demands` that
is not met. A `.strict` one accepts of these documents those of the kinds of the catalog, with the
same record, reports `.unknownKind` for the others, and refuses the rest for the same reason. -/
theorem strict_refines_passthrough (owner : Owner) (doc : Json) :
    let lenient := (Normalizer.mk owner .passthrough).normalize doc
    let strict := (Normalizer.mk owner .strict).normalize doc
    ((∃ r, lenient = .ok r) ↔ ∃ d, Identifies doc d ∧ Named d) ∧
    (∀ r, lenient = .ok r → doc.at? ["apiVersion"] = some (.string r.apiVersion) ∧
      doc.at? ["kind"] = some (.string r.kind)) ∧
    (∀ r, strict = .ok r ↔ lenient = .ok r ∧ Catalogued r.apiVersion r.kind) ∧
    (∀ apiVersion kind, strict = .error (.unknownKind apiVersion kind) ↔
      ∃ r, lenient = .ok r ∧ apiVersion = r.apiVersion ∧ kind = r.kind ∧
        ¬ Catalogued apiVersion kind) ∧
    ∀ e, (lenient = .error e ↔ firstUnmet? doc demands = some e) ∧
      (lenient = .error e → strict = .error e) := by
  intro lenient strict
  have hfirst : fault? lenient = firstUnmet? doc demands := fault?_passthrough owner doc
  have haccept : ∀ r, lenient = .ok r ↔
      ∃ d, Identifies doc d ∧ Named d ∧ (Normalizer.mk owner .passthrough).record d = r := by
    intro r
    simp only [lenient, normalize_eq_ok_iff, checkKind_passthrough_eq_ok_iff]
  refine ⟨?_, ?_, ?_, ?_, ?_⟩
  · simp [haccept]
  · intro r hr
    obtain ⟨d, hd, -, rfl⟩ := (haccept r).mp hr
    rw [hd.isObject, at?_member, at?_member]
    exact ⟨hd.apiVersion, hd.kind⟩
  · exact normalize_strict_eq_ok_iff owner doc
  · exact normalize_strict_eq_unknownKind_iff owner doc
  · intro e
    refine ⟨?_, normalize_strict_of_error⟩
    rw [← hfirst]
    cases hlenient : lenient <;> simp [fault?]

/-- Of two faults the first one counts, and for an unknown kind a name is not asked for. -/
example :
    firstUnmet? (.object [("kind", .string ""), ("metadata", .null)]) demands =
      some (.missing "apiVersion") ∧
    firstUnmet? (.object [("apiVersion", .string "apps"), ("kind", .string "Deployment"),
      ("metadata", .object [("uid", .string "u")])]) demands = none := by
  decide +kernel

end Normalizer
end InventorySync
