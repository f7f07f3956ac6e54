import InventorySync.Proofs.Members
import InventorySync.Wire

/-!
# The wire forms are decoded to what they encode

A record is described by its shape, the names of its fields in their declared order and what each
of them holds. A value is encoded as the object of its encoded fields; it is decoded from any
object that has these fields, whatever else is in it, and from the array of the fields. A field
need not be written the way it is encoded, as long as it is decoded to the same.

## Key results

- `IsRecord.laws`: an encoder and a decoder that go by a shape obey the laws of a record
- `Schema.isRecord`, `ResourceUpdate.isRecord` and so on: the shape of every record
- `forms_round_trip`: every encoded value is decoded to itself
-/

namespace InventorySync

namespace Wire

/-! ## The shape of a record -/

/-- What a field of a record holds. -/
inductive Kind where
  | string
  | flag
  | owner
  | action
  /-- Any value. -/
  | payload
  /-- The items of a list, which may be left out. -/
  | items
deriving DecidableEq, Repr

/-- The encoded form of what a field is decoded to, if it is decoded to anything. -/
def Kind.normal? : Kind → Option Json → Option Json
  | .string, v => (string? v).map .string
  | .flag, v => (bool? v).map .bool
  | .owner, v => (required? Owner.ofJson? v).map Owner.toJson
  | .action, v => (required? Action.ofJson? v).map Action.toJson
  | .payload, v => v
  | .items, none => some (.array [])
  | .items, some v => (list? HashItem.ofJson? v).map fun items => .array (items.map HashItem.toJson)

/-- A field of a record, by its `name` and `kind`. -/
structure Field where
  name : String
  kind : Kind
deriving DecidableEq, Repr

/-- The names of the fields, in their declared order. -/
def names (shape : List Field) : List String := shape.map Field.name

/-- The encoded forms of what fields are decoded to, if every one of them is decoded. -/
def normals? : List Field → List (Option Json) → Option (List Json)
  | [], [] => some []
  | field :: shape, part :: parts => do
    let value ← field.kind.normal? part
    let values ← normals? shape parts
    return value :: values
  | _, _ => none

/-- An encoder and a decoder go by a shape: a value is encoded as the object of its encoded
`fields`, and decoded from what `normals?` takes for them. -/
structure IsRecord {α : Type} (toJson : α → Json) (ofJson? : Json → Option α) (shape : List Field)
    (fields : α → List Json) : Prop where
  distinct : (names shape).Nodup
  toJson_eq (v : α) : toJson v = .mkObject ((names shape).zip (fields v))
  normal (v : α) : normals? shape ((fields v).map some) = some (fields v)
  ofJson?_eq_some_iff {j : Json} {v : α} : ofJson? j = some v ↔
    ∃ parts, fields? (names shape) j = some parts ∧ normals? shape parts = some (fields v)

variable {shape : List Field} {parts : List (Option Json)} {values : List Json}

theorem normals?_cons_eq_some_iff {field : Field} {part : Option Json} :
    normals? (field :: shape) (part :: parts) = some values ↔
      ∃ value rest, field.kind.normal? part = some value ∧ normals? shape parts = some rest ∧
        value :: rest = values := by
  simp [normals?, Option.bind_eq_some_iff]

theorem length_of_normals? (h : normals? shape parts = some values) :
    parts.length = shape.length := by
  induction shape generalizing parts values with
  | nil =>
    cases parts with
    | nil => rfl
    | cons => cases h
  | cons field shape ih =>
    cases parts with
    | nil => cases h
    | cons part parts =>
      obtain ⟨value, rest, -, hrest, -⟩ := normals?_cons_eq_some_iff.mp h
      exact congrArg (· + 1) (ih hrest)

/-- Every field for which `normals?` gives a value is there and decoded. -/
theorem exists_of_normals? (h : normals? shape parts = some values) {i : Nat} {field : Field}
    (hfield : shape[i]? = some field) :
    ∃ part, parts[i]? = some part ∧ field.kind.normal? part ≠ none := by
  induction shape generalizing parts values i with
  | nil => simp at hfield
  | cons first shape ih =>
    cases parts with
    | nil => cases h
    | cons part parts =>
      obtain ⟨value, rest, hvalue, hrest, -⟩ := normals?_cons_eq_some_iff.mp h
      cases i with
      | zero =>
        obtain rfl : first = field := by simpa using hfield
        exact ⟨part, rfl, by simp [hvalue]⟩
      | succ i => exact ih hrest hfield

/-! ## Finding the fields -/

theorem fields?_array {ns : List String} {items : List Json} (h : items.length = ns.length) :
    fields? ns (.array items) = some (items.map some) := by
  simp [fields?, h]

theorem fields?_object {ns : List String} {ms : Members} {items : List Json}
    (hlength : items.length = ns.length)
    (h : ∀ p ∈ ns.zip items, Members.single? ms p.1 = some (some p.2)) :
    fields? ns (.object ms) = some (items.map some) := by
  rw [fields?]
  induction ns generalizing items with
  | nil =>
    obtain rfl := List.length_eq_zero_iff.mp hlength
    rfl
  | cons name ns ih =>
    obtain ⟨item, items, rfl⟩ := List.exists_cons_of_length_eq_add_one hlength
    rw [List.zip_cons_cons, List.forall_mem_cons] at h
    rw [List.mapM_cons, h.1, ih (by simpa using hlength) h.2]
    rfl

theorem length_of_mapM {ns : List String} {find : String → Option (Option Json)}
    (h : ns.mapM find = some parts) : parts.length = ns.length := by
  induction ns generalizing parts with
  | nil =>
    cases h
    rfl
  | cons first ns ih =>
    simp only [List.mapM_cons, Option.bind_eq_bind, Option.bind_eq_some_iff, Option.pure_def,
      Option.some.injEq] at h
    obtain ⟨part, -, rest, hrest, rfl⟩ := h
    exact congrArg (· + 1) (ih hrest)

/-- There are as many parts from `fields?` as names of fields. -/
theorem length_of_fields? {ns : List String} {j : Json} (h : fields? ns j = some parts) :
    parts.length = ns.length := by
  unfold fields? at h
  split at h
  case h_1 ms => exact length_of_mapM h
  case h_2 items =>
    split at h
    case isTrue hle =>
      rw [← Option.some.inj h, List.length_append, List.length_map, List.length_replicate]
      omega
    case isFalse => cases h
  case h_3 => cases h

theorem exists_of_mapM {ns : List String} {find : String → Option (Option Json)}
    (h : ns.mapM find = some parts) {i : Nat} {name : String} (hname : ns[i]? = some name) :
    ∃ part, parts[i]? = some part ∧ find name = some part := by
  induction ns generalizing parts i with
  | nil => simp at hname
  | cons first ns ih =>
    simp only [List.mapM_cons, Option.bind_eq_bind, Option.bind_eq_some_iff, Option.pure_def,
      Option.some.injEq] at h
    obtain ⟨part, hpart, rest, hrest, rfl⟩ := h
    cases i with
    | zero =>
      obtain rfl : first = name := by simpa using hname
      exact ⟨part, rfl, hpart⟩
    | succ i => exact ih hrest hname

theorem single?_mkObject {pairs : Members} (hnames : (Members.names pairs).Nodup)
    {p : String × Json} (hp : p ∈ pairs) :
    Members.single? (Members.ofList pairs) p.1 = some (some p.2) := by
  have hget : Members.get? (Members.ofList pairs) p.1 = some p.2 := by
    rw [Members.get?_ofList hnames, Members.get?_of_mem hnames hp]
  exact Members.single?_of_nodup
    (Members.nodup_names_of_sorted (Members.sorted_ofList pairs)) (Members.mem_of_get? hget)

/-! ## The laws of a record -/

/-- What holds of the encoding `toJson` and the decoding `ofJson?` of a record with this shape and
these encoded fields. -/
structure RecordLaws {α : Type} (toJson : α → Json) (ofJson? : Json → Option α) (shape : List Field)
    (fields : α → List Json) : Prop where
  /-- A value is encoded as the object of its encoded fields. -/
  encoded (v : α) : toJson v = .mkObject ((names shape).zip (fields v))
  /-- Its encoded fields are decoded to what they encode. -/
  normal (v : α) : normals? shape ((fields v).map some) = some (fields v)
  decoded (v : α) : ofJson? (toJson v) = some v
  /-- Members under other names are ignored, and so is the order of members. -/
  of_object {v : α} {parts : List Json} {extra ms : Members}
    (hparts : normals? shape (parts.map some) = some (fields v))
    (hextra : ∀ m ∈ extra, m.1 ∉ names shape)
    (hms : ms.Perm ((names shape).zip parts ++ extra)) : ofJson? (.object ms) = some v
  /-- The fields may stand in an array, in their declared order. -/
  of_array {v : α} {parts : List Json}
    (hparts : normals? shape (parts.map some) = some (fields v)) : ofJson? (.array parts) = some v
  decoded_again {j : Json} {v : α} (h : ofJson? j = some v) : ofJson? (toJson v) = some v
  /-- No field may be missing, but for the items of a list. -/
  missing_member {ms : Members} {field : Field} (hfield : field ∈ shape)
    (hkind : field.kind ≠ .items) (hms : field.name ∉ Members.names ms) :
    ofJson? (.object ms) = none
  missing_item {items : List Json} {i : Nat} {field : Field} (hfield : shape[i]? = some field)
    (hkind : field.kind ≠ .items) (hitems : items.length ≤ i) : ofJson? (.array items) = none
  /-- No field may hold what is not decoded as that field. -/
  bad_member {ms : Members} {field : Field} {value : Json} (hfield : field ∈ shape)
    (hms : (field.name, value) ∈ ms) (hvalue : field.kind.normal? (some value) = none) :
    ofJson? (.object ms) = none
  bad_item {items : List Json} {i : Nat} {field : Field} {value : Json}
    (hfield : shape[i]? = some field) (hitems : items[i]? = some value)
    (hvalue : field.kind.normal? (some value) = none) : ofJson? (.array items) = none

theorem Kind.normal?_none {kind : Kind} (h : kind ≠ .items) : kind.normal? none = none := by
  cases kind with
  | string | flag | owner | action | payload => rfl
  | items => exact absurd rfl h

namespace IsRecord

variable {α : Type} {toJson : α → Json} {ofJson? : Json → Option α} {fields : α → List Json}
  {v : α} {items : List Json} {ms : Members} {field : Field} {i : Nat}

theorem length_items (h : normals? shape (items.map some) = some values) :
    items.length = (names shape).length := by
  rw [names, List.length_map, ← length_of_normals? h, List.length_map]

theorem names_zip (h : normals? shape (items.map some) = some values) :
    Members.names ((names shape).zip items) = names shape :=
  List.map_fst_zip (Nat.le_of_eq (length_items h).symm)

/-- Members that hold the `fields` of a value, and others, are decoded to the value. -/
theorem of_members (h : IsRecord toJson ofJson? shape fields)
    (hitems : normals? shape (items.map some) = some (fields v))
    (hms : ∀ p ∈ (names shape).zip items, Members.single? ms p.1 = some (some p.2)) :
    ofJson? (.object ms) = some v :=
  h.ofJson?_eq_some_iff.mpr ⟨_, fields?_object (length_items hitems) hms, hitems⟩

theorem of_array (h : IsRecord toJson ofJson? shape fields)
    (hitems : normals? shape (items.map some) = some (fields v)) :
    ofJson? (.array items) = some v :=
  h.ofJson?_eq_some_iff.mpr ⟨_, fields?_array (length_items hitems), hitems⟩

theorem of_object (h : IsRecord toJson ofJson? shape fields) {extra : Members}
    (hitems : normals? shape (items.map some) = some (fields v))
    (hextra : ∀ m ∈ extra, m.1 ∉ names shape)
    (hms : ms.Perm ((names shape).zip items ++ extra)) : ofJson? (.object ms) = some v := by
  have hnames := names_zip hitems
  refine h.of_members hitems fun p hp => ?_
  -- What is added has another name than the fields.
  have hother : p.1 ∉ Members.names extra := by
    intro hmem
    obtain ⟨m, hm, heq⟩ := List.mem_map.mp hmem
    refine hextra m hm ?_
    rw [heq, ← hnames]
    exact List.mem_map_of_mem hp
  rw [Members.single?_perm hms, Members.single?_append_of_not_mem hother]
  exact Members.single?_of_nodup (hnames.symm ▸ h.distinct) hp

theorem decoded (h : IsRecord toJson ofJson? shape fields) (v : α) :
    ofJson? (toJson v) = some v := by
  have hnames := names_zip (h.normal v)
  rw [h.toJson_eq]
  exact h.of_members (h.normal v) fun p hp => single?_mkObject (hnames.symm ▸ h.distinct) hp

/-- Every field of the shape is there and decoded in an object that `ofJson?` accepts. -/
theorem exists_of_object (h : IsRecord toJson ofJson? shape fields)
    (hv : ofJson? (.object ms) = some v) (hfield : field ∈ shape) :
    ∃ part, Members.single? ms field.name = some part ∧ field.kind.normal? part ≠ none := by
  obtain ⟨parts, hparts, hnormal⟩ := h.ofJson?_eq_some_iff.mp hv
  obtain ⟨i, hi⟩ := List.mem_iff_getElem?.mp hfield
  have hname : (names shape)[i]? = some field.name := by
    rw [names, List.getElem?_map, hi]
    rfl
  obtain ⟨part, hpart, hsingle⟩ := exists_of_mapM hparts hname
  obtain ⟨part', hpart', hdecoded⟩ := exists_of_normals? hnormal hi
  obtain rfl : part = part' := Option.some.inj (hpart.symm.trans hpart')
  exact ⟨part, hsingle, hdecoded⟩

theorem normal?_of_array (h : IsRecord toJson ofJson? shape fields)
    (hv : ofJson? (.array items) = some v) (hfield : shape[i]? = some field) :
    field.kind.normal? items[i]? ≠ none := by
  obtain ⟨parts, hparts, hnormal⟩ := h.ofJson?_eq_some_iff.mp hv
  obtain ⟨part, hpart, hdecoded⟩ := exists_of_normals? hnormal hfield
  rw [fields?] at hparts
  split at hparts
  case isFalse => cases hparts
  case isTrue =>
    obtain rfl := Option.some.inj hparts
    -- The part is an item, or it fills up an array that stops early.
    rcases Nat.lt_or_ge i items.length with hlt | hge
    · rw [List.getElem?_append_left (by simpa using hlt), List.getElem?_map,
        List.getElem?_eq_getElem hlt] at hpart
      obtain rfl := Option.some.inj hpart
      rwa [List.getElem?_eq_getElem hlt]
    · rw [List.getElem?_append_right (by simpa using hge)] at hpart
      have hnone := List.eq_of_mem_replicate (List.mem_of_getElem? hpart)
      rw [hnone] at hdecoded
      rwa [List.getElem?_eq_none hge]

theorem object_eq_none (h : IsRecord toJson ofJson? shape fields) (hfield : field ∈ shape)
    (hbad : ∀ part, Members.single? ms field.name = some part → field.kind.normal? part = none) :
    ofJson? (.object ms) = none := by
  rw [Option.eq_none_iff_forall_ne_some]
  intro v hv
  obtain ⟨part, hpart, hdecoded⟩ := h.exists_of_object hv hfield
  exact hdecoded (hbad part hpart)

theorem array_eq_none (h : IsRecord toJson ofJson? shape fields) (hfield : shape[i]? = some field)
    (hbad : field.kind.normal? items[i]? = none) : ofJson? (.array items) = none := by
  rw [Option.eq_none_iff_forall_ne_some]
  exact fun v hv => h.normal?_of_array hv hfield hbad

/-- An encoder and a decoder that go by a shape (`IsRecord`) obey the `RecordLaws`. -/
theorem laws (h : IsRecord toJson ofJson? shape fields) :
    RecordLaws toJson ofJson? shape fields where
  encoded := h.toJson_eq
  normal := h.normal
  decoded := h.decoded
  of_object := h.of_object
  of_array := h.of_array
  decoded_again _ := h.decoded _
  missing_member hfield hkind hms := h.object_eq_none hfield fun part hpart => by
    rw [Members.single?_of_not_mem hms] at hpart
    rw [← Option.some.inj hpart, Kind.normal?_none hkind]
  missing_item hfield hkind hitems := h.array_eq_none hfield <| by
    rw [List.getElem?_eq_none hitems, Kind.normal?_none hkind]
  bad_member hfield hms hvalue := h.object_eq_none hfield fun part hpart => by
    rw [Members.single?_of_mem hms hpart, hvalue]
  bad_item hfield hitems hvalue := h.array_eq_none hfield <| by
    rw [hitems, hvalue]

end IsRecord

/-! ## What each kind of field is decoded to -/

variable {part : Option Json}

@[simp] theorem normals?_nil_eq_some_iff : normals? [] parts = some [] ↔ parts = [] := by
  cases parts <;> simp [normals?]

@[simp] theorem normals?_cons_eq_some_cons_iff {field : Field} {value : Json} :
    normals? (field :: shape) (part :: parts) = some (value :: values) ↔
      field.kind.normal? part = some value ∧ normals? shape parts = some values := by
  simp [normals?_cons_eq_some_iff]

@[simp] theorem string?_string (s : String) : string? (some (.string s)) = some s := rfl

@[simp] theorem bool?_bool (b : Bool) : bool? (some (.bool b)) = some b := rfl

@[simp] theorem required?_some {α : Type} (decode : Json → Option α) (v : Json) :
    required? decode (some v) = decode v := rfl

namespace Kind

@[simp] theorem normal?_string_eq_some_iff {s : String} :
    Kind.string.normal? part = some (.string s) ↔ string? part = some s := by
  simp [normal?]

@[simp] theorem normal?_flag_eq_some_iff {b : Bool} :
    Kind.flag.normal? part = some (.bool b) ↔ bool? part = some b := by
  simp [normal?]

@[simp] theorem normal?_payload : Kind.payload.normal? part = part := rfl

end Kind
end Wire

open Wire

/-! ## Schemas, owners and actions -/

namespace Schema

/-- The fields of a schema. -/
def shape : List Field := [⟨"group", .string⟩, ⟨"version", .string⟩, ⟨"resource", .string⟩]

/-- The encoded fields. -/
def fields (s : Schema) : List Json := [.string s.group, .string s.version, .string s.resource]

theorem isRecord : IsRecord toJson ofJson? shape fields where
  distinct := by decide
  toJson_eq _ := rfl
  normal s := by simp [shape, fields]
  ofJson?_eq_some_iff {j s} := by
    unfold ofJson?
    cases hj : fields? ["group", "version", "resource"] j with
    | none => simp [names, shape, hj]
    | some parts =>
      match parts, length_of_fields? hj with
      | [group, version, resource], _ =>
        -- Both sides ask of every part what it is decoded to.
        cases s
        simp [names, shape, fields, hj, Option.bind_eq_some_iff]

end Schema

namespace Owner

/-- The fields of an owner. -/
def shape : List Field := [⟨"scope", .string⟩, ⟨"subject", .string⟩]

/-- The encoded fields. -/
def fields (o : Owner) : List Json := [.string o.scope, .string o.subject]

theorem isRecord : IsRecord toJson ofJson? shape fields where
  distinct := by decide
  toJson_eq _ := rfl
  normal o := by simp [shape, fields]
  ofJson?_eq_some_iff {j o} := by
    unfold ofJson?
    cases hj : fields? ["scope", "subject"] j with
    | none => simp [names, shape, hj]
    | some parts =>
      match parts, length_of_fields? hj with
      | [scope, subject], _ =>
        cases o
        simp [names, shape, fields, hj, Option.bind_eq_some_iff]

@[simp] theorem ofJson?_toJson (o : Owner) : ofJson? o.toJson = some o := isRecord.decoded o

end Owner

namespace Action

@[simp] theorem ofJson?_toJson (a : Action) : ofJson? a.toJson = some a := by
  cases a <;> rfl

theorem ofName?_eq_some_iff {name : String} {a : Action} :
    ofName? name = some a ↔ name = a.name := by
  constructor
  · intro h
    have hname := List.find?_some h
    exact (of_decide_eq_true hname).symm
  · rintro rfl
    exact ofJson?_toJson a

/-- What `ofJson?` decodes to an action is its `name`, or an object with its `name` and null. -/
theorem ofJson?_eq_some_iff {j : Json} {a : Action} :
    ofJson? j = some a ↔ j = .string a.name ∨ j = .object [(a.name, .null)] := by
  unfold ofJson?
  split
  case h_1 name => simp [ofName?_eq_some_iff]
  case h_2 name => simp [ofName?_eq_some_iff]
  case h_3 hstring hobject =>
    constructor
    · nofun
    · rintro (rfl | rfl)
      · exact absurd rfl (hstring _)
      · exact absurd rfl (hobject _)

theorem ofJson?_string_eq_none {name : String} (h : ∀ a : Action, a.name ≠ name) :
    ofJson? (.string name) = none := by
  rw [Option.eq_none_iff_forall_ne_some]
  exact fun a ha => h a (ofName?_eq_some_iff.mp ha).symm

end Action

/-- What `ofJson?` gives back was encoded from one value only. -/
theorem Wire.toJson_injective {α : Type} {toJson : α → Json} {ofJson? : Json → Option α}
    (h : ∀ v, ofJson? (toJson v) = some v) : Function.Injective toJson := by
  intro v w heq
  rw [← Option.some_inj, ← h v, heq, h w]

@[simp] theorem Wire.Kind.normal?_owner_eq_some_iff {part : Option Json} {o : Owner} :
    Kind.owner.normal? part = some o.toJson ↔ required? Owner.ofJson? part = some o := by
  simp [normal?, Option.map_eq_some_iff, (toJson_injective Owner.ofJson?_toJson).eq_iff]

@[simp] theorem Wire.Kind.normal?_action_eq_some_iff {part : Option Json} {a : Action} :
    Kind.action.normal? part = some a.toJson ↔ required? Action.ofJson? part = some a := by
  simp [normal?, Option.map_eq_some_iff, (toJson_injective Action.ofJson?_toJson).eq_iff]

/-! ## Records -/

namespace Record

/-- The fields of a record. -/
def shape : List Field :=
  [⟨"identifier", .string⟩, ⟨"apiVersion", .string⟩, ⟨"kind", .string⟩, ⟨"contentHash", .string⟩,
    ⟨"owner", .owner⟩, ⟨"payload", .payload⟩]

/-- The encoded fields. -/
def fields (r : Record) : List Json :=
  [.string r.identifier, .string r.apiVersion, .string r.kind, .string r.contentHash,
    r.owner.toJson, r.payload]

theorem isRecord : IsRecord toJson ofJson? shape fields where
  distinct := by decide
  toJson_eq _ := rfl
  normal r := by simp [shape, fields]
  ofJson?_eq_some_iff {j r} := by
    unfold ofJson?
    cases hj : fields? ["identifier", "apiVersion", "kind", "contentHash", "owner",
      "payload"] j with
    | none => simp [names, shape, hj]
    | some parts =>
      match parts, length_of_fields? hj with
      | [identifier, apiVersion, kind, contentHash, owner, payload], _ =>
        cases r
        simp [names, shape, fields, hj, Option.bind_eq_some_iff]

end Record

namespace HashListEntry

/-- The fields of a row of a cache. -/
def shape : List Field := [⟨"identifier", .string⟩, ⟨"hash", .string⟩, ⟨"active", .flag⟩]

/-- The encoded fields. -/
def fields (e : HashListEntry) : List Json := [.string e.identifier, .string e.hash, .bool e.active]

theorem isRecord : IsRecord toJson ofJson? shape fields where
  distinct := by decide
  toJson_eq _ := rfl
  normal e := by simp [shape, fields]
  ofJson?_eq_some_iff {j e} := by
    unfold ofJson?
    cases hj : fields? ["identifier", "hash", "active"] j with
    | none => simp [names, shape, hj]
    | some parts =>
      match parts, length_of_fields? hj with
      | [identifier, hash, active], _ =>
        obtain ⟨_, _, flag⟩ := e
        cases flag <;> simp [names, shape, fields, hj, Option.bind_eq_some_iff]

end HashListEntry

/-! ## Inventory requests and answers -/

namespace ResourceUpdate

/-- The fields of the body of a request. -/
def shape : List Field :=
  [⟨"owner", .owner⟩, ⟨"apiVersion", .string⟩, ⟨"kind", .string⟩, ⟨"uid", .string⟩,
    ⟨"action", .action⟩, ⟨"hash", .string⟩, ⟨"resource", .payload⟩]

/-- The encoded fields. -/
def fields (u : ResourceUpdate) : List Json :=
  [u.owner.toJson, .string u.apiVersion, .string u.kind, .string u.uid, u.action.toJson,
    .string u.hash, u.resource]

theorem isRecord : IsRecord toJson ofJson? shape fields where
  distinct := by decide
  toJson_eq _ := rfl
  normal u := by simp [shape, fields]
  ofJson?_eq_some_iff {j u} := by
    unfold ofJson?
    cases hj : fields? ["owner", "apiVersion", "kind", "uid", "action", "hash", "resource"] j with
    | none => simp [names, shape, hj]
    | some parts =>
      match parts, length_of_fields? hj with
      | [owner, apiVersion, kind, uid, action, hash, resource], _ =>
        cases u
        simp [names, shape, fields, hj, Option.bind_eq_some_iff]

end ResourceUpdate

namespace HashItem

/-- The fields of an item of a list. -/
def shape : List Field := [⟨"uid", .string⟩, ⟨"hash", .string⟩]

/-- The encoded fields. -/
def fields (i : HashItem) : List Json := [.string i.uid, .string i.hash]

theorem isRecord : IsRecord toJson ofJson? shape fields where
  distinct := by decide
  toJson_eq _ := rfl
  normal i := by simp [shape, fields]
  ofJson?_eq_some_iff {j i} := by
    unfold ofJson?
    cases hj : fields? ["uid", "hash"] j with
    | none => simp [names, shape, hj]
    | some parts =>
      match parts, length_of_fields? hj with
      | [uid, hash], _ =>
        cases i
        simp [names, shape, fields, hj, Option.bind_eq_some_iff]

theorem list?_map_toJson (items : List HashItem) :
    list? ofJson? (.array (items.map toJson)) = some items := by
  rw [list?]
  induction items with
  | nil => rfl
  | cons item items ih => rw [List.map_cons, List.mapM_cons, isRecord.decoded, ih]; rfl

/-- One item that is not decoded keeps `list?` from decoding the list. -/
theorem list?_eq_none {items : List Json} {item : Json} (hitem : item ∈ items)
    (h : ofJson? item = none) : list? ofJson? (.array items) = none := by
  rw [list?]
  induction items with
  | nil => cases hitem
  | cons first items ih =>
    rw [List.mapM_cons]
    rcases List.mem_cons.mp hitem with rfl | hitem
    · rw [h]
      rfl
    · rw [ih hitem]
      cases ofJson? first <;> rfl

end HashItem

namespace HashList

/-- The fields of a list. -/
def shape : List Field := [⟨"items", .items⟩]

/-- The encoded fields. -/
def fields (l : HashList) : List Json := [.array (l.items.map HashItem.toJson)]

theorem isRecord : IsRecord toJson ofJson? shape fields where
  distinct := by decide
  toJson_eq _ := rfl
  normal l := by simp [shape, fields, Kind.normal?, HashItem.list?_map_toJson]
  ofJson?_eq_some_iff {j l} := by
    have hinj : Function.Injective (List.map HashItem.toJson) :=
      (toJson_injective HashItem.isRecord.decoded).list_map
    unfold ofJson?
    cases hj : fields? ["items"] j with
    | none => simp [names, shape, hj]
    | some parts =>
      obtain ⟨items⟩ := l
      -- Items that are missing are none, and so are those that are there and empty.
      match parts, length_of_fields? hj with
      | [none], _ =>
        cases items <;> simp [names, shape, fields, hj, Kind.normal?]
      | [some part], _ =>
        simp [names, shape, fields, hj, Kind.normal?, hinj.eq_iff]

/-- Without `items` the list is decoded and empty. -/
theorem ofJson?_of_not_mem {ms : Members} (h : "items" ∉ Members.names ms) :
    ofJson? (.object ms) = some ⟨[]⟩ := by
  have hfields : fields? ["items"] (.object ms) = some [none] := by
    rw [fields?, List.mapM_cons, Members.single?_of_not_mem h]
    rfl
  rw [ofJson?, hfields]

end HashList

namespace Wire

/-- Every value that `toJson` encodes is decoded by `ofJson?` to itself, whatever else there is in
the object and also from the array of its fields; what is missing or of another kind is rejected,
but for the items of a list. For all records these are the `RecordLaws`. -/
theorem forms_round_trip :
    RecordLaws Schema.toJson Schema.ofJson? Schema.shape Schema.fields ∧
    RecordLaws Owner.toJson Owner.ofJson? Owner.shape Owner.fields ∧
    RecordLaws Record.toJson Record.ofJson? Record.shape Record.fields ∧
    RecordLaws HashListEntry.toJson HashListEntry.ofJson? HashListEntry.shape
      HashListEntry.fields ∧
    RecordLaws ResourceUpdate.toJson ResourceUpdate.ofJson? ResourceUpdate.shape
      ResourceUpdate.fields ∧
    RecordLaws HashItem.toJson HashItem.ofJson? HashItem.shape HashItem.fields ∧
    RecordLaws HashList.toJson HashList.ofJson? HashList.shape HashList.fields ∧
    ((∀ a : Action, Action.ofJson? a.toJson = some a) ∧
      (∀ (j : Json) (a : Action), Action.ofJson? j = some a ↔
        j = .string a.name ∨ j = .object [(a.name, .null)]) ∧
      ∀ name : String, (∀ a : Action, a.name ≠ name) → Action.ofJson? (.string name) = none) ∧
    ((∀ ms : Members, "items" ∉ Members.names ms → HashList.ofJson? (.object ms) = some ⟨[]⟩) ∧
      HashList.ofJson? (.array []) = some ⟨[]⟩) ∧
    (∀ v : Json, (∀ s, v ≠ .string s) → Kind.string.normal? (some v) = none) ∧
    (∀ v : Json, Owner.ofJson? v = none → Kind.owner.normal? (some v) = none) ∧
    (∀ v : Json, Action.ofJson? v = none → Kind.action.normal? (some v) = none) ∧
    (∀ (items : List Json) (v : Json), v ∈ items → HashItem.ofJson? v = none →
      Kind.items.normal? (some (.array items)) = none) := by
  refine ⟨Schema.isRecord.laws, Owner.isRecord.laws, Record.isRecord.laws,
    HashListEntry.isRecord.laws, ResourceUpdate.isRecord.laws, HashItem.isRecord.laws,
    HashList.isRecord.laws,
    ⟨Action.ofJson?_toJson, fun _ _ => Action.ofJson?_eq_some_iff,
      fun _ => Action.ofJson?_string_eq_none⟩,
    ⟨fun _ => HashList.ofJson?_of_not_mem, rfl⟩,
    fun v hv => ?_, fun v hv => ?_, fun v hv => ?_, fun items v hmem hv => ?_⟩
  · cases v with
    | string s => exact absurd rfl (hv s)
    | null | bool | number | array | object => rfl
  · simp [Kind.normal?, hv]
  · simp [Kind.normal?, hv]
  · rw [Kind.normal?, HashItem.list?_eq_none hmem hv]
    rfl

/-- A body in an array whose owner is an object with a member more, and one with a null in place of
a text. -/
theorem forms_round_trip_nested :
    let owner : Json := .object [("subject", .string "c-1"), ("note", .null),
      ("scope", .string "cluster")]
    let u : ResourceUpdate := ⟨.cluster "c-1", "v1", "Pod", "u", .update, "h", .null⟩
    ResourceUpdate.ofJson? (.array [owner, .string "v1", .string "Pod", .string "u",
      .string "update", .string "h", .null]) = some u ∧
    ResourceUpdate.ofJson? (.array [owner, .null, .string "Pod", .string "u",
      .string "update", .string "h", .null]) = none := by
  obtain ⟨-, -, -, -, hlaws, -, -, -, -, hstring, -⟩ := forms_round_trip
  have hfield : ResourceUpdate.shape[1]? = some ⟨"apiVersion", .string⟩ := rfl
  exact ⟨hlaws.of_array (by decide +kernel), hlaws.bad_item hfield rfl (hstring .null nofun)⟩

end Wire
end InventorySync
