import InventorySync.Json.Reader
import Mathlib.Data.List.Basic
import Mathlib.Data.List.Nodup

/-!
# Values that differ in the order of members alone

Members in the order of their names are determined by what they answer to look-ups, and so is the
canonical form of members with distinct names. Two values are the same when arrays agree item by
item and objects agree look-up by look-up, in whatever order the members were written; this is
equality of canonical forms.

## Key results

- `Members.ext_of_sorted`: members in order with the same look-ups are equal
- `Members.single?_perm`: whether a member occurs once does not depend on the order
- `Json.get?_canonicalMembers`: a look-up in canonical members
- `Json.same_iff`: the same values are those with equal canonical forms
- `Json.canonical_of_read`: documents are read in canonical form
- `Json.Canonical.distinct`, `Json.Canonical.canonical_eq`: so their names are distinct, and they
  are their own canonical forms
-/

namespace InventorySync.Members

/-- The names, in the order in which they stand. -/
def names (ms : Members) : List String := ms.map Prod.fst

@[simp] theorem names_nil : names [] = [] := rfl

@[simp] theorem names_cons (k : String) (v : Json) (ms : Members) :
    names ((k, v) :: ms) = k :: names ms := rfl

/-- Each name comes before those that follow. -/
def Sorted (ms : Members) : Prop := ms.Pairwise fun a b => a.1 < b.1

/-! ## Look-ups -/

@[simp] theorem get?_nil (key : String) : get? [] key = none := rfl

theorem get?_cons (k : String) (v : Json) (ms : Members) (key : String) :
    get? ((k, v) :: ms) key = if key = k then some v else get? ms key := by
  simp only [get?, List.lookup_cons]
  by_cases h : key = k
  · simp [h]
  · simp [h, beq_false_of_ne h]

theorem get?_append (ms ns : Members) (key : String) :
    get? (ms ++ ns) key = (get? ms key).or (get? ns key) := List.lookup_append

theorem get?_eq_none_iff {ms : Members} {key : String} : get? ms key = none ↔ key ∉ names ms := by
  induction ms with
  | nil => simp
  | cons m ms ih =>
    obtain ⟨k, v⟩ := m
    rw [get?_cons, names_cons, List.mem_cons, not_or]
    split
    · simp_all
    · simp_all

theorem mem_of_get? {ms : Members} {key : String} {v : Json} (h : get? ms key = some v) :
    (key, v) ∈ ms := by
  induction ms with
  | nil => cases h
  | cons m ms ih =>
    obtain ⟨k, w⟩ := m
    rw [get?_cons] at h
    split at h
    next heq =>
      rw [heq, Option.some.inj h]
      exact .head _
    next => exact .tail _ (ih h)

theorem get?_of_mem {ms : Members} (hnames : (names ms).Nodup) {key : String} {v : Json}
    (h : (key, v) ∈ ms) : get? ms key = some v := by
  induction ms with
  | nil => cases h
  | cons m ms ih =>
    obtain ⟨k, w⟩ := m
    obtain ⟨hfresh, hrest⟩ := List.nodup_cons.mp hnames
    rw [get?_cons]
    rcases List.mem_cons.mp h with heq | hmem
    · obtain ⟨rfl, rfl⟩ := Prod.mk.inj heq
      rw [if_pos rfl]
    · have hne : key ≠ k := by
        rintro rfl
        exact hfresh (List.mem_map.mpr ⟨(key, v), hmem, rfl⟩)
      rw [if_neg hne]
      exact ih hrest hmem

@[simp] theorem get?_insert (name : String) (value : Json) (ms : Members) (key : String) :
    get? (insert name value ms) key = if key = name then some value else get? ms key := by
  induction ms with
  | nil => exact get?_cons name value [] key
  | cons m ms ih =>
    obtain ⟨k, v⟩ := m
    unfold insert
    split
    next hsame =>
      subst hsame
      simp only [get?_cons]
      split <;> rfl
    next hne =>
      split
      · rw [get?_cons]
      · rw [get?_cons, get?_cons, ih]
        by_cases hk : key = k
        · rw [if_pos hk, if_pos hk, if_neg (hk ▸ fun h => hne h.symm)]
        · rw [if_neg hk, if_neg hk]

@[simp] theorem get?_erase (ms : Members) (name key : String) :
    get? (erase ms name) key = if key = name then none else get? ms key := by
  induction ms with
  | nil => simp [erase]
  | cons m ms ih =>
    obtain ⟨k, v⟩ := m
    unfold erase at ih ⊢
    rw [List.filter_cons, get?_cons]
    by_cases hk : k = name
    · subst hk
      rw [if_neg (by simp), ih]
      split <;> rfl
    · rw [if_pos (by simpa using hk), get?_cons, ih]
      by_cases hkey : key = k
      · rw [if_pos hkey, if_pos hkey, if_neg (hkey ▸ hk)]
      · rw [if_neg hkey, if_neg hkey]

theorem get?_foldl_insert {pairs : Members} (hnames : (names pairs).Nodup) (ms : Members)
    (key : String) :
    get? (pairs.foldl (fun ms p => insert p.1 p.2 ms) ms) key =
      (get? pairs key).or (get? ms key) := by
  induction pairs generalizing ms with
  | nil => rfl
  | cons p pairs ih =>
    obtain ⟨k, v⟩ := p
    obtain ⟨hfresh, hrest⟩ := List.nodup_cons.mp hnames
    rw [List.foldl_cons, ih hrest, get?_insert, get?_cons]
    -- A name that is put in now is not put in again.
    by_cases hkey : key = k
    · have hnone : get? pairs key = none := by
        rw [get?_eq_none_iff, hkey]
        exact hfresh
      rw [hnone, if_pos hkey, if_pos hkey]
      rfl
    · rw [if_neg hkey, if_neg hkey]

/-- `get?` finds members of distinct names where `ofList` puts them. -/
theorem get?_ofList {pairs : Members} (hnames : (names pairs).Nodup) (key : String) :
    get? (ofList pairs) key = get? pairs key := by
  rw [ofList, get?_foldl_insert hnames, get?_nil, Option.or_none]

/-! ## Order -/

theorem mem_insert_names {name key : String} {value : Json} {ms : Members}
    (h : key ∈ names (insert name value ms)) : key = name ∨ key ∈ names ms := by
  by_contra hnone
  obtain ⟨hne, hmem⟩ := not_or.mp hnone
  refine get?_eq_none_iff.mp ?_ h
  rw [get?_insert, if_neg hne, get?_eq_none_iff]
  exact hmem

theorem sorted_cons {k : String} {v : Json} {ms : Members} :
    Sorted ((k, v) :: ms) ↔ (∀ key ∈ names ms, k < key) ∧ Sorted ms := by
  simp [Sorted, names, List.pairwise_cons]

theorem sorted_insert (name : String) (value : Json) {ms : Members} (h : Sorted ms) :
    Sorted (insert name value ms) := by
  induction ms with
  | nil => exact List.pairwise_singleton _ _
  | cons m ms ih =>
    obtain ⟨k, v⟩ := m
    obtain ⟨hfirst, hrest⟩ := sorted_cons.mp h
    unfold insert
    split
    next hsame =>
      subst hsame
      exact sorted_cons.mpr ⟨hfirst, hrest⟩
    next hne =>
      split
      next hlt =>
        refine sorted_cons.mpr ⟨fun key hkey => ?_, h⟩
        rcases List.mem_cons.mp hkey with rfl | hmem
        · exact hlt
        · exact String.lt_trans hlt (hfirst key hmem)
      -- The name comes behind `k`, which stays the first of the names.
      next hge =>
        have hlt : k < name := by
          by_contra hnot
          exact hne (String.le_antisymm (String.not_lt.mp hnot) (String.not_lt.mp hge))
        refine sorted_cons.mpr ⟨fun key hkey => ?_, ih hrest⟩
        rcases mem_insert_names hkey with rfl | hmem
        · exact hlt
        · exact hfirst key hmem

theorem sorted_erase {ms : Members} (h : Sorted ms) (name : String) : Sorted (erase ms name) :=
  List.Pairwise.filter _ h

theorem sorted_ofList (pairs : Members) : Sorted (ofList pairs) := by
  have hfold : ∀ ms : Members, Sorted ms →
      Sorted (pairs.foldl (fun ms p => insert p.1 p.2 ms) ms) := by
    induction pairs with
    | nil => exact fun _ h => h
    | cons p pairs ih => exact fun ms h => ih _ (sorted_insert p.1 p.2 h)
  exact hfold [] .nil

theorem nodup_names_of_sorted {ms : Members} (h : Sorted ms) : (names ms).Nodup := by
  rw [names, List.Nodup, List.pairwise_map]
  refine h.imp ?_
  intro m n hlt heq
  rw [heq] at hlt
  exact String.lt_irrefl _ hlt

/-- Members that are `Sorted` are determined by `get?`. -/
theorem ext_of_sorted {ms ns : Members} (hms : Sorted ms) (hns : Sorted ns)
    (h : ∀ key, get? ms key = get? ns key) : ms = ns := by
  induction ms generalizing ns with
  | nil =>
    cases ns with
    | nil => rfl
    | cons n ns =>
      have hhead := h n.1
      rw [get?_cons n.1 n.2, if_pos rfl] at hhead
      cases hhead
  | cons m ms ih =>
    obtain ⟨k, v⟩ := m
    obtain ⟨hfirst, hrest⟩ := sorted_cons.mp hms
    cases ns with
    | nil =>
      have hhead := h k
      rw [get?_cons, if_pos rfl] at hhead
      cases hhead
    | cons n ns =>
      obtain ⟨l, w⟩ := n
      obtain ⟨hfirst', hrest'⟩ := sorted_cons.mp hns
      -- Each first name is found on the other side, where it cannot stand behind the first one.
      have hkl : k = l := by
        by_contra hne
        have hk : k ∈ names ns := by
          have hfound := h k
          rw [get?_cons, if_pos rfl, get?_cons, if_neg hne] at hfound
          by_contra hmem
          rw [get?_eq_none_iff.mpr hmem] at hfound
          cases hfound
        have hl : l ∈ names ms := by
          have hfound := h l
          rw [get?_cons, if_neg fun h => hne h.symm, get?_cons, if_pos rfl] at hfound
          by_contra hmem
          rw [get?_eq_none_iff.mpr hmem] at hfound
          cases hfound
        exact String.lt_asymm (hfirst l hl) (hfirst' k hk)
      -- So the first names agree, and with them the first values.
      subst hkl
      have hvalue := h k
      rw [get?_cons, if_pos rfl, get?_cons, if_pos rfl] at hvalue
      -- Behind them the look-ups agree as well: the first name stands nowhere else.
      have hbehind : ∀ key, get? ms key = get? ns key := by
        intro key
        by_cases hkey : key = k
        · subst hkey
          have hms' : key ∉ names ms := fun hmem => String.lt_irrefl key (hfirst key hmem)
          have hns' : key ∉ names ns := fun hmem => String.lt_irrefl key (hfirst' key hmem)
          rw [get?_eq_none_iff.mpr hms', get?_eq_none_iff.mpr hns']
        · have hboth := h key
          rw [get?_cons, get?_cons, if_neg hkey, if_neg hkey] at hboth
          exact hboth
      rw [Option.some.inj hvalue, ih hrest hrest' hbehind]

/-! ## Members that occur once -/

theorem filter_of_not_mem {ms : Members} {name : String} (h : name ∉ names ms) :
    (ms.filter fun m => m.1 = name) = [] := by
  rw [List.filter_eq_nil_iff]
  intro m hm hname
  exact h (List.mem_map.mpr ⟨m, hm, of_decide_eq_true hname⟩)

theorem single?_of_not_mem {ms : Members} {name : String} (h : name ∉ names ms) :
    single? ms name = some none := by
  rw [single?, filter_of_not_mem h]

/-- What `single?` finds under a name is the member that is there. -/
theorem single?_of_mem {ms : Members} {name : String} {value : Json} {found : Option Json}
    (hmem : (name, value) ∈ ms) (h : single? ms name = some found) : found = some value := by
  have hfound : (name, value) ∈ ms.filter fun m => m.1 = name :=
    List.mem_filter.mpr ⟨hmem, decide_eq_true rfl⟩
  unfold single? at h
  split at h
  case h_1 heq =>
    rw [heq] at hfound
    cases hfound
  case h_2 m heq =>
    rw [heq, List.mem_singleton] at hfound
    rw [← Option.some.inj h, ← hfound]
  case h_3 => cases h

theorem single?_of_nodup {ms : Members} (hnames : (names ms).Nodup) {name : String} {value : Json}
    (h : (name, value) ∈ ms) : single? ms name = some (some value) := by
  induction ms with
  | nil => cases h
  | cons m ms ih =>
    obtain ⟨k, v⟩ := m
    obtain ⟨hfresh, hrest⟩ := List.nodup_cons.mp hnames
    unfold single?
    rcases List.mem_cons.mp h with heq | hmem
    · obtain ⟨rfl, rfl⟩ := Prod.mk.inj heq
      rw [List.filter_cons_of_pos (by simp), filter_of_not_mem hfresh]
    · have hne : ¬ k = name := by
        rintro rfl
        exact hfresh (List.mem_map.mpr ⟨(k, value), hmem, rfl⟩)
      rw [List.filter_cons_of_neg (by simpa using hne)]
      exact ih hrest hmem

/-- `single?` does not depend on the order of the members. -/
theorem single?_perm {ms ns : Members} (h : ms.Perm ns) (name : String) :
    single? ms name = single? ns name := by
  have hfilter := h.filter fun m => decide (m.1 = name)
  unfold single?
  generalize ms.filter (fun m => decide (m.1 = name)) = xs at hfilter ⊢
  generalize ns.filter (fun m => decide (m.1 = name)) = ys at hfilter ⊢
  match xs, ys, hfilter.length_eq with
  | [], [], _ => rfl
  | [m], [n], _ =>
    rw [List.perm_singleton, List.singleton_inj] at hfilter
    rw [hfilter]
  | _ :: _ :: _, _ :: _ :: _, _ => rfl

theorem single?_append_of_not_mem {extra : Members} {name : String} (h : name ∉ names extra)
    (ms : Members) : single? (ms ++ extra) name = single? ms name := by
  rw [single?, List.filter_append, filter_of_not_mem h, List.append_nil]
  rfl

end InventorySync.Members

namespace InventorySync.Json

/-! ## Distinct names -/

mutual

/-- At every depth the members of an object have distinct names. -/
def Distinct : Json → Prop
  | .array items => DistinctItems items
  | .object ms => (Members.names ms).Nodup ∧ DistinctMembers ms
  | _ => True

/-- Every item has distinct names throughout. -/
def DistinctItems : List Json → Prop
  | [] => True
  | v :: rest => Distinct v ∧ DistinctItems rest

/-- Every member's value has distinct names throughout. -/
def DistinctMembers : List (String × Json) → Prop
  | [] => True
  | (_, v) :: rest => Distinct v ∧ DistinctMembers rest

end

theorem distinctMembers_iff {ms : Members} : DistinctMembers ms ↔ ∀ m ∈ ms, Distinct m.2 := by
  induction ms with
  | nil => simp [DistinctMembers]
  | cons m ms ih =>
    obtain ⟨k, v⟩ := m
    simp [DistinctMembers, ih]

/-! ## Canonical members -/

theorem names_canonicalMembers (ms : Members) :
    Members.names (canonicalMembers ms) = Members.names ms := by
  induction ms with
  | nil => rfl
  | cons m ms ih =>
    obtain ⟨k, v⟩ := m
    simp [canonicalMembers, ih]

theorem get?_map_canonical (ms : Members) (key : String) :
    Members.get? (canonicalMembers ms) key = (Members.get? ms key).map canonical := by
  induction ms with
  | nil => rfl
  | cons m ms ih =>
    obtain ⟨k, v⟩ := m
    rw [canonicalMembers, Members.get?_cons, Members.get?_cons, ih]
    split <;> rfl

/-- The members of an object's canonical form. -/
def ordered (ms : Members) : Members := Members.ofList (canonicalMembers ms)

theorem canonical_object (ms : Members) : canonical (.object ms) = .object (ordered ms) := rfl

theorem sorted_ordered (ms : Members) : Members.Sorted (ordered ms) := Members.sorted_ofList _

theorem get?_ordered {ms : Members} (hnames : (Members.names ms).Nodup) (key : String) :
    Members.get? (ordered ms) key = (Members.get? ms key).map canonical := by
  rw [ordered, Members.get?_ofList ((names_canonicalMembers ms).symm ▸ hnames), get?_map_canonical]

/-! ## The same value -/

mutual

/-- Equality, the order of members aside. -/
def Same : Json → Json → Prop
  | .array xs, .array ys => SameItems xs ys
  | .object ms, .object ns => (∀ key, key ∈ Members.names ns → key ∈ Members.names ms) ∧
      SameMembers ms ns
  | .null, .null => True
  | .bool a, .bool b => a = b
  | .number m, .number n => m = n
  | .string s, .string t => s = t
  | _, _ => False

/-- Equally many items, each the same as its counterpart. -/
def SameItems : List Json → List Json → Prop
  | [], [] => True
  | x :: xs, y :: ys => Same x y ∧ SameItems xs ys
  | _, _ => False

/-- Every member has a counterpart of its name and the same value. -/
def SameMembers : List (String × Json) → List (String × Json) → Prop
  | [], _ => True
  | (k, v) :: ms, ns => (∃ w, Members.get? ns k = some w ∧ Same v w) ∧ SameMembers ms ns

end

/-- `ordered` is equal for members that have the same names, and equal `canonical` values under
each. -/
theorem ordered_eq_iff {ms ns : Members} (hms : (Members.names ms).Nodup)
    (hns : (Members.names ns).Nodup) :
    ordered ms = ordered ns ↔ (∀ key, key ∈ Members.names ns → key ∈ Members.names ms) ∧
      ∀ m ∈ ms, (Members.get? ns m.1).map canonical = some m.2.canonical := by
  constructor
  · intro heq
    have hsame : ∀ key, (Members.get? ms key).map canonical = (Members.get? ns key).map canonical :=
      fun key => by rw [← get?_ordered hms, heq, get?_ordered hns]
    constructor
    · intro key
      contrapose
      intro hmem
      have hnone := hsame key
      rw [Members.get?_eq_none_iff.mpr hmem] at hnone
      exact Members.get?_eq_none_iff.mp (Option.map_eq_none_iff.mp hnone.symm)
    · intro m hm
      rw [← hsame, Members.get?_of_mem hms hm]
      rfl
  · rintro ⟨hnames, hvalues⟩
    -- Names that are missing on the left are missing on the right, so all look-ups agree.
    refine Members.ext_of_sorted (sorted_ordered ms) (sorted_ordered ns) fun key => ?_
    rw [get?_ordered hms, get?_ordered hns]
    cases hkey : Members.get? ms key with
    | none =>
      have hmem : key ∉ Members.names ns :=
        fun h => Members.get?_eq_none_iff.mp hkey (hnames key h)
      rw [Members.get?_eq_none_iff.mpr hmem]
    | some v => exact (hvalues (key, v) (Members.mem_of_get? hkey)).symm

-- The induction is on the left value; its members meet theirs on the right by look-up.
mutual

/-- `Same` holds of the values with equal `canonical` forms. -/
theorem same_iff : ∀ {a b : Json}, a.Distinct → b.Distinct →
    (a.Same b ↔ a.canonical = b.canonical)
  | .array xs, b, ha, hb => by
    cases b with
    | array ys =>
      rw [Same, sameItems_iff ha hb]
      simp [canonical]
    | _ => simp [Same, canonical, mkObject]
  | .object ms, b, ha, hb => by
    cases b with
    | object ns =>
      rw [Same, sameMembers_iff ha.2 hb.2, canonical_object, canonical_object, Json.object.injEq,
        ordered_eq_iff ha.1 hb.1]
    | _ => simp [Same, canonical, mkObject]
  | .null, b, _, _ => by cases b <;> simp [Same, canonical, mkObject]
  | .bool _, b, _, _ => by cases b <;> simp [Same, canonical, mkObject]
  | .number _, b, _, _ => by cases b <;> simp [Same, canonical, mkObject]
  | .string _, b, _, _ => by cases b <;> simp [Same, canonical, mkObject]

theorem sameItems_iff : ∀ {xs ys : List Json}, DistinctItems xs → DistinctItems ys →
    (SameItems xs ys ↔ canonicalItems xs = canonicalItems ys)
  | [], ys, _, _ => by cases ys <;> simp [SameItems, canonicalItems]
  | x :: xs, [], _, _ => by simp [SameItems, canonicalItems]
  | x :: xs, y :: ys, hxs, hys => by
    rw [SameItems, same_iff hxs.1 hys.1, sameItems_iff hxs.2 hys.2]
    simp [canonicalItems]

theorem sameMembers_iff : ∀ {ms ns : Members}, DistinctMembers ms → DistinctMembers ns →
    (SameMembers ms ns ↔ ∀ m ∈ ms, (Members.get? ns m.1).map canonical = some m.2.canonical)
  | [], _, _, _ => by simp [SameMembers]
  | (k, v) :: ms, ns, hms, hns => by
    have hfirst : (∃ w, Members.get? ns k = some w ∧ Same v w) ↔
        (Members.get? ns k).map canonical = some v.canonical := by
      rw [Option.map_eq_some_iff]
      refine exists_congr fun w => and_congr_right fun hw => ?_
      have hdistinct : w.Distinct := distinctMembers_iff.mp hns (k, w) (Members.mem_of_get? hw)
      rw [same_iff hms.1 hdistinct, eq_comm]
    rw [SameMembers, sameMembers_iff hms.2 hns, List.forall_mem_cons, hfirst]

end

/-! ## Canonical values -/

theorem canonicalMembers_iff {ms : Members} : CanonicalMembers ms ↔ ∀ m ∈ ms, Canonical m.2 := by
  induction ms with
  | nil => simp [CanonicalMembers]
  | cons m ms ih =>
    obtain ⟨k, v⟩ := m
    simp [CanonicalMembers, ih]

theorem canonicalMembers_insert (name : String) {value : Json} {ms : Members}
    (hvalue : Canonical value) (hms : CanonicalMembers ms) :
    CanonicalMembers (Members.insert name value ms) := by
  induction ms with
  | nil => exact ⟨hvalue, trivial⟩
  | cons m ms ih =>
    obtain ⟨k, v⟩ := m
    unfold Members.insert
    split
    · exact ⟨hvalue, hms.2⟩
    · split
      · exact ⟨hvalue, hms⟩
      · exact ⟨hms.1, ih hms.2⟩

theorem canonicalMembers_ofList {pairs : Members} (h : CanonicalMembers pairs) :
    CanonicalMembers (Members.ofList pairs) := by
  have hfold : ∀ ms : Members, CanonicalMembers ms →
      CanonicalMembers (pairs.foldl (fun ms p => Members.insert p.1 p.2 ms) ms) := by
    induction pairs with
    | nil => exact fun _ hms => hms
    | cons p pairs ih => exact fun ms hms => ih h.2 _ (canonicalMembers_insert p.1 h.1 hms)
  exact hfold [] trivial

mutual

/-- What `canonical` gives is `Canonical`. -/
theorem canonical_canonical : ∀ v : Json, Canonical (canonical v)
  | .array items => canonicalItems_canonical items
  | .object ms => ⟨sorted_ordered ms, canonicalMembers_ofList (canonicalMembers_canonical ms)⟩
  | .null | .bool _ | .number _ | .string _ => trivial

theorem canonicalItems_canonical : ∀ items : List Json, CanonicalItems (canonicalItems items)
  | [] => trivial
  | v :: rest => ⟨canonical_canonical v, canonicalItems_canonical rest⟩

theorem canonicalMembers_canonical : ∀ ms : Members, CanonicalMembers (canonicalMembers ms)
  | [] => trivial
  | (_, v) :: rest => ⟨canonical_canonical v, canonicalMembers_canonical rest⟩

end

mutual

/-- A `Canonical` value is `Distinct`: names that increase are distinct. -/
theorem Canonical.distinct : ∀ {v : Json}, Canonical v → Distinct v
  | .array _, h => CanonicalItems.distinct h
  | .object _, h => by
    exact ⟨Members.nodup_names_of_sorted h.1, CanonicalMembers.distinct h.2⟩
  | .null, _ | .bool _, _ | .number _, _ | .string _, _ => trivial

theorem CanonicalItems.distinct : ∀ {items : List Json}, CanonicalItems items →
    DistinctItems items
  | [], _ => trivial
  | _ :: _, h => ⟨Canonical.distinct h.1, CanonicalItems.distinct h.2⟩

theorem CanonicalMembers.distinct : ∀ {ms : Members}, CanonicalMembers ms → DistinctMembers ms
  | [], _ => trivial
  | (_, _) :: _, h => ⟨Canonical.distinct h.1, CanonicalMembers.distinct h.2⟩

end

mutual

/-- `canonical` leaves a `Canonical` value as it is. -/
theorem Canonical.canonical_eq : ∀ {v : Json}, Canonical v → v.canonical = v
  | .array items, h => by rw [canonical, CanonicalItems.canonicalItems_eq h]
  | .object ms, h => by
    have hnames : (Members.names ms).Nodup := (Canonical.distinct (v := .object ms) h).1
    rw [canonical_object]
    congr 1
    refine Members.ext_of_sorted (sorted_ordered ms) h.1 fun key => ?_
    rw [get?_ordered hnames, ← get?_map_canonical, CanonicalMembers.canonicalMembers_eq h.2]
  | .null, _ | .bool _, _ | .number _, _ | .string _, _ => rfl

theorem CanonicalItems.canonicalItems_eq : ∀ {items : List Json}, CanonicalItems items →
    canonicalItems items = items
  | [], _ => rfl
  | _ :: _, h => by
    rw [canonicalItems, Canonical.canonical_eq h.1, CanonicalItems.canonicalItems_eq h.2]

theorem CanonicalMembers.canonicalMembers_eq : ∀ {ms : Members}, CanonicalMembers ms →
    canonicalMembers ms = ms
  | [], _ => rfl
  | (_, _) :: _, h => by
    rw [canonicalMembers, Canonical.canonical_eq h.1, CanonicalMembers.canonicalMembers_eq h.2]

end

/-- What `read` gives is `Canonical`. -/
theorem canonical_of_read {text : String} {v : Json} (h : read text = .ok v) : Canonical v := by
  unfold read at h
  cases hraw : readRaw documentDepth text with
  | error e =>
    rw [hraw] at h
    cases h
  | ok raw =>
    rw [hraw] at h
    rw [← Except.ok.inj h]
    exact canonical_canonical raw

example : (read "\x7b\"b\":1,\"a\":2,\"b\":3\x7d").toOption =
    some (.object [("a", ofNat 2), ("b", ofNat 3)]) := by decide +kernel

end InventorySync.Json
