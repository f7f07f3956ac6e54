import InventorySync.Proofs.Fingerprint
import InventorySync.Proofs.Window
import InventorySync.Watch.Informer
import Mathlib.Data.List.Induction

/-!
# The informer's store as a mirror

An informer judges every event against its store: what is known is an update, and what a new list
no longer has is deleted. Between two lists the store holds for each name what was last said about
it. As long as a name keeps its uid until it is deleted, whatever the informer has handed over and
not deleted again is in the store, so a new list misses nothing.

## Key results

- `ObjectStore.Holds.events`: the store holds for each name what was said of it last
- `ObjectStore.asks_hands`: what the informer hands over is what was said, with the deletion of what
  has vanished
- `Mirrors.segments`: the store has all that was handed over and not deleted again
- `Mirrors.leaves_hands`: so a list and the changes after it leave what they say
-/

namespace InventorySync

/-! ## The store as a map -/

namespace ObjectStore

theorem get?_nil (key : ObjectKey) : ObjectStore.get? [] key = none := rfl

theorem get?_cons (e : ObjectKey × Json) (rest : ObjectStore) (key : ObjectKey) :
    ObjectStore.get? (e :: rest) key = if e.1 = key then some e.2 else rest.get? key := by
  unfold ObjectStore.get?
  rw [List.find?_cons]
  by_cases h : e.1 = key <;> simp [h]

theorem get?_insert (store : ObjectStore) (object : Json) (key : ObjectKey) :
    (store.insert object).get? key =
      if ObjectKey.of object = key then some object else store.get? key := by
  induction store with
  | nil => exact get?_cons _ _ _
  | cons e rest ih =>
    unfold ObjectStore.insert
    by_cases he : e.1 = .of object
    · rw [if_pos he, get?_cons, get?_cons]
      by_cases hkey : ObjectKey.of object = key
      · rw [if_pos (he.trans hkey), if_pos hkey]
      · rw [if_neg fun h => hkey (he.symm.trans h), if_neg hkey, if_neg fun h => hkey (he ▸ h)]
    · rw [if_neg he, get?_cons, get?_cons, ih]
      by_cases hkey : e.1 = key
      · rw [if_pos hkey, if_pos hkey, if_neg fun h => he (hkey.trans h.symm)]
      · rw [if_neg hkey, if_neg hkey]

theorem get?_erase (store : ObjectStore) (object : Json) (key : ObjectKey) :
    (store.erase object).get? key =
      if ObjectKey.of object = key then none else store.get? key := by
  induction store with
  | nil => simp [ObjectStore.erase, get?_nil]
  | cons e rest ih =>
    unfold ObjectStore.erase at ih ⊢
    rw [List.filter_cons, get?_cons]
    by_cases he : e.1 = .of object
    · rw [if_neg (by simp [he]), ih]
      by_cases hkey : ObjectKey.of object = key
      · rw [if_pos hkey, if_pos hkey]
      · rw [if_neg hkey, if_neg hkey, if_neg fun h => hkey (he ▸ h)]
    · rw [if_pos (by simp [he]), get?_cons, ih]
      by_cases hkey : e.1 = key
      · rw [if_pos hkey, if_pos hkey, if_neg fun h => he (hkey.trans h.symm)]
      · rw [if_neg hkey, if_neg hkey]

theorem exists_mem_of_get? {store : ObjectStore} {key : ObjectKey} {object : Json}
    (h : store.get? key = some object) : ∃ e ∈ store, e.2 = object := by
  obtain ⟨e, he, rfl⟩ := Option.map_eq_some_iff.mp h
  exact ⟨e, List.mem_of_find?_eq_some he, rfl⟩

theorem mem_insert {store : ObjectStore} {object : Json} {e : ObjectKey × Json}
    (h : e ∈ store.insert object) : e.2 = object ∨ e ∈ store := by
  induction store with
  | nil =>
    obtain rfl := List.mem_singleton.mp h
    exact Or.inl rfl
  | cons f rest ih =>
    unfold ObjectStore.insert at h
    split at h
    · rcases List.mem_cons.mp h with rfl | h
      · exact Or.inl rfl
      · exact Or.inr (List.mem_cons_of_mem _ h)
    · rcases List.mem_cons.mp h with rfl | h
      · exact Or.inr List.mem_cons_self
      · exact (ih h).imp_right (List.mem_cons_of_mem _)

/-- The `vanished` objects are those of the store whose uid is not on the list. -/
theorem mem_vanished {store : ObjectStore} {listed : List Json} {object : Json} :
    object ∈ store.vanished listed ↔ (∃ e ∈ store, e.2 = object) ∧
      ∃ uid, metadataText? object "uid" = some uid ∧
        ∀ o ∈ listed, metadataText? o "uid" ≠ some uid := by
  simp only [vanished, List.mem_map, List.mem_mergeSort, List.mem_filterMap]
  constructor
  · rintro ⟨⟨uid, o⟩, ⟨o', ⟨e, he, rfl⟩, hgone⟩, rfl⟩
    split at hgone
    next uid' huid =>
      split at hgone
      next => cases hgone
      next hnot =>
        obtain ⟨rfl, rfl⟩ := Prod.mk.inj (Option.some.inj hgone)
        exact ⟨⟨e, he, rfl⟩, uid', huid, fun o ho hsame => hnot ⟨o, ho, hsame⟩⟩
    next => cases hgone
  · rintro ⟨⟨e, he, rfl⟩, uid, huid, hnot⟩
    refine ⟨(uid, e.2), ⟨e.2, ⟨e, he, rfl⟩, ?_⟩, rfl⟩
    rw [huid]
    exact if_neg fun ⟨o, ho, hsame⟩ => hnot o ho hsame

end ObjectStore

/-! ## What deliveries ask for -/

/-- The uid of an object. -/
def uid? (object : Json) : Option String := metadataText? object "uid"

/-- The `uid?` of an object is the identifier of its record. -/
theorem uid?_of_normalize {n : Normalizer} {doc : Json} {r : Record}
    (h : n.normalize doc = .ok r) : uid? doc = some r.identifier := by
  obtain ⟨d, hidentify, hid, -⟩ := Document.normalize_ok h
  obtain ⟨rfl, -, -, -, -, hmetadata, huid, -⟩ := Document.identify_eq_ok_iff.mp hidentify
  rw [hid, uid?, metadataText?, Json.get?, hmetadata, Option.bind_some, Json.get?, huid]
  rfl

/-- Two deliveries say the same of an object: that it is there, or that it is not. -/
def SaysSame (d e : Delivery) : Prop := d.2 = e.2 ∧ (d.1 = .delete ↔ e.1 = .delete)

namespace Normalizer

variable {n : Normalizer} {ds es : List Delivery} {id : String}

/-- What the last of the deliveries for an identifier asks for: a content, or nothing; there may be
no delivery for it. -/
def asks (n : Normalizer) (ds : List Delivery) (id : String) : Option (Option String) :=
  (Holdings.lastFor (n.calls ds) id).map Call.outcome

theorem Reads.congr (hreads : n.Reads es) (h : List.Forall₂ SaysSame ds es) : n.Reads ds := by
  induction h with
  | nil => exact hreads
  | @cons d e ds es hde hrest ih =>
    obtain ⟨he, hes⟩ := reads_cons.mp hreads
    exact reads_cons.mpr ⟨hde.1 ▸ he, ih hes⟩

theorem leaves_eq (n : Normalizer) (ds : List Delivery) (id : String) :
    n.leaves ds id = (n.asks ds id).join := by
  unfold leaves asks Holdings.left
  cases Holdings.lastFor (n.calls ds) id <;> rfl

/-- What `ds ++ es` asks for is what `es` asks for, or else what `ds` does: later deliveries decide.
-/
theorem asks_append (n : Normalizer) (ds es : List Delivery) (id : String) :
    n.asks (ds ++ es) id = (n.asks es id).or (n.asks ds id) := by
  unfold asks
  rw [calls_append, Holdings.lastFor_append]
  cases Holdings.lastFor (n.calls es) id <;> rfl

theorem asks_singleton {d : Delivery} {r : Record} (h : n.normalize d.2 = .ok r) (id : String) :
    n.asks [d] id =
      if r.identifier = id then some (Call.ofSend d.1 r).outcome else none := by
  obtain ⟨action, doc⟩ := d
  unfold asks
  have hcalls : n.calls [(action, doc)] = [.ofSend action r] := calls_concat [] h
  rw [hcalls, Holdings.lastFor_cons]
  show Option.map Call.outcome (if r.identifier = id then _ else _) = _
  split <;> rfl

theorem asks_nil (n : Normalizer) (id : String) : n.asks [] id = none := rfl

theorem asks_cons {d : Delivery} {r : Record} (ds : List Delivery) (h : n.normalize d.2 = .ok r)
    (id : String) :
    n.asks (d :: ds) id =
      (n.asks ds id).or
        (if r.identifier = id then some (Call.ofSend d.1 r).outcome else none) := by
  rw [← List.singleton_append, asks_append, asks_singleton h]

/-- `asks` gives something for an identifier if one of the objects has it as its `uid?`. -/
theorem asks_eq_none_iff (h : n.Reads ds) :
    n.asks ds id = none ↔ ∀ d ∈ ds, uid? d.2 ≠ some id := by
  induction ds with
  | nil => simp [asks_nil]
  | cons d ds ih =>
    obtain ⟨r, hr⟩ := exists_of_isOk (h d List.mem_cons_self)
    rw [asks_cons ds hr, Option.or_eq_none_iff, ih (reads_cons.mp h).2, List.forall_mem_cons,
      and_comm, uid?_of_normalize hr]
    refine and_congr_left' ?_
    by_cases hid : r.identifier = id <;> simp [hid]

/-- `asks` is the same for deliveries that `SaysSame`: whether something is created or updated is
the same to the inventory. -/
theorem asks_congr (h : List.Forall₂ SaysSame ds es) (hreads : n.Reads es) (id : String) :
    n.asks ds id = n.asks es id := by
  induction h with
  | nil => rfl
  | @cons d e ds es hde hrest ih =>
    obtain ⟨r, hr⟩ := exists_of_isOk (hreads e List.mem_cons_self)
    have hr' : n.normalize d.2 = .ok r := hde.1 ▸ hr
    have houtcome : (Call.ofSend d.1 r).outcome = (Call.ofSend e.1 r).outcome := by
      by_cases hdelete : d.1 = .delete
      · rw [hdelete, hde.2.mp hdelete]
      · rw [Call.outcome_of_ne_delete hdelete,
          Call.outcome_of_ne_delete fun he => hdelete (hde.2.mpr he)]
    rw [asks_cons ds hr', asks_cons es hr, ih (reads_cons.mp hreads).2, houtcome]

/-- `asks` of deletions alone gives nothing, or that there be nothing. -/
theorem asks_deletions {objects : List Json} (h : n.Reads (objects.map ((.delete, ·))))
    (id : String) : n.asks (objects.map ((.delete, ·))) id = none ∨
      n.asks (objects.map ((.delete, ·))) id = some none := by
  induction objects with
  | nil => exact Or.inl rfl
  | cons object objects ih =>
    obtain ⟨r, hr⟩ := exists_of_isOk (h (.delete, object) List.mem_cons_self)
    rw [List.map_cons, asks_cons _ hr]
    rcases ih (reads_cons.mp h).2 with hrest | hrest
    · rw [hrest]
      by_cases hid : r.identifier = id
      · exact Or.inr (by rw [if_pos hid]; rfl)
      · exact Or.inl (by rw [if_neg hid]; rfl)
    · exact Or.inr (by rw [hrest]; rfl)

/-- Deliveries that `leaves` a content leave it whatever came before. -/
theorem leaves_append_of_ne_none (hleaves : n.leaves es id ≠ none) :
    n.leaves (ds ++ es) id = n.leaves es id := by
  rw [leaves_eq] at hleaves ⊢
  rw [leaves_eq, asks_append]
  cases hasks : n.asks es id with
  | none => exact absurd (by rw [hasks]; rfl) hleaves
  | some outcome => rfl

/-- An object with this record was said to be there, and nothing was said of its uid since. -/
def Alive (n : Normalizer) (ds : List Delivery) (r : Record) : Prop :=
  ∃ before d after, ds = before ++ d :: after ∧ d.1 ≠ .delete ∧ n.normalize d.2 = .ok r ∧
    ∀ e ∈ after, uid? e.2 ≠ some r.identifier

/-- A record is `Alive` after `ds ++ es` by the later deliveries, or these do not mention it. -/
theorem alive_append {r : Record} :
    n.Alive (ds ++ es) r ↔
      n.Alive es r ∨ n.Alive ds r ∧ ∀ e ∈ es, uid? e.2 ≠ some r.identifier := by
  constructor
  · rintro ⟨before, d, after, hsplit, hne, hr, hafter⟩
    -- The last mention is among the later deliveries, or before all of them.
    rcases List.append_eq_append_iff.mp hsplit with ⟨between, -, rfl⟩ | ⟨between, rfl, hrest⟩
    · exact Or.inl ⟨between, d, after, rfl, hne, hr, hafter⟩
    · rcases List.cons_eq_append_iff.mp hrest with ⟨rfl, rfl⟩ | ⟨middle, rfl, rfl⟩
      · exact Or.inl ⟨[], d, after, rfl, hne, hr, hafter⟩
      · exact Or.inr ⟨⟨before, d, middle, rfl, hne, hr, fun e he =>
          hafter e (List.mem_append_left _ he)⟩, fun e he => hafter e (List.mem_append_right _ he)⟩
  · rintro (⟨before, d, after, rfl, hne, hr, hafter⟩ | ⟨⟨before, d, after, rfl, hne, hr, hafter⟩,
      hrest⟩)
    · exact ⟨ds ++ before, d, after, by simp, hne, hr, hafter⟩
    · refine ⟨before, d, after ++ es, by simp, hne, hr, fun e he => ?_⟩
      rcases List.mem_append.mp he with he | he
      · exact hafter e he
      · exact hrest e he

/-- `leaves` gives the hash of the record that is `Alive`. -/
theorem leaves_eq_some_iff (h : n.Reads ds) {hash : String} :
    n.leaves ds id = some hash ↔
      ∃ r, n.Alive ds r ∧ r.identifier = id ∧ r.contentHash = hash := by
  constructor
  · intro hleaves
    induction ds using List.reverseRecOn with
    | nil => cases hleaves
    | append_singleton ds d ih =>
      obtain ⟨r, hr⟩ := exists_of_isOk (h d (by simp))
      rw [leaves_eq, asks_append, asks_singleton hr] at hleaves
      -- The last delivery decides for its own identifier, the others for all the rest.
      by_cases hid : r.identifier = id
      · rw [if_pos hid] at hleaves
        have hne : d.1 ≠ .delete := by
          intro hdelete
          rw [hdelete] at hleaves
          cases hleaves
        have houtcome : (Call.ofSend d.1 r).outcome = some hash := hleaves
        rw [Call.outcome_of_ne_delete hne] at houtcome
        exact ⟨r, ⟨ds, d, [], rfl, hne, hr, nofun⟩, hid, Option.some.inj houtcome⟩
      · rw [if_neg hid, Option.none_or, ← leaves_eq] at hleaves
        obtain ⟨r', halive, rfl, hhash⟩ := ih h.left hleaves
        refine ⟨r', alive_append.mpr (Or.inr ⟨halive, fun e he => ?_⟩), rfl, hhash⟩
        obtain rfl := List.mem_singleton.mp he
        rw [uid?_of_normalize hr]
        exact fun hsame => hid (Option.some.inj hsame)
  · rintro ⟨r, ⟨before, d, after, rfl, hne, hr, hafter⟩, rfl, rfl⟩
    rw [List.append_cons] at h ⊢
    rw [leaves_eq, asks_append, asks_append, (asks_eq_none_iff h.right).mpr hafter,
      asks_singleton hr, if_pos rfl, Call.outcome_of_ne_delete hne]
    rfl

end Normalizer

/-! ## What is said of names -/

/-- What a name stands for after what was said: the object that was said to be there last. -/
def present (said : List Delivery) (key : ObjectKey) : Option Json :=
  match said.reverse.find? (fun d => ObjectKey.of d.2 = key) with
  | some (.delete, _) | none => none
  | some (.create, object) | some (.update, object) => some object

theorem present_concat (said : List Delivery) (d : Delivery) (key : ObjectKey) :
    present (said ++ [d]) key =
      if ObjectKey.of d.2 = key then (if d.1 = .delete then none else some d.2)
      else present said key := by
  unfold present
  rw [List.reverse_append, List.reverse_singleton, List.singleton_append, List.find?_cons]
  by_cases hkey : ObjectKey.of d.2 = key
  · obtain ⟨action, object⟩ := d
    cases action <;> simp [hkey]
  · simp [hkey]

/-- A name that is not mentioned again keeps its `present` object. -/
theorem present_append {said after : List Delivery} {key : ObjectKey}
    (h : ∀ d ∈ after, ObjectKey.of d.2 ≠ key) : present (said ++ after) key = present said key := by
  induction after using List.reverseRecOn with
  | nil => rw [List.append_nil]
  | append_singleton after d ih =>
    rw [← List.append_assoc, present_concat, if_neg (h d (by simp))]
    exact ih fun e he => h e (List.mem_append_left _ he)

/-- A name keeps its uid until it is said to be deleted. -/
def Consistent (said : List Delivery) : Prop :=
  ∀ i, ∀ h : i < said.length, ∀ object ∈ present (said.take i) (ObjectKey.of said[i].2),
    uid? object = uid? said[i].2

instance (said : List Delivery) : Decidable (Consistent said) :=
  inferInstanceAs (Decidable (∀ i, ∀ h : i < said.length,
    ∀ object ∈ present (said.take i) (ObjectKey.of said[i].2), uid? object = uid? said[i].2))

theorem Consistent.uid?_eq {before after : List Delivery} {d : Delivery}
    (h : Consistent (before ++ d :: after)) {object : Json}
    (hpresent : present before (.of d.2) = some object) : uid? object = uid? d.2 := by
  have hlt : before.length < (before ++ d :: after).length := by simp
  have hat := h before.length hlt object
  rw [List.take_left' rfl, List.getElem_append_right (Nat.le_refl _)] at hat
  simpa using hat (by simpa using hpresent)

/-- An object that is not mentioned again in a `Consistent` history is the one `present` under its
name. -/
theorem Consistent.present_of_last {before after : List Delivery} {d : Delivery}
    (h : Consistent (before ++ d :: after)) (hne : d.1 ≠ .delete)
    (hafter : ∀ e ∈ after, uid? e.2 ≠ uid? d.2) :
    present (before ++ d :: after) (.of d.2) = some d.2 := by
  have hsaid : present (before ++ [d]) (.of d.2) = some d.2 := by
    rw [present_concat, if_pos rfl, if_neg hne]
  rw [List.append_cons] at h ⊢
  rw [present_append, hsaid]
  -- The first mention of the name afterwards would have to be of the same uid.
  by_contra hmention
  simp only [not_forall, not_not] at hmention
  obtain ⟨e, he, hkey⟩ := hmention
  have hfound : (after.find? fun e => decide (ObjectKey.of e.2 = .of d.2)).isSome = true :=
    List.find?_isSome.mpr ⟨e, he, by simpa using hkey⟩
  obtain ⟨f, hf⟩ := Option.isSome_iff_exists.mp hfound
  obtain ⟨hfkey, first, rest, rfl, hfirst⟩ := List.find?_eq_some_iff_append.mp hf
  rw [← List.append_assoc] at h
  have hpresent : present (before ++ [d] ++ first) (.of f.2) = some d.2 := by
    rw [of_decide_eq_true hfkey, present_append fun e he => by simpa using hfirst e he]
    exact hsaid
  exact hafter f (by simp) (h.uid?_eq hpresent).symm

/-! ## What the informer hands over -/

/-- What an informer is told of something that was said. -/
def Delivery.event : Delivery → InformerEvent
  | (.delete, object) => .deleted object
  | (.create, object) | (.update, object) => .applied object

namespace ObjectStore

/-- The store after several events. -/
def applyAll (store : ObjectStore) (events : List InformerEvent) : ObjectStore :=
  events.foldl ObjectStore.apply store

/-- What an informer with this store hands over for events, each judged against the store before
it. -/
def hands (store : ObjectStore) : List InformerEvent → List Delivery
  | [] => []
  | event :: events => event.changes store ++ hands (store.apply event) events

theorem hands_append (store : ObjectStore) (events more : List InformerEvent) :
    store.hands (events ++ more) = store.hands events ++ (store.applyAll events).hands more := by
  induction events generalizing store with
  | nil => rfl
  | cons event events ih =>
    show event.changes store ++ hands (store.apply event) (events ++ more) = _
    rw [ih, ← List.append_assoc]
    rfl

theorem applyAll_append (store : ObjectStore) (events more : List InformerEvent) :
    store.applyAll (events ++ more) = (store.applyAll events).applyAll more := List.foldl_append ..

/-- The store holds for each name what was said of it last. -/
def Holds (store : ObjectStore) (said : List Delivery) : Prop :=
  (∀ key, store.get? key = present said key) ∧ ∀ e ∈ store, ∃ d ∈ said, d.2 = e.2

theorem mem_erase {store : ObjectStore} {object : Json} {e : ObjectKey × Json}
    (h : e ∈ store.erase object) : e ∈ store := List.mem_of_mem_filter h

theorem Holds.event {store : ObjectStore} {said : List Delivery} (h : store.Holds said)
    (d : Delivery) : (store.apply d.event).Holds (said ++ [d]) := by
  obtain ⟨hget, hmem⟩ := h
  have hstill : ∀ e ∈ store, ∃ d' ∈ said ++ [d], d'.2 = e.2 := by
    intro e he
    obtain ⟨d', hd', hsame⟩ := hmem e he
    exact ⟨d', List.mem_append_left _ hd', hsame⟩
  have hinsert : ∀ e ∈ store.insert d.2, ∃ d' ∈ said ++ [d], d'.2 = e.2 := by
    intro e he
    rcases mem_insert he with hsame | he
    · exact ⟨d, by simp, hsame.symm⟩
    · exact hstill e he
  obtain ⟨action, object⟩ := d
  cases action with
  | create | update =>
    refine ⟨fun key => ?_, hinsert⟩
    rw [present_concat, ← hget key]
    exact get?_insert store object key
  | delete =>
    refine ⟨fun key => ?_, fun e he => hstill e (mem_erase he)⟩
    rw [present_concat, ← hget key]
    exact get?_erase store object key

theorem Holds.events {store : ObjectStore} {said : List Delivery} (h : store.Holds said)
    (ds : List Delivery) : (store.applyAll (ds.map Delivery.event)).Holds (said ++ ds) := by
  induction ds generalizing store said with
  | nil => rwa [List.append_nil]
  | cons d ds ih =>
    rw [List.append_cons]
    exact ih (h.event d)

theorem holds_nil : ObjectStore.Holds [] [] := ⟨fun _ => rfl, nofun⟩

/-- `ofList` is `applyAll` of the news that each of its objects is there. -/
theorem ofList_eq_applyAll (listed : List Json) :
    ofList listed = applyAll [] ((listed.map ((.create, ·))).map Delivery.event) := by
  rw [ofList, applyAll, List.map_map, List.foldl_map]
  rfl

end ObjectStore

/-! ## One list and what follows it -/

/-- A part of the history of a resource: a full list, page by page, and the changes after it, as the
two kinds of watcher see them. -/
structure Segment where
  /-- The pages before the last one, each with the token of the page after it. -/
  pages : List (List Json × String)
  /-- The last page. -/
  last : List Json
  /-- Where the changes begin. -/
  version : String
  changes : List Delivery
deriving DecidableEq, Repr

namespace Segment

/-- The objects of the list. -/
def listed (seg : Segment) : List Json := seg.pages.flatMap (·.1) ++ seg.last

/-- Everything that is said: the objects of the list are there, and then change. -/
def said (seg : Segment) : List Delivery := seg.listed.map ((.create, ·)) ++ seg.changes

/-- What an informer is told. -/
def events (seg : Segment) : List InformerEvent :=
  .restarted seg.listed :: seg.changes.map Delivery.event

end Segment

namespace ObjectStore

variable {n : Normalizer} {store : ObjectStore} {seg : Segment} {id : String}

theorem actionFor_ne_delete (store : ObjectStore) (object : Json) :
    store.actionFor object ≠ .delete := by
  unfold actionFor
  split <;> nofun

theorem saysSame_listed (store : ObjectStore) (listed : List Json) :
    List.Forall₂ SaysSame (listed.map fun object => (store.actionFor object, object))
      (listed.map ((.create, ·))) := by
  rw [List.forall₂_map_left_iff, List.forall₂_map_right_iff]
  exact List.forall₂_same.mpr fun object _ =>
    ⟨rfl, fun h => absurd h (store.actionFor_ne_delete object), nofun⟩

theorem saysSame_hands (store : ObjectStore) (ds : List Delivery) :
    List.Forall₂ SaysSame (store.hands (ds.map Delivery.event)) ds := by
  induction ds generalizing store with
  | nil => exact .nil
  | cons d ds ih =>
    obtain ⟨action, object⟩ := d
    cases action with
    | create | update =>
      exact .cons ⟨rfl, fun h => absurd h (store.actionFor_ne_delete object), nofun⟩ (ih _)
    | delete => exact .cons ⟨rfl, Iff.rfl⟩ (ih _)

/-- What an informer `hands` over for the events of a segment: the list, the deletion of what has
`vanished`, and the changes. -/
theorem hands_events (store : ObjectStore) (seg : Segment) :
    store.hands seg.events =
      seg.listed.map (fun object => (store.actionFor object, object)) ++
        (store.vanished seg.listed).map ((.delete, ·)) ++
          (ofList seg.listed).hands (seg.changes.map Delivery.event) := rfl

/-- Every object of a store can be read. -/
def Readable (store : ObjectStore) (n : Normalizer) : Prop :=
  ∀ e ∈ store, (n.normalize e.2).isOk = true

theorem reads_vanished (hstore : store.Readable n) (listed : List Json) :
    n.Reads ((store.vanished listed).map ((.delete, ·))) := by
  intro d hd
  obtain ⟨object, hobject, rfl⟩ := List.mem_map.mp hd
  obtain ⟨⟨e, he, rfl⟩, -⟩ := mem_vanished.mp hobject
  exact hstore e he

/-- `asks` of the `vanished` objects gives nothing for what is on the list. -/
theorem asks_vanished_of_listed {listed : List Json} (hstore : store.Readable n)
    (hreads : n.Reads (listed.map ((.create, ·))))
    (hlisted : n.asks (listed.map ((.create, ·))) id ≠ none) :
    n.asks ((store.vanished listed).map ((.delete, ·))) id = none := by
  rw [Normalizer.asks_eq_none_iff (reads_vanished hstore listed)]
  intro d hd huid
  obtain ⟨object, hobject, rfl⟩ := List.mem_map.mp hd
  obtain ⟨-, uid, hsame, hnot⟩ := mem_vanished.mp hobject
  obtain rfl : uid = id := Option.some.inj (hsame.symm.trans huid)
  refine hlisted ((Normalizer.asks_eq_none_iff hreads).mpr ?_)
  intro d hd
  obtain ⟨o, ho, rfl⟩ := List.mem_map.mp hd
  exact hnot o ho

/-- `asks` of the `vanished` objects gives a deletion for what was stored and is not on the list. -/
theorem asks_vanished_of_stored {listed : List Json} (hstore : store.Readable n)
    (hreads : n.Reads (listed.map ((.create, ·))))
    (hlisted : n.asks (listed.map ((.create, ·))) id = none)
    (hstored : ∃ e ∈ store, uid? e.2 = some id) :
    n.asks ((store.vanished listed).map ((.delete, ·))) id ≠ none := by
  obtain ⟨e, he, huid⟩ := hstored
  intro hnone
  refine (Normalizer.asks_eq_none_iff (reads_vanished hstore listed)).mp hnone (.delete, e.2)
    (List.mem_map_of_mem (mem_vanished.mpr ⟨⟨e, he, rfl⟩, id, huid, ?_⟩)) huid
  intro o ho
  exact (Normalizer.asks_eq_none_iff hreads).mp hlisted (.create, o) (List.mem_map_of_mem ho)

theorem reads_hands (hstore : store.Readable n) (hreads : n.Reads seg.said) :
    n.Reads (store.hands seg.events) := by
  rw [hands_events]
  exact ((hreads.left.congr (saysSame_listed store seg.listed)).append
    (reads_vanished hstore seg.listed)).append
      (hreads.right.congr (saysSame_hands (ofList seg.listed) seg.changes))

/-- `asks` of what an informer `hands` over gives what was `said`, or else the deletion of what has
`vanished`. -/
theorem asks_hands (hstore : store.Readable n) (hreads : n.Reads seg.said) :
    n.asks (store.hands seg.events) id =
      (n.asks seg.said id).or (n.asks ((store.vanished seg.listed).map ((.delete, ·))) id) := by
  have hlisted := n.asks_congr (saysSame_listed store seg.listed) hreads.left id
  have hchanges := n.asks_congr (saysSame_hands (ofList seg.listed) seg.changes) hreads.right id
  rw [hands_events, Normalizer.asks_append, Normalizer.asks_append, hlisted, hchanges, Segment.said,
    Normalizer.asks_append, Option.or_assoc]
  congr 1
  -- No identifier is both listed and vanished, so the order of the two does not matter.
  by_cases hnone : n.asks (seg.listed.map ((.create, ·))) id = none
  · rw [hnone, Option.or_none, Option.none_or]
  · rw [asks_vanished_of_listed hstore hreads.left hnone, Option.none_or, Option.or_none]

end ObjectStore

/-! ## Nothing is missed -/

/-- All that was handed over and all that is in the store can be read, and what is `Alive` after the
deliveries is in the store. -/
structure Mirrors (n : Normalizer) (ds : List Delivery) (store : ObjectStore) : Prop where
  handed : n.Reads ds
  reads : store.Readable n
  stored : ∀ id, n.leaves ds id ≠ none → ∃ e ∈ store, uid? e.2 = some id

namespace Mirrors

variable {n : Normalizer} {store : ObjectStore} {seg : Segment}

theorem nil (n : Normalizer) : Mirrors n [] [] := ⟨nofun, nofun, fun _ h => absurd rfl h⟩

/-- However few of the earlier deliveries are remembered, together with what the informer `hands`
over for a segment they leave what was `said` in it. -/
theorem leaves_hands (older : List Delivery) {recent : List Delivery}
    (h : Mirrors n (older ++ recent) store) (hreads : n.Reads seg.said) (id : String) :
    n.leaves (recent ++ store.hands seg.events) id = n.leaves seg.said id := by
  rw [Normalizer.leaves_eq, Normalizer.leaves_eq, Normalizer.asks_append,
    ObjectStore.asks_hands h.reads hreads]
  cases hsaid : n.asks seg.said id with
  | some outcome => rfl
  | none =>
    rw [Option.none_or]
    rcases Normalizer.asks_deletions (ObjectStore.reads_vanished h.reads seg.listed) id with
      hstays | hvanished
    · -- What stays without being mentioned was not there at all.
      rw [hstays, Option.none_or, ← Normalizer.leaves_eq]
      by_contra hleft
      rw [Segment.said, Normalizer.asks_append, Option.or_eq_none_iff] at hsaid
      refine ObjectStore.asks_vanished_of_stored h.reads hreads.left hsaid.2 (h.stored id ?_) hstays
      rw [Normalizer.leaves_append_of_ne_none hleft]
      exact hleft
    · rw [hvanished]
      rfl

/-- `Mirrors` is kept by the events of a segment: a list and the changes after it. -/
theorem segment {ds : List Delivery} (h : Mirrors n ds store) (hreads : n.Reads seg.said)
    (hconsistent : Consistent seg.said) :
    Mirrors n (ds ++ store.hands seg.events) (store.applyAll seg.events) := by
  -- The list makes the store what was said, whatever it was before.
  have hholds : (store.applyAll seg.events).Holds seg.said := by
    have hall := ObjectStore.holds_nil.events seg.said
    rw [Segment.said, List.map_append, ObjectStore.applyAll_append,
      ← ObjectStore.ofList_eq_applyAll] at hall
    exact hall
  refine ⟨h.handed.append (ObjectStore.reads_hands h.reads hreads), fun e he => ?_,
    fun id hleft => ?_⟩
  · obtain ⟨d, hd, hsame⟩ := hholds.2 e he
    exact hsame ▸ hreads d hd
  · rw [leaves_hands [] h hreads] at hleft
    obtain ⟨hash, hhash⟩ := Option.ne_none_iff_exists'.mp hleft
    obtain ⟨r, ⟨before, d, after, hsaid, hne, hr, hafter⟩, rfl, -⟩ :=
      (Normalizer.leaves_eq_some_iff hreads).mp hhash
    -- The last mention of the uid is what its name still stands for.
    have huid : uid? d.2 = some r.identifier := uid?_of_normalize hr
    have hpresent : present seg.said (.of d.2) = some d.2 := by
      rw [hsaid] at hconsistent ⊢
      exact hconsistent.present_of_last hne fun e he => huid ▸ hafter e he
    obtain ⟨e, he, hobject⟩ := ObjectStore.exists_mem_of_get? ((hholds.1 _).trans hpresent)
    exact ⟨e, he, hobject ▸ huid⟩

/-- `Mirrors` holds after however many segments. -/
theorem segments {segs : List Segment}
    (proper : ∀ seg ∈ segs, n.Reads seg.said ∧ Consistent seg.said) :
    Mirrors n (ObjectStore.hands [] (segs.flatMap (·.events)))
      (ObjectStore.applyAll [] (segs.flatMap (·.events))) := by
  induction segs using List.reverseRecOn with
  | nil => exact nil n
  | append_singleton segs seg ih =>
    obtain ⟨hreads, hconsistent⟩ := proper seg (by simp)
    rw [List.flatMap_append, List.flatMap_singleton, ObjectStore.hands_append,
      ObjectStore.applyAll_append]
    exact (ih fun seg' hseg' => proper seg' (List.mem_append_left _ hseg')).segment hreads
      hconsistent

end Mirrors

end InventorySync
