import InventorySync.Proofs.Mirror

/-!
# What the informer has announced

An informer judges what is known by the name of an object, and what has vanished by its uid. Where
a uid belongs to one name, and a change under a known name is of the object known under it, the two
come to the same: whoever follows the announced creations, updates and deletions by uid knows
exactly the objects of the store.

## Key results

- `Fits.nodup_uids_changes`: no event announces two actions for one uid
- `Fits.mem_uids_apply`: one event changes the announced uids as it changes the stored ones
- `Steady.announced_eq_stored`: what was announced last and not as deleted is what is stored
-/

namespace InventorySync

/-! ## The last action for a uid -/

/-- The action that was announced last for a uid. -/
def lastAction? (ds : List Delivery) (uid : String) : Option Action :=
  (ds.reverse.find? fun d => uid? d.2 = some uid).map (·.1)

/-- A uid stands for an object: it was created or updated, and not deleted since. -/
def Announced (ds : List Delivery) (uid : String) : Prop :=
  ∃ action, lastAction? ds uid = some action ∧ action ≠ .delete

section LastAction

variable {ds es : List Delivery} {uid : String}

theorem lastAction?_append (ds es : List Delivery) (uid : String) :
    lastAction? (ds ++ es) uid = (lastAction? es uid).or (lastAction? ds uid) := by
  unfold lastAction?
  rw [List.reverse_append, List.find?_append]
  cases es.reverse.find? fun d => uid? d.2 = some uid <;> rfl

theorem lastAction?_eq_none_iff : lastAction? ds uid = none ↔ ∀ d ∈ ds, uid? d.2 ≠ some uid := by
  simp [lastAction?]

/-- Where each uid is announced at most once, `lastAction?` gives the action of its announcement. -/
theorem lastAction?_of_mem (hnodup : (ds.map (uid? ·.2)).Nodup) {d : Delivery} (hd : d ∈ ds)
    (huid : uid? d.2 = some uid) : lastAction? ds uid = some d.1 := by
  obtain ⟨before, after, rfl⟩ := List.append_of_mem hd
  have hafter : lastAction? after uid = none := by
    rw [lastAction?_eq_none_iff]
    intro e he hsame
    rw [List.map_append, List.map_cons, List.nodup_append, List.nodup_cons] at hnodup
    exact hnodup.2.1.1 (List.mem_map.mpr ⟨e, he, hsame.trans huid.symm⟩)
  rw [List.append_cons, lastAction?_append, lastAction?_append, hafter]
  simp [lastAction?, huid]

theorem announced_iff_of_nodup (hnodup : (ds.map (uid? ·.2)).Nodup) :
    Announced ds uid ↔ ∃ d ∈ ds, d.1 ≠ .delete ∧ uid? d.2 = some uid := by
  constructor
  · rintro ⟨action, hlast, hne⟩
    obtain ⟨d, hd, rfl⟩ := Option.map_eq_some_iff.mp hlast
    have huid := List.find?_some hd
    exact ⟨d, List.mem_reverse.mp (List.mem_of_find?_eq_some hd), hne, of_decide_eq_true huid⟩
  · rintro ⟨d, hd, hne, huid⟩
    exact ⟨d.1, lastAction?_of_mem hnodup hd huid, hne⟩

/-- A uid is `Announced` by `ds ++ es` if it is by `es`, or by `ds` and `es` does not mention it. -/
theorem announced_append :
    Announced (ds ++ es) uid ↔
      Announced es uid ∨ Announced ds uid ∧ ∀ d ∈ es, uid? d.2 ≠ some uid := by
  rw [← lastAction?_eq_none_iff]
  unfold Announced
  rw [lastAction?_append]
  cases lastAction? es uid <;> simp

end LastAction

/-! ## The objects of a store -/

namespace ObjectStore

variable {store : ObjectStore} {object other : Json}

/-- The objects that are stored. -/
def objects (store : ObjectStore) : List Json := List.map (·.2) store

/-- The uids of the objects that are stored. -/
def uids (store : ObjectStore) : List String := store.objects.filterMap uid?

theorem mem_uids {uid : String} : uid ∈ store.uids ↔ ∃ o ∈ store.objects, uid? o = some uid :=
  List.mem_filterMap

/-- Every object is stored under its own name, `ObjectKey.of`, and no name has two. -/
structure Keyed (store : ObjectStore) : Prop where
  key_eq : ∀ e ∈ store, e.1 = .of e.2
  nodup : (store.objects.map ObjectKey.of).Nodup

theorem get?_of_mem_objects (h : store.Keyed) (hmem : object ∈ store.objects) :
    store.get? (.of object) = some object := by
  induction store with
  | nil => cases hmem
  | cons e rest ih =>
    obtain ⟨hkey, hnodup⟩ := h
    obtain ⟨hnot, hrest⟩ := List.nodup_cons.mp hnodup
    rw [get?_cons, hkey e List.mem_cons_self]
    rcases List.mem_cons.mp hmem with rfl | hmem
    · rw [if_pos rfl]
    · rw [if_neg fun hsame => hnot (List.mem_map.mpr ⟨object, hmem, hsame.symm⟩)]
      exact ih ⟨fun f hf => hkey f (List.mem_cons_of_mem _ hf), hrest⟩ hmem

theorem mem_objects_of_get? {key : ObjectKey} (h : store.get? key = some object) :
    object ∈ store.objects := by
  obtain ⟨e, he, rfl⟩ := exists_mem_of_get? h
  exact List.mem_map_of_mem he

/-- The `objects` of a store that is `Keyed` are those that `get?` gives. -/
theorem Keyed.mem_objects_iff (h : store.Keyed) :
    object ∈ store.objects ↔ store.get? (.of object) = some object :=
  ⟨get?_of_mem_objects h, mem_objects_of_get?⟩

theorem Keyed.of_get? (h : store.Keyed) {key : ObjectKey} (hget : store.get? key = some object) :
    ObjectKey.of object = key := by
  obtain ⟨e, he, rfl⟩ := Option.map_eq_some_iff.mp hget
  have hkey := List.find?_some he
  rw [← h.key_eq e (List.mem_of_find?_eq_some he)]
  exact of_decide_eq_true hkey

theorem Keyed.nil : Keyed [] := ⟨nofun, List.nodup_nil⟩

theorem mem_objects_insert_of_mem (hmem : other ∈ (store.insert object).objects) :
    other = object ∨ other ∈ store.objects := by
  obtain ⟨e, he, rfl⟩ := List.mem_map.mp hmem
  exact (mem_insert he).imp_right fun he => List.mem_map_of_mem he

theorem Keyed.insert (h : store.Keyed) (object : Json) : (store.insert object).Keyed := by
  induction store with
  | nil => exact ⟨by simp [ObjectStore.insert], by simp [ObjectStore.insert, objects]⟩
  | cons e rest ih =>
    obtain ⟨hkey, hnodup⟩ := h
    obtain ⟨hnot, hrest⟩ := List.nodup_cons.mp hnodup
    have hkeys : ∀ f ∈ rest, f.1 = .of f.2 := fun f hf => hkey f (List.mem_cons_of_mem _ hf)
    obtain ⟨hkey', hnodup'⟩ := ih ⟨hkeys, hrest⟩
    have hown : e.1 = .of e.2 := hkey e List.mem_cons_self
    unfold ObjectStore.insert
    by_cases he : e.1 = .of object
    · -- The new object takes the place of the old one.
      rw [if_pos he]
      refine ⟨List.forall_mem_cons.mpr ⟨he, hkeys⟩, List.nodup_cons.mpr ⟨?_, hrest⟩⟩
      rw [← he, hown]
      exact hnot
    · rw [if_neg he]
      refine ⟨List.forall_mem_cons.mpr ⟨hown, hkey'⟩, List.nodup_cons.mpr ⟨?_, hnodup'⟩⟩
      intro hmem
      obtain ⟨other, hother, hsame⟩ := List.mem_map.mp hmem
      rcases mem_objects_insert_of_mem hother with rfl | hother
      · exact he (hown.trans hsame.symm)
      · exact hnot (List.mem_map.mpr ⟨other, hother, hsame⟩)

theorem Keyed.erase (h : store.Keyed) (object : Json) : (store.erase object).Keyed := by
  refine ⟨fun e he => h.key_eq e (mem_erase he), ?_⟩
  have hsublist : (store.erase object).objects.Sublist store.objects := List.filter_sublist.map _
  exact h.nodup.sublist (hsublist.map _)

theorem Keyed.ofList (listed : List Json) : (ofList listed).Keyed := by
  induction listed using List.reverseRecOn with
  | nil => exact .nil
  | append_singleton listed object ih =>
    rw [ObjectStore.ofList, List.foldl_append]
    exact ih.insert object

theorem Keyed.apply (h : store.Keyed) (event : InformerEvent) : (store.apply event).Keyed := by
  cases event with
  | applied object => exact h.insert object
  | deleted object => exact h.erase object
  | restarted listed => exact .ofList listed

theorem Keyed.mem_objects_insert (h : store.Keyed) :
    other ∈ (store.insert object).objects ↔
      other = object ∨ other ∈ store.objects ∧ ObjectKey.of object ≠ .of other := by
  rw [(h.insert object).mem_objects_iff, get?_insert, h.mem_objects_iff]
  by_cases hkey : ObjectKey.of object = .of other
  · simp [hkey, eq_comm]
  · rw [if_neg hkey]
    constructor
    · exact fun hget => Or.inr ⟨hget, hkey⟩
    · rintro (rfl | ⟨hget, -⟩)
      · exact absurd rfl hkey
      · exact hget

theorem Keyed.mem_objects_erase (h : store.Keyed) :
    other ∈ (store.erase object).objects ↔
      other ∈ store.objects ∧ ObjectKey.of object ≠ .of other := by
  rw [(h.erase object).mem_objects_iff, get?_erase, h.mem_objects_iff]
  by_cases hkey : ObjectKey.of object = .of other <;> simp [hkey]

/-- `ofList` stores a list with each name once as it is. -/
theorem mem_objects_ofList {listed : List Json} (hnodup : (listed.map ObjectKey.of).Nodup) :
    other ∈ (ofList listed).objects ↔ other ∈ listed := by
  induction listed using List.reverseRecOn with
  | nil => rfl
  | append_singleton listed object ih =>
    rw [List.map_append, List.nodup_append] at hnodup
    obtain ⟨hlisted, -, hdisjoint⟩ := hnodup
    have hfold : ofList (listed ++ [object]) = (ofList listed).insert object := by
      rw [ofList, List.foldl_append]
      rfl
    rw [hfold, (Keyed.ofList listed).mem_objects_insert, ih hlisted, List.mem_append,
      List.mem_singleton, or_comm]
    -- The last object has a name of its own, so it replaces none.
    refine or_congr_left (and_iff_left_of_imp fun hother hsame => ?_)
    exact hdisjoint _ (List.mem_map_of_mem hother) _ (List.mem_map_of_mem List.mem_cons_self)
      hsame.symm

/-- The `vanished` objects are, in some order, a part of what is stored. -/
theorem vanished_perm (store : ObjectStore) (listed : List Json) :
    ∃ gone, gone.Sublist store.objects ∧ (store.vanished listed).Perm gone := by
  unfold vanished
  refine ⟨_, ?_, (List.mergeSort_perm _ _).map _⟩
  rw [List.map_filterMap]
  show List.Sublist _ (List.map (·.2) store)
  induction List.map (·.2) store with
  | nil => exact .slnil
  | cons object rest ih =>
    rw [List.filterMap_cons]
    -- An object is left out, or stands for itself.
    split
    next => exact ih.cons object
    next object' hself =>
      obtain rfl : object' = object := by
        obtain ⟨pair, hpair, rfl⟩ := Option.map_eq_some_iff.mp hself
        split at hpair
        · split at hpair
          · cases hpair
          · obtain rfl := Option.some.inj hpair
            rfl
        · cases hpair
      exact ih.cons_cons object'

end ObjectStore

/-! ## One event -/

namespace InformerEvent

/-- The objects an event is about. -/
def objects : InformerEvent → List Json
  | .applied object | .deleted object => [object]
  | .restarted listed => listed

/-- The object that has changed; none for a new list. -/
def changed? : InformerEvent → Option Json
  | .applied object | .deleted object => some object
  | .restarted _ => none

end InformerEvent

/-- An event goes with a store: every object has a `uid?`, a uid belongs to one name, a list has
each name once, and a change under a known name is of the object known under it. -/
structure Fits (store : ObjectStore) (event : InformerEvent) : Prop where
  keyed : store.Keyed
  identified : ∀ o ∈ store.objects ++ event.objects, (uid? o).isSome = true
  placed : ∀ o ∈ store.objects ++ event.objects, ∀ o' ∈ store.objects ++ event.objects,
    uid? o = uid? o' → ObjectKey.of o = .of o'
  listed : (event.objects.map ObjectKey.of).Nodup
  carried : ∀ o ∈ event.changed?, ∀ cached ∈ store.get? (.of o), uid? cached = uid? o

namespace Fits

variable {store : ObjectStore} {event : InformerEvent} {object other : Json}
  {uid : String}

/-- Objects with names of their own have uids of their own, where an event `Fits`. -/
theorem nodup_uids (h : Fits store event) {objects : List Json}
    (hsubset : objects ⊆ store.objects ++ event.objects)
    (hkeys : (objects.map ObjectKey.of).Nodup) : (objects.map uid?).Nodup := by
  have hinj : ∀ o ∈ objects, ∀ o' ∈ objects, uid? o = uid? o' → o = o' := by
    intro o ho o' ho' hsame
    exact List.inj_on_of_nodup_map hkeys ho ho' (h.placed o (hsubset ho) o' (hsubset ho') hsame)
  exact (List.Nodup.of_map _ hkeys).map_on hinj

/-- The `changes` of an event that `Fits` have one action for each uid at most. -/
theorem nodup_uids_changes (h : Fits store event) :
    ((event.changes store).map (uid? ·.2)).Nodup := by
  cases event with
  | applied object | deleted object => exact List.nodup_singleton _
  | restarted listed =>
    unfold InformerEvent.changes
    rw [List.map_append, List.map_map, List.map_map, List.nodup_append]
    refine ⟨h.nodup_uids (List.subset_append_right ..) h.listed, ?_, ?_⟩
    · obtain ⟨gone, hsublist, hperm⟩ := store.vanished_perm listed
      refine (hperm.map uid?).nodup_iff.mpr (h.nodup_uids ?_ ?_)
      · exact fun o ho => List.mem_append_left _ (hsublist.subset ho)
      · exact h.keyed.nodup.sublist (hsublist.map _)
    · -- What has vanished is not on the list.
      rintro uid hlisted _ hgone rfl
      obtain ⟨o, ho, rfl⟩ := List.mem_map.mp hlisted
      obtain ⟨o', ho', hsame⟩ := List.mem_map.mp hgone
      obtain ⟨-, uid, huid, hnot⟩ := ObjectStore.mem_vanished.mp ho'
      exact hnot o ho (hsame.symm.trans huid)

/-- The object `changed?` under a name is the one stored under it, so name and uid come to the same.
-/
theorem key_eq_iff (h : Fits store event) (hchanged : event.changed? = some object)
    (hother : other ∈ store.objects) :
    ObjectKey.of object = .of other ↔ uid? object = uid? other := by
  have hobject : object ∈ event.objects := by
    cases event with
    | applied o | deleted o => exact List.mem_singleton.mpr (Option.some.inj hchanged).symm
    | restarted listed => cases hchanged
  constructor
  · intro hkey
    have hget := h.keyed.mem_objects_iff.mp hother
    exact (h.carried object hchanged other (hkey ▸ hget)).symm
  · exact h.placed object (List.mem_append_right _ hobject) other (List.mem_append_left _ hother)

/-- The objects stored under other names than the one `changed?` are those with other uids. -/
theorem exists_elsewhere_iff (h : Fits store event) (hchanged : event.changed? = some object)
    (uid : String) :
    (∃ o, (o ∈ store.objects ∧ ObjectKey.of object ≠ .of o) ∧ uid? o = some uid) ↔
      uid ∈ store.uids ∧ uid? object ≠ some uid := by
  rw [ObjectStore.mem_uids]
  constructor
  · rintro ⟨o, ⟨ho, hkey⟩, huid⟩
    refine ⟨⟨o, ho, huid⟩, fun hsame => hkey ?_⟩
    exact (h.key_eq_iff hchanged ho).mpr (hsame.trans huid.symm)
  · rintro ⟨⟨o, ho, huid⟩, hnot⟩
    refine ⟨o, ⟨ho, fun hkey => hnot ?_⟩, huid⟩
    exact ((h.key_eq_iff hchanged ho).mp hkey).trans huid

/-- After `apply` those `uids` are stored that were created or updated by the `changes`, and those
that were stored and of which nothing was said. -/
theorem mem_uids_apply (h : Fits store event) :
    uid ∈ (store.apply event).uids ↔
      (∃ d ∈ event.changes store, d.1 ≠ .delete ∧ uid? d.2 = some uid) ∨
        uid ∈ store.uids ∧ ∀ d ∈ event.changes store, uid? d.2 ≠ some uid := by
  cases event with
  -- One object takes the place of the stored one, or goes; the others are stored elsewhere.
  | applied object =>
    have hne : store.actionFor object ≠ .delete := store.actionFor_ne_delete object
    have hothers := h.exists_elsewhere_iff rfl uid
    rw [ObjectStore.mem_uids]
    simp only [ObjectStore.apply, h.keyed.mem_objects_insert, or_and_right, exists_or,
      exists_eq_left, hothers]
    simp [InformerEvent.changes, hne]
  | deleted object =>
    have hothers := h.exists_elsewhere_iff rfl uid
    rw [ObjectStore.mem_uids]
    simp only [ObjectStore.apply, h.keyed.mem_objects_erase, hothers]
    simp [InformerEvent.changes]
  -- What is stored afterwards is what was listed, and each listed object is a change.
  | restarted listed =>
    have hstored : ∀ o, o ∈ (ObjectStore.ofList listed).objects ↔ o ∈ listed :=
      fun o => ObjectStore.mem_objects_ofList h.listed
    simp only [ObjectStore.mem_uids, ObjectStore.apply, hstored]
    constructor
    · rintro ⟨o, ho, huid⟩
      exact Or.inl ⟨(store.actionFor o, o), List.mem_append_left _ (List.mem_map_of_mem ho),
        store.actionFor_ne_delete o, huid⟩
    · rintro (⟨d, hd, hne, huid⟩ | ⟨⟨o, ho, huid⟩, hnot⟩)
      · rcases List.mem_append.mp hd with hd | hd
        · obtain ⟨o, ho, rfl⟩ := List.mem_map.mp hd
          exact ⟨o, ho, huid⟩
        · obtain ⟨o, -, rfl⟩ := List.mem_map.mp hd
          exact absurd rfl hne
      -- What was stored is listed or has vanished, so something was said of it.
      · by_contra hlisted
        push Not at hlisted
        obtain ⟨e, he, rfl⟩ := List.mem_map.mp ho
        exact hnot (.delete, e.2) (List.mem_append_right _ (List.mem_map_of_mem
          (ObjectStore.mem_vanished.mpr ⟨⟨e, he, rfl⟩, uid, huid, hlisted⟩))) huid

/-- If exactly the stored `uids` are `Announced` before an event that `Fits`, they are so after it.
-/
theorem announced_iff (h : Fits store event) {ds : List Delivery}
    (hknown : ∀ uid, Announced ds uid ↔ uid ∈ store.uids) (uid : String) :
    Announced (ds ++ event.changes store) uid ↔ uid ∈ (store.apply event).uids := by
  rw [announced_append, announced_iff_of_nodup h.nodup_uids_changes, hknown, h.mem_uids_apply]

end Fits

/-! ## A history -/

/-- A change under a known name is of the object known under it. -/
def Carries (events : List InformerEvent) : Prop :=
  ∀ i, ∀ h : i < events.length, ∀ o ∈ events[i].changed?,
    ∀ cached ∈ (ObjectStore.applyAll [] (events.take i)).get? (.of o), uid? cached = uid? o

instance (events : List InformerEvent) : Decidable (Carries events) :=
  inferInstanceAs (Decidable (∀ i, ∀ h : i < events.length, ∀ o ∈ events[i].changed?,
    ∀ cached ∈ (ObjectStore.applyAll [] (events.take i)).get? (.of o), uid? cached = uid? o))

/-- What a cluster keeps to in what it tells an informer, so that every event `Fits`. -/
structure Steady (events : List InformerEvent) : Prop where
  /-- Every object has a uid. -/
  identified : ∀ o ∈ events.flatMap (·.objects), (uid? o).isSome = true
  /-- A uid belongs to one namespace and name. -/
  placed : ∀ o ∈ events.flatMap (·.objects), ∀ o' ∈ events.flatMap (·.objects),
    uid? o = uid? o' → ObjectKey.of o = .of o'
  /-- A list has each name once. -/
  listed : ∀ event ∈ events, (event.objects.map ObjectKey.of).Nodup
  carried : Carries events

instance (events : List InformerEvent) : Decidable (Steady events) :=
  decidable_of_iff
    ((∀ o ∈ events.flatMap (·.objects), (uid? o).isSome = true) ∧
      (∀ o ∈ events.flatMap (·.objects), ∀ o' ∈ events.flatMap (·.objects),
        uid? o = uid? o' → ObjectKey.of o = .of o') ∧
      (∀ event ∈ events, (event.objects.map ObjectKey.of).Nodup) ∧ Carries events)
    ⟨fun ⟨identified, placed, listed, carried⟩ => ⟨identified, placed, listed, carried⟩,
      fun ⟨identified, placed, listed, carried⟩ => ⟨identified, placed, listed, carried⟩⟩

namespace ObjectStore

theorem keyed_applyAll {store : ObjectStore} (h : store.Keyed) (events : List InformerEvent) :
    (store.applyAll events).Keyed := by
  induction events generalizing store with
  | nil => exact h
  | cons event events ih => exact ih (h.apply event)

theorem objects_apply_subset (store : ObjectStore) (event : InformerEvent) :
    (store.apply event).objects ⊆ store.objects ++ event.objects := by
  intro o ho
  rw [List.mem_append, or_comm]
  cases event with
  | applied object => exact (mem_objects_insert_of_mem ho).imp_left List.mem_singleton.mpr
  | deleted object =>
    have hsublist : (store.erase object).Sublist store := List.filter_sublist
    exact Or.inr ((hsublist.map _).subset ho)
  | restarted listed =>
    -- An object that is stored twice from a list is on it all the same.
    left
    show o ∈ listed
    change o ∈ (ofList listed).objects at ho
    induction listed using List.reverseRecOn with
    | nil => cases ho
    | append_singleton listed object ih =>
      rw [ofList, List.foldl_append] at ho
      rcases mem_objects_insert_of_mem ho with rfl | ho
      · exact List.mem_append_right _ List.mem_cons_self
      · exact List.mem_append_left _ (ih ho)

/-- The `objects` that `applyAll` stores were told of by the events. -/
theorem objects_applyAll_subset (events : List InformerEvent) :
    (applyAll [] events).objects ⊆ events.flatMap (·.objects) := by
  induction events using List.reverseRecOn with
  | nil => exact List.nil_subset _
  | append_singleton events event ih =>
    rw [applyAll_append, List.flatMap_append, List.flatMap_singleton]
    intro o ho
    rcases List.mem_append.mp (objects_apply_subset _ event ho) with ho | ho
    · exact List.mem_append_left _ (ih ho)
    · exact List.mem_append_right _ ho

end ObjectStore

namespace Steady

variable {before after : List InformerEvent} {event : InformerEvent}

theorem left (h : Steady (before ++ after)) : Steady before := by
  have hsubset : before.flatMap (·.objects) ⊆ (before ++ after).flatMap (·.objects) := by
    rw [List.flatMap_append]
    exact List.subset_append_left ..
  refine ⟨fun o ho => h.identified o (hsubset ho),
    fun o ho o' ho' => h.placed o (hsubset ho) o' (hsubset ho'),
    fun event hevent => h.listed event (List.mem_append_left _ hevent), fun i hi o ho => ?_⟩
  have hat := h.carried i (by rw [List.length_append]; omega) o
  rw [List.getElem_append_left hi, List.take_append_of_le_length (by omega)] at hat
  exact hat ho

/-- Each event of a `Steady` history `Fits` the store before it. -/
theorem fits (h : Steady (before ++ event :: after)) :
    Fits (ObjectStore.applyAll [] before) event := by
  have hsubset : (ObjectStore.applyAll [] before).objects ++ event.objects ⊆
      (before ++ event :: after).flatMap (·.objects) := by
    rw [List.flatMap_append, List.flatMap_cons]
    intro o ho
    rcases List.mem_append.mp ho with ho | ho
    · exact List.mem_append_left _ (ObjectStore.objects_applyAll_subset before ho)
    · exact List.mem_append_right _ (List.mem_append_left _ ho)
  refine ⟨ObjectStore.keyed_applyAll .nil before, fun o ho => h.identified o (hsubset ho),
    fun o ho o' ho' => h.placed o (hsubset ho) o' (hsubset ho'), h.listed event (by simp), ?_⟩
  have hat := h.carried before.length (by simp)
  rw [List.take_left' rfl, List.getElem_append_right (Nat.le_refl _)] at hat
  simpa using hat

/-- After every event of a `Steady` history, what is `Announced` is what is stored. -/
theorem announced_iff {events : List InformerEvent} (h : Steady events) (uid : String) :
    Announced (ObjectStore.hands [] events) uid ↔ uid ∈ (ObjectStore.applyAll [] events).uids := by
  induction events using List.reverseRecOn generalizing uid with
  | nil => simp [Announced, lastAction?, ObjectStore.hands, ObjectStore.applyAll, ObjectStore.uids,
      ObjectStore.objects]
  | append_singleton events event ih =>
    rw [ObjectStore.hands_append, ObjectStore.applyAll_append]
    show Announced (_ ++ (event.changes _ ++ [])) uid ↔ _
    rw [List.append_nil]
    exact h.fits.announced_iff (ih h.left) uid

/-- As long as a cluster is `Steady`, the uids that are `Announced`, created or updated and not
deleted since, are the `uids` of the stored objects, whatever happened. The `changes` of an event
have one action for each uid at most, and a new list deletes exactly the stored uids it does not
have: also that of an object whose name another one has taken. -/
theorem announced_eq_stored (h : Steady (before ++ after)) :
    let store := ObjectStore.applyAll [] before
    (∀ uid, Announced (ObjectStore.hands [] before) uid ↔ uid ∈ store.uids) ∧
    ∀ event ∈ after.head?,
      ((event.changes store).map (uid? ·.2)).Nodup ∧
      ∀ listed, event = .restarted listed →
        (∀ uid, (∃ o, (Action.delete, o) ∈ event.changes store ∧ uid? o = some uid) ↔
          uid ∈ store.uids ∧ ∀ o ∈ listed, uid? o ≠ some uid) ∧
        ∀ o ∈ listed, ∀ cached ∈ store.get? (.of o), uid? cached ≠ uid? o →
          (Action.delete, cached) ∈ event.changes store ∧
            (Action.update, o) ∈ event.changes store := by
  intro store
  refine ⟨h.left.announced_iff, fun event hevent => ?_⟩
  obtain ⟨rest, rfl⟩ : ∃ rest, after = event :: rest := by
    cases after with
    | nil => cases hevent
    | cons first rest => exact ⟨rest, by rw [Option.some.inj hevent]⟩
  have hfits : Fits store event := h.fits
  refine ⟨hfits.nodup_uids_changes, ?_⟩
  -- What is left is about a restart, which deletes what has vanished and nothing else.
  rintro listed rfl
  have hdeletes : ∀ o, (Action.delete, o) ∈ InformerEvent.changes store (.restarted listed) ↔
      o ∈ store.vanished listed := by
    intro o
    simp [InformerEvent.changes, store.actionFor_ne_delete]
  refine ⟨fun uid => ?_, fun o ho cached hcached hother => ⟨(hdeletes cached).mpr ?_, ?_⟩⟩
  · simp only [hdeletes, ObjectStore.mem_vanished, ObjectStore.mem_uids, ObjectStore.objects,
      List.mem_map]
    constructor
    · rintro ⟨o, ⟨hstored, uid', huid', hnot⟩, huid⟩
      obtain rfl : uid' = uid := Option.some.inj (huid'.symm.trans huid)
      exact ⟨⟨o, hstored, huid⟩, hnot⟩
    · rintro ⟨⟨o, hstored, huid⟩, hnot⟩
      exact ⟨o, ⟨hstored, uid, huid, hnot⟩, huid⟩
  -- The uid of the object before is on the list only under its own name, which is taken.
  · have hstored : cached ∈ store.objects := ObjectStore.mem_objects_of_get? hcached
    obtain ⟨uid, huid⟩ := Option.isSome_iff_exists.mp
      (hfits.identified cached (List.mem_append_left _ hstored))
    refine ObjectStore.mem_vanished.mpr ⟨List.mem_map.mp hstored, uid, huid, ?_⟩
    intro o' ho' huid'
    have hkey : ObjectKey.of cached = .of o := hfits.keyed.of_get? hcached
    have hkey' : ObjectKey.of o' = .of cached :=
      hfits.placed o' (List.mem_append_right _ ho') cached (List.mem_append_left _ hstored)
        (huid'.trans huid.symm)
    obtain rfl : o' = o :=
      List.inj_on_of_nodup_map hfits.listed ho' ho (hkey'.trans hkey)
    exact hother (huid.trans huid'.symm)
  -- The object on the list has a stored one at its place, so it is an update.
  · refine List.mem_append_left _ (List.mem_map.mpr ⟨o, ho, ?_⟩)
    rw [ObjectStore.actionFor, hcached]
    rfl

end Steady

/-- An object in a namespace. -/
def spacedDoc (space name uid : String) : Json :=
  .object [("apiVersion", .string "v1"), ("kind", .string "Thing"), ("metadata", .object
    [("namespace", .string space), ("name", .string name), ("uid", .string uid)])]

/-- Two objects of one name; one changes and the other one goes. -/
def twoSpaces : List InformerEvent :=
  [.restarted [spacedDoc "north" "one" "a", spacedDoc "south" "one" "b"],
    .applied (spacedDoc "north" "one" "a"), .deleted (spacedDoc "south" "one" "b")]

/-- Then another object has the name of the one that is left. -/
def recreated : List Json := [spacedDoc "north" "one" "c", spacedDoc "south" "two" "d"]

/-- In the `changes` of `recreated`, the object that was created anew is an update, and the old one
is deleted. -/
theorem announced_of_recreated :
    Steady (twoSpaces ++ [.restarted recreated]) ∧
    (Action.delete, spacedDoc "north" "one" "a") ∈
      InformerEvent.changes (ObjectStore.applyAll [] twoSpaces) (.restarted recreated) := by
  have hsteady : Steady (twoSpaces ++ [.restarted recreated]) := by decide +kernel
  obtain ⟨-, hnext⟩ := hsteady.announced_eq_stored
  obtain ⟨-, hlists⟩ := hnext (.restarted recreated) rfl
  obtain ⟨-, hrecreated⟩ := hlists recreated rfl
  exact ⟨hsteady, (hrecreated (spacedDoc "north" "one" "c") List.mem_cons_self
    (spacedDoc "north" "one" "a") (by decide +kernel) (by decide +kernel)).1⟩

end InventorySync
