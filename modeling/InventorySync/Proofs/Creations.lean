import InventorySync.Proofs.Announced

/-!
# Creations and updates

An informer calls an object an update if it knows one of that namespace and name, and a creation
otherwise. While a stream goes on this is the same as knowing its uid, for an object that is made
anew under an old name is deleted first. A list can have the new object where the store still has
the old one, and then an object that nobody has heard of is an update.

## Key results

- `InformerEvent.eq_actionFor_of_mem_changes`: what is not a deletion is judged by its name
- `InformerEvent.KeepsUid.update_unstored_iff`: when an update is of an object that is not stored
- `KeepsUids.update_iff_supplants`: when the first that is heard of an object is an update
-/

namespace InventorySync

variable {store : ObjectStore} {event : InformerEvent}

/-! ## One event -/

namespace InformerEvent

/-- An object that is applied under a stored name has the uid that is stored there. -/
def KeepsUid (store : ObjectStore) : InformerEvent → Prop
  | .applied object => ∀ cached ∈ store.get? (.of object), uid? cached = uid? object
  | .deleted _ | .restarted _ => True

instance (store : ObjectStore) (event : InformerEvent) : Decidable (event.KeepsUid store) :=
  match event with
  | .applied object =>
    inferInstanceAs (Decidable (∀ cached ∈ store.get? (.of object), uid? cached = uid? object))
  | .deleted _ | .restarted _ => inferInstanceAs (Decidable True)

/-- A new list has an object in the place of another one: its name is stored, its uid is not. -/
def Supplants (store : ObjectStore) (event : InformerEvent) (object : Json) : Prop :=
  (∃ listed, event = .restarted listed ∧ object ∈ listed) ∧
    (store.get? (.of object)).isSome = true ∧ ∀ o ∈ store.objects, uid? o ≠ uid? object

/-- In the `changes` of an event what is not a deletion is judged by `actionFor`, by its name, and
was applied or is on a new list. -/
theorem eq_actionFor_of_mem_changes {d : Delivery} (hd : d ∈ event.changes store)
    (hne : d.1 ≠ .delete) :
    d.1 = store.actionFor d.2 ∧
      (event = .applied d.2 ∨ ∃ listed, event = .restarted listed ∧ d.2 ∈ listed) := by
  cases event with
  | applied object =>
    obtain rfl := List.mem_singleton.mp hd
    exact ⟨rfl, Or.inl rfl⟩
  | deleted object =>
    obtain rfl := List.mem_singleton.mp hd
    exact absurd rfl hne
  | restarted listed =>
    rcases List.mem_append.mp hd with hd | hd
    · obtain ⟨o, ho, rfl⟩ := List.mem_map.mp hd
      exact ⟨rfl, Or.inr ⟨listed, rfl, ho⟩⟩
    · obtain ⟨o, -, rfl⟩ := List.mem_map.mp hd
      exact absurd rfl hne

/-- Of every object an event is about, something is said in its `changes`. -/
theorem exists_mem_changes {object : Json} (h : object ∈ event.objects) :
    ∃ d ∈ event.changes store, d.2 = object := by
  cases event with
  | applied o | deleted o =>
    obtain rfl := List.mem_singleton.mp h
    exact ⟨_, List.mem_singleton_self _, rfl⟩
  | restarted listed =>
    exact ⟨(store.actionFor object, object),
      List.mem_append_left _ (List.mem_map_of_mem h), rfl⟩

end InformerEvent

theorem ObjectStore.actionFor_eq_update_iff (store : ObjectStore) (object : Json) :
    store.actionFor object = .update ↔ (store.get? (.of object)).isSome = true := by
  unfold actionFor
  split <;> simp [*]

/-- As long as an event keeps the uids of names, an update is of an object that is not stored
exactly where the event `Supplants` another one with it. -/
theorem InformerEvent.KeepsUid.update_unstored_iff (h : event.KeepsUid store) {d : Delivery}
    (hd : d ∈ event.changes store) (hne : d.1 ≠ .delete) :
    d.1 = .update ∧ (∀ o ∈ store.objects, uid? o ≠ uid? d.2) ↔ event.Supplants store d.2 := by
  obtain ⟨haction, hsource⟩ := eq_actionFor_of_mem_changes hd hne
  rw [haction, store.actionFor_eq_update_iff]
  constructor
  · rintro ⟨hname, huid⟩
    refine ⟨?_, hname, huid⟩
    rcases hsource with rfl | hlisted
    · -- What is applied has the uid that is stored under its name.
      obtain ⟨cached, hcached⟩ := Option.isSome_iff_exists.mp hname
      exact absurd (h cached hcached) (huid cached (ObjectStore.mem_objects_of_get? hcached))
    · exact hlisted
  · rintro ⟨-, hname, huid⟩
    exact ⟨hname, huid⟩

/-! ## A history -/

/-- A name gets another uid only by a deletion or a new list. -/
def KeepsUids (events : List InformerEvent) : Prop :=
  ∀ i, ∀ h : i < events.length, events[i].KeepsUid (ObjectStore.applyAll [] (events.take i))

instance (events : List InformerEvent) : Decidable (KeepsUids events) :=
  inferInstanceAs (Decidable (∀ i, ∀ h : i < events.length,
    events[i].KeepsUid (ObjectStore.applyAll [] (events.take i))))

/-- Of whatever `applyAll` stored, something was said among the `hands`. -/
theorem ObjectStore.exists_mem_hands {events : List InformerEvent} {object : Json}
    (h : object ∈ (applyAll [] events).objects) : ∃ d ∈ hands [] events, d.2 = object := by
  induction events using List.reverseRecOn with
  | nil => cases h
  | append_singleton events event ih =>
    rw [applyAll_append] at h
    rw [hands_append]
    rcases List.mem_append.mp (objects_apply_subset _ event h) with h | h
    · obtain ⟨d, hd, hobject⟩ := ih h
      exact ⟨d, List.mem_append_left _ hd, hobject⟩
    · obtain ⟨d, hd, hobject⟩ := event.exists_mem_changes h
      exact ⟨d, List.mem_append_right _ (List.mem_append_left _ hd), hobject⟩

namespace KeepsUids

variable {before after : List InformerEvent}

theorem keepsUid (h : KeepsUids (before ++ event :: after)) :
    event.KeepsUid (ObjectStore.applyAll [] before) := by
  have hat := h before.length (by simp)
  rw [List.take_left' rfl] at hat
  simpa using hat

/-- Whatever an informer is told, as long as names get other uids by deletions and new lists only:
an object is an update if its name is stored and a creation otherwise. It is an update without being
stored, or the first that is said of its uid is an update, exactly where the event `Supplants`
another object with it. -/
theorem update_iff_supplants (h : KeepsUids (before ++ event :: after)) :
    let store := ObjectStore.applyAll [] before
    ∀ d ∈ event.changes store, d.1 ≠ .delete →
      (d.1 = .update ∧ (store.get? (.of d.2)).isSome = true ∨
        d.1 = .create ∧ store.get? (.of d.2) = none) ∧
      (d.1 = .update ∧ (∀ o ∈ store.objects, uid? o ≠ uid? d.2) ↔ event.Supplants store d.2) ∧
      ((∀ e ∈ ObjectStore.hands [] before, uid? e.2 ≠ uid? d.2) →
        (d.1 = .update ↔ event.Supplants store d.2)) := by
  intro store d hd hne
  have hunstored := h.keepsUid.update_unstored_iff hd hne
  refine ⟨?_, hunstored, fun hunheard => ?_⟩
  · obtain ⟨haction, -⟩ := InformerEvent.eq_actionFor_of_mem_changes hd hne
    rw [haction]
    unfold ObjectStore.actionFor
    cases store.get? (.of d.2) <;> simp
  · -- Of whatever is stored something was said before.
    have huid : ∀ o ∈ store.objects, uid? o ≠ uid? d.2 := by
      intro o ho
      obtain ⟨e, he, rfl⟩ := ObjectStore.exists_mem_hands ho
      exact hunheard e he
    rw [← hunstored]
    exact ⟨fun hupdate => ⟨hupdate, huid⟩, And.left⟩

end KeepsUids

/-- The new list `recreated` `Supplants` an object with one of which nothing was said. -/
theorem supplants_of_recreated :
    KeepsUids (twoSpaces ++ [.restarted recreated]) ∧
    InformerEvent.Supplants (ObjectStore.applyAll [] twoSpaces) (.restarted recreated)
      (spacedDoc "north" "one" "c") := by
  have hkeeps : KeepsUids (twoSpaces ++ [.restarted recreated]) := by decide +kernel
  have hfirst := (hkeeps.update_iff_supplants (.update, spacedDoc "north" "one" "c")
    (by decide +kernel) (by decide)).2.2 (by decide +kernel)
  exact ⟨hkeeps, hfirst.mp rfl⟩

/-- With the list `recreated` after `twoSpaces`, every object has a uid and no name changes it but
by a new list, and yet the first that is said of a uid is an update, while the store has no object
with that uid. -/
theorem first_action_update :
    let listed := [spacedDoc "north" "one" "a"]
    let relisted := [spacedDoc "north" "one" "b"]
    let events := [InformerEvent.restarted listed, .restarted relisted]
    KeepsUids events ∧ (∀ o ∈ events.flatMap (·.objects), (uid? o).isSome = true) ∧
    (ObjectStore.hands [] events).find? (fun d => uid? d.2 = some "b") =
      some (.update, spacedDoc "north" "one" "b") ∧
    "b" ∉ (ObjectStore.applyAll [] [.restarted listed]).uids := by
  decide +kernel

end InventorySync
