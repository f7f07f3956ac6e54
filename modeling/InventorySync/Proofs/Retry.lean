import InventorySync.Retry

/-!
# The retry queue as a map

What each operation of the queue does to the item of an identifier, `RetryQueue.get?`, and which
queues the operations lead to.

## Key results

- `holds_eq_true_iff`, `complete_eq`: a generation is taken out exactly while it is the one queued
- `Valid`: every item is filed under its own identifier, is not newer than the newest generation,
  and has a place in the order; kept by every operation
- `mem_list_iff`: a listing holds exactly what is queued
- `Change`: the ways in which a queue changes at one identifier, with what all of them keep:
  `Valid`, the items of other identifiers, and `Evolves`
- `Recalls`: a generation never comes back with another record or action
-/

namespace InventorySync.RetryQueue

/-! ## Items -/

/-- `size` is zero exactly when `get?` gives nothing for any identifier. -/
theorem size_eq_zero_iff (q : RetryQueue) : q.size = 0 ↔ ∀ id, q.get? id = none := by
  have hempty : q.size = 0 ↔ q.slots = ∅ := by
    rw [size, ← Std.ExtTreeMap.isEmpty_iff, Std.ExtTreeMap.isEmpty_eq_size_beq_zero, beq_iff_eq]
  rw [hempty]
  constructor
  · intro h id
    rw [get?, h]
    rfl
  · intro h
    refine Std.ExtTreeMap.ext_getElem? fun id => ?_
    rw [Option.map_eq_none_iff.mp (h id), Std.ExtTreeMap.getElem?_empty]

theorem get?_add (q : RetryQueue) (r : Record) (a : Action) (id : String) :
    (q.add r a).2.get? id =
      if r.identifier = id then some ⟨r, a, 0, q.lastSeq + 1⟩ else q.get? id := by
  unfold add get?
  cases q.slots[r.identifier]? <;>
    simp only [Std.ExtTreeMap.getElem?_insert, Std.compare_eq_iff_eq] <;> split <;> simp

theorem lastSeq_add (q : RetryQueue) (r : Record) (a : Action) :
    (q.add r a).2.lastSeq = q.lastSeq + 1 := by
  unfold add
  cases q.slots[r.identifier]? <;> rfl

@[simp] theorem get?_list (q : RetryQueue) (id : String) : q.list.2.get? id = q.get? id := rfl

/-- `remove` erases the slot of its identifier and no other, whatever becomes of the order. -/
theorem slots_remove (q : RetryQueue) (id : String) : (q.remove id).2.slots = q.slots.erase id := by
  unfold remove
  cases h : q.slots[id]? with
  | none =>
    refine Std.ExtTreeMap.ext_getElem? fun id' => ?_
    simp only [Std.ExtTreeMap.getElem?_erase, Std.compare_eq_iff_eq]
    split
    next hid => rw [← hid, h]
    next => rfl
  | some slot =>
    dsimp only
    split
    · rfl
    · split <;> rfl

theorem get?_remove (q : RetryQueue) (id id' : String) :
    (q.remove id).2.get? id' = if id = id' then none else q.get? id' := by
  simp only [get?, slots_remove, Std.ExtTreeMap.getElem?_erase, Std.compare_eq_iff_eq]
  split <;> simp

@[simp] theorem lastSeq_remove (q : RetryQueue) (id : String) :
    (q.remove id).2.lastSeq = q.lastSeq := by
  unfold remove
  cases q.slots[id]? with
  | none => rfl
  | some slot =>
    dsimp only
    split
    · rfl
    · split <;> rfl

/-! ## Generations -/

theorem holds_eq_true_iff (q : RetryQueue) (id : String) (seq : Nat) :
    q.holds id seq = true ↔ ∃ item, q.get? id = some item ∧ item.seq = seq := by
  unfold holds
  cases q.get? id <;> simp

theorem holds_congr {q q' : RetryQueue} {id : String} (h : q'.get? id = q.get? id) (seq : Nat) :
    q'.holds id seq = q.holds id seq := by
  unfold holds
  rw [h]

/-- `complete` takes out a generation exactly while the queue `holds` it. -/
theorem complete_eq (q : RetryQueue) (id : String) (seq : Nat) :
    q.complete id seq = (q.holds id seq, if q.holds id seq then (q.remove id).2 else q) := by
  unfold complete
  split
  next h =>
    obtain ⟨item, hget, -⟩ := (holds_eq_true_iff q id seq).mp h
    obtain ⟨slot, hslot, -⟩ := Option.map_eq_some_iff.mp hget
    simp [h, remove, hslot]
  next h => simp [h]

theorem get?_recordFailure (q : RetryQueue) (id : String) (seq : Nat) (id' : String) :
    (q.recordFailure id seq).get? id' =
      if q.holds id seq = true ∧ id = id' then (q.get? id').map RetryItem.failedOnce
      else q.get? id' := by
  unfold recordFailure
  by_cases h : q.holds id seq = true
  · by_cases hid : id = id'
    · subst hid
      simp [h, get?, Function.comp_def]
    · simp [h, hid, get?, Std.ExtTreeMap.getElem?_modify]
  · simp [h]

@[simp] theorem lastSeq_recordFailure (q : RetryQueue) (id : String) (seq : Nat) :
    (q.recordFailure id seq).lastSeq = q.lastSeq := by
  unfold recordFailure
  split <;> rfl

/-! ## Valid queues -/

/-- What every operation of the queue keeps: an item is `filed` under its own identifier, is no
newer than `lastSeq`, and has a place in `order`. -/
structure Valid (q : RetryQueue) : Prop where
  filed : ∀ {id item}, q.get? id = some item → item.identifier = id
  seq_le : ∀ {id item}, q.get? id = some item → item.seq ≤ q.lastSeq
  placed : ∀ {id slot}, q.slots[id]? = some slot → (slot.ticket, id) ∈ q.order

theorem valid_empty : empty.Valid where
  filed h := by simp [empty, get?] at h
  seq_le h := by simp [empty, get?] at h
  placed h := by simp [empty] at h

theorem Valid.add {q : RetryQueue} (hq : q.Valid) (r : Record) (a : Action) :
    (q.add r a).2.Valid where
  filed {id item} h := by
    rw [get?_add] at h
    split at h
    next hid =>
      obtain rfl := Option.some.inj h
      exact hid
    next => exact hq.filed h
  seq_le {id item} h := by
    rw [get?_add] at h
    rw [lastSeq_add]
    split at h
    next =>
      obtain rfl := Option.some.inj h
      exact Nat.le_refl _
    next => exact Nat.le_succ_of_le (hq.seq_le h)
  placed {id slot} h := by
    unfold RetryQueue.add at h ⊢
    cases hslot : q.slots[r.identifier]? with
    -- The first item of an identifier gets a place at the end.
    | none =>
      simp only [hslot, Std.ExtTreeMap.getElem?_insert, Std.compare_eq_iff_eq] at h ⊢
      split at h
      next hid =>
        obtain rfl := Option.some.inj h
        simp [hid]
      next => exact Array.mem_push_of_mem _ (hq.placed h)
    | some old =>
      simp only [hslot, Std.ExtTreeMap.getElem?_insert, Std.compare_eq_iff_eq] at h ⊢
      split at h
      next hid =>
        -- A newer item keeps the place of the one that it replaces.
        obtain rfl := Option.some.inj h
        show (old.ticket, id) ∈ q.order
        exact hq.placed (hid ▸ hslot)
      next => exact hq.placed h

theorem isLive_eq_true_iff (q : RetryQueue) (ticket : Nat) (id : String) :
    q.isLive (ticket, id) = true ↔ ∃ slot, q.slots[id]? = some slot ∧ slot.ticket = ticket := by
  unfold isLive
  cases q.slots[id]? <;> simp

theorem Valid.prune {q : RetryQueue} (hq : q.Valid) : q.prune.Valid where
  filed h := hq.filed h
  seq_le h := hq.seq_le h
  placed {id slot} h := by
    refine Array.mem_filter.mpr ⟨hq.placed h, ?_⟩
    exact (isLive_eq_true_iff q slot.ticket id).mpr ⟨slot, h, rfl⟩

theorem Valid.list {q : RetryQueue} (hq : q.Valid) : q.list.2.Valid := hq.prune

theorem Valid.remove {q : RetryQueue} (hq : q.Valid) (id : String) : (q.remove id).2.Valid := by
  have filed : ∀ {id' item}, (q.remove id).2.get? id' = some item → item.identifier = id' := by
    intro id' item h
    rw [get?_remove] at h
    split at h
    · cases h
    · exact hq.filed h
  have seq_le : ∀ {id' item}, (q.remove id).2.get? id' = some item →
      item.seq ≤ (q.remove id).2.lastSeq := by
    intro id' item h
    rw [get?_remove] at h
    rw [lastSeq_remove]
    split at h
    · cases h
    · exact hq.seq_le h
  refine ⟨filed, seq_le, fun {id' slot'} h => ?_⟩
  simp only [slots_remove, Std.ExtTreeMap.getElem?_erase, Std.compare_eq_iff_eq] at h
  split at h
  next => cases h
  next hne =>
    have hplace := hq.placed h
    unfold RetryQueue.remove
    cases hslot : q.slots[id]? with
    | none => exact hplace
    | some slot =>
      dsimp only
      split
      next hempty =>
        -- The order is cleared only when nothing is queued any more.
        have hnone : (q.slots.erase id)[id']? = none := by
          rw [Std.ExtTreeMap.isEmpty_iff.mp hempty, Std.ExtTreeMap.getElem?_empty]
        simp [Std.ExtTreeMap.getElem?_erase, hne, h] at hnone
      next =>
        -- Pruning drops dead tickets alone, and this one is live.
        split
        · refine Array.mem_filter.mpr ⟨hplace, ?_⟩
          refine (isLive_eq_true_iff _ slot'.ticket id').mpr ⟨slot', ?_, rfl⟩
          simp [Std.ExtTreeMap.getElem?_erase, hne, h]
        · exact hplace

theorem Valid.complete {q : RetryQueue} (hq : q.Valid) (id : String) (seq : Nat) :
    (q.complete id seq).2.Valid := by
  rw [complete_eq]
  dsimp only
  split
  · exact hq.remove id
  · exact hq

theorem Valid.recordFailure {q : RetryQueue} (hq : q.Valid) (id : String) (seq : Nat) :
    (q.recordFailure id seq).Valid where
  -- An item whose failure is counted keeps its record, its number and its place.
  filed {id' item} h := by
    rw [get?_recordFailure] at h
    split at h
    next =>
      obtain ⟨old, hold, rfl⟩ := Option.map_eq_some_iff.mp h
      show old.identifier = id'
      exact hq.filed hold
    next => exact hq.filed h
  seq_le {id' item} h := by
    rw [get?_recordFailure] at h
    rw [lastSeq_recordFailure]
    split at h
    next =>
      obtain ⟨old, hold, rfl⟩ := Option.map_eq_some_iff.mp h
      show old.seq ≤ q.lastSeq
      exact hq.seq_le hold
    next => exact hq.seq_le h
  -- The order is left alone.
  placed {id' slot} h := by
    unfold RetryQueue.recordFailure at h ⊢
    split at h
    next hholds =>
      simp only [Std.ExtTreeMap.getElem?_modify, Std.compare_eq_iff_eq] at h
      rw [if_pos hholds]
      split at h
      next hid =>
        obtain ⟨old, hold, rfl⟩ := Option.map_eq_some_iff.mp h
        show (old.ticket, id') ∈ q.order
        exact hq.placed (hid ▸ hold)
      next => exact hq.placed h
    next hholds =>
      rw [if_neg hholds]
      exact hq.placed h

/-! ## Listings -/

/-- Every item of `list` is what `get?` gives for some identifier. -/
theorem get?_of_mem_list {q : RetryQueue} {item : RetryItem} (h : item ∈ q.list.1) :
    ∃ id, q.get? id = some item := by
  obtain ⟨entry, -, hget⟩ := List.mem_filterMap.mp h
  exact ⟨entry.2, hget⟩

/-- In a queue that is `Valid`, `list` has exactly the items that `get?` gives. -/
theorem mem_list_iff {q : RetryQueue} (hq : q.Valid) (item : RetryItem) :
    item ∈ q.list.1 ↔ q.get? item.identifier = some item := by
  constructor
  · intro h
    obtain ⟨id, hget⟩ := get?_of_mem_list h
    rwa [hq.filed hget]
  -- What is queued has a place, and a live place survives pruning.
  · intro h
    obtain ⟨slot, hslot, rfl⟩ := Option.map_eq_some_iff.mp h
    refine List.mem_filterMap.mpr ⟨(slot.ticket, slot.item.identifier), ?_, h⟩
    exact Array.mem_toList_iff.mpr (hq.prune.placed hslot)

/-! ## Changes at one identifier -/

/-- A listing, or a change of what is queued for `id`. -/
inductive Change (id : String) : RetryQueue → RetryQueue → Prop
  | keep (q) : Change id q q
  | list (q) : Change id q q.list.2
  | add (q r a) (h : r.identifier = id) : Change id q (q.add r a).2
  | remove (q) : Change id q (q.remove id).2
  | complete (q seq) : Change id q (q.complete id seq).2
  | recordFailure (q seq) : Change id q (q.recordFailure id seq)

theorem Change.valid {id : String} {q q' : RetryQueue} (h : Change id q q') (hq : q.Valid) :
    q'.Valid := by
  cases h with
  | keep => exact hq
  | list => exact hq.list
  | add r a => exact hq.add r a
  | remove => exact hq.remove id
  | complete seq => exact hq.complete id seq
  | recordFailure seq => exact hq.recordFailure id seq

/-- A `Change` at `id` leaves `get?` alone at other identifiers. -/
theorem Change.get?_of_ne {id id' : String} {q q' : RetryQueue} (h : Change id q q')
    (hne : id ≠ id') : q'.get? id' = q.get? id' := by
  cases h with
  | keep => rfl
  | list => rfl
  | add r a hid => rw [get?_add, if_neg (hid ▸ hne)]
  | remove => rw [get?_remove, if_neg hne]
  | complete seq =>
    rw [complete_eq]
    dsimp only
    split
    · rw [get?_remove, if_neg hne]
    · rfl
  | recordFailure seq =>
    rw [get?_recordFailure, if_neg]
    exact fun hboth => hne hboth.2

/-- Every item of `q'` is one of `q`, its failures aside, or newer than all of `q`. -/
structure Evolves (q q' : RetryQueue) : Prop where
  lastSeq_le : q.lastSeq ≤ q'.lastSeq
  old_or_new : ∀ {id item'}, q'.get? id = some item' → q.lastSeq < item'.seq ∨
    ∃ item, q.get? id = some item ∧ item.seq = item'.seq ∧ item.record = item'.record ∧
      item.action = item'.action

theorem Evolves.refl (q : RetryQueue) : q.Evolves q :=
  ⟨Nat.le_refl _, fun h => Or.inr ⟨_, h, rfl, rfl, rfl⟩⟩

theorem evolves_remove (q : RetryQueue) (id : String) : q.Evolves (q.remove id).2 where
  lastSeq_le := Nat.le_of_eq (lastSeq_remove q id).symm
  old_or_new {id' item'} h := by
    rw [get?_remove] at h
    split at h
    · cases h
    · exact Or.inr ⟨item', h, rfl, rfl, rfl⟩

theorem Change.evolves {id : String} {q q' : RetryQueue} (h : Change id q q') : q.Evolves q' := by
  cases h with
  | keep => exact .refl q
  | list => exact ⟨Nat.le_refl _, fun h => Or.inr ⟨_, h, rfl, rfl, rfl⟩⟩
  | add r a =>
    refine ⟨?_, fun {id' item'} h => ?_⟩
    · rw [lastSeq_add]
      exact Nat.le_succ _
    · rw [get?_add] at h
      split at h
      next =>
        obtain rfl := Option.some.inj h
        exact Or.inl (Nat.lt_succ_self _)
      next => exact Or.inr ⟨item', h, rfl, rfl, rfl⟩
  | remove => exact evolves_remove q id
  | complete seq =>
    rw [complete_eq]
    dsimp only
    split
    · exact evolves_remove q id
    · exact .refl q
  -- A failure is counted on the item and makes no new generation.
  | recordFailure seq =>
    refine ⟨Nat.le_of_eq (lastSeq_recordFailure q id seq).symm, fun {id' item'} h => ?_⟩
    rw [get?_recordFailure] at h
    split at h
    next =>
      obtain ⟨item, hget, rfl⟩ := Option.map_eq_some_iff.mp h
      exact Or.inr ⟨item, hget, rfl, rfl, rfl⟩
    next => exact Or.inr ⟨item', h, rfl, rfl, rfl⟩

/-- An item that was queued once: if its generation is still the one queued, then with the same
record and action. -/
def Recalls (q : RetryQueue) (item : RetryItem) : Prop :=
  item.seq ≤ q.lastSeq ∧ ∀ queued, q.get? item.identifier = some queued → queued.seq = item.seq →
    queued.record = item.record ∧ queued.action = item.action

theorem Evolves.recalls {q q' : RetryQueue} (h : q.Evolves q') {item : RetryItem}
    (hitem : q.Recalls item) : q'.Recalls item := by
  refine ⟨Nat.le_trans hitem.1 h.lastSeq_le, fun queued hget hseq => ?_⟩
  rcases h.old_or_new hget with hnew | ⟨old, hold, hseq', hrecord, haction⟩
  · -- A new item is newer than any that was queued when this one was.
    have := hitem.1
    omega
  · rw [← hrecord, ← haction]
    exact hitem.2 old hold (hseq'.trans hseq)

theorem recalls_of_mem_list {q : RetryQueue} (hq : q.Valid) {item : RetryItem}
    (h : item ∈ q.list.1) : q.Recalls item := by
  have hget := (mem_list_iff hq item).mp h
  refine ⟨hq.seq_le hget, fun queued hqueued _ => ?_⟩
  obtain rfl := Option.some.inj (hget.symm.trans hqueued)
  exact ⟨rfl, rfl⟩

end InventorySync.RetryQueue
