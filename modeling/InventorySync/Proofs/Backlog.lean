import InventorySync.Proofs.Commands
import InventorySync.Proofs.Lists
import InventorySync.Proofs.Retry

/-!
# The retry queue as a list

A queue of failed sends stands for a list with one item for each identifier. A new item takes the
place of the older one of its identifier or goes to the end, and what is taken out leaves no gap.
Tickets, dead ones and their pruning are the queue's own affair: no answer that it gives tells it
from the list.

## Key results

- `places_add_of_none`, `places_add_of_some`, `places_remove`: the identifiers in their order, and
  what each operation does to them
- `Mirrors`: a queue and the list that it stands for; every command keeps this and is answered alike
  by both (`Mirrors.answer`)
- `balance_run`: what was added is queued, was replaced, or was taken out
- `queue_follows_backlog`: any commands, from a new queue
-/

namespace InventorySync

/-! ## The list -/

/-- Failed sends in their order, one for each identifier, with the number of items that were ever
added and the number of those that were replaced: a plain list that `RetryQueue.Mirrors` stands for.
-/
structure Backlog where
  items : List RetryItem
  distinct : (items.map RetryItem.identifier).Nodup
  added : Nat
  superseded : Nat

namespace Backlog

/-- The identifiers in their order. -/
def identifiers (b : Backlog) : List String := b.items.map RetryItem.identifier

/-- The list with nothing in it. -/
def empty : Backlog := ⟨[], List.nodup_nil, 0, 0⟩

/-- The item of an identifier. -/
def get? (b : Backlog) (id : String) : Option RetryItem := b.items.find? fun i => i.identifier = id

theorem get?_eq_some_iff (b : Backlog) (id : String) (item : RetryItem) :
    b.get? id = some item ↔ item ∈ b.items ∧ item.identifier = id :=
  find?_key_eq_some_iff b.distinct id item

theorem get?_eq_none_iff (b : Backlog) (id : String) :
    b.get? id = none ↔ id ∉ b.identifiers := by
  simp [get?, identifiers]

/-- Change items in their places. -/
def revise (b : Backlog) (f : RetryItem → RetryItem)
    (keeps : ∀ i, (f i).identifier = i.identifier) : Backlog :=
  { b with
    items := b.items.map f
    distinct := by
      have hids : (b.items.map f).map RetryItem.identifier = b.items.map RetryItem.identifier := by
        simp [keeps]
      rw [hids]
      exact b.distinct }

/-- Put an item in the place of the one of its identifier. -/
def replace (b : Backlog) (item : RetryItem) : Backlog :=
  b.revise (fun i => if i.identifier = item.identifier then item else i) fun i => by
    split
    next h => exact h.symm
    next => rfl

/-- Put an item of a new identifier at the end. -/
def append (b : Backlog) (item : RetryItem) (fresh : b.get? item.identifier = none) : Backlog :=
  { b with
    items := b.items ++ [item]
    distinct := by
      have hnew := (b.get?_eq_none_iff item.identifier).mp fresh
      rw [List.map_append]
      exact b.distinct.append (List.nodup_singleton _) (by simpa [identifiers] using hnew) }

/-- Leave out the item of an identifier. -/
def without (b : Backlog) (id : String) : Backlog :=
  { b with
    items := b.items.filter fun i => i.identifier ≠ id
    distinct := b.distinct.sublist (List.filter_sublist.map _) }

/-! ## What the list is for -/

/-- Queue a record under a generation of its own: in the place of the identifier's older item, or at
the end. Says whether there was an older one. -/
def add (b : Backlog) (record : Record) (action : Action) : Bool × Backlog :=
  let item : RetryItem := ⟨record, action, 0, b.added + 1⟩
  if fresh : b.get? record.identifier = none then
    (false, { b.append item fresh with added := b.added + 1 })
  else
    (true, { b.replace item with added := b.added + 1, superseded := b.superseded + 1 })

/-- Whether this generation is the one queued for the identifier. -/
def holds (b : Backlog) (id : String) (seq : Nat) : Bool :=
  b.items.any fun i => i.identifier = id ∧ i.seq = seq

/-- Drop the item of an identifier. -/
def remove (b : Backlog) (id : String) : Option RetryItem × Backlog := (b.get? id, b.without id)

/-- Drop an item if it is still the generation that was sent; says whether it was. -/
def complete (b : Backlog) (id : String) (seq : Nat) : Bool × Backlog :=
  if b.holds id seq then (true, b.without id) else (false, b)

/-- Count one more failure of the generation that was sent, up to the largest number of 32 bits. -/
def recordFailure (b : Backlog) (id : String) (seq : Nat) : Backlog :=
  b.revise
    (fun i =>
      if i.identifier = id ∧ i.seq = seq then
        { i with failures := min (i.failures + 1) 4294967295 }
      else i)
    (fun i => by split <;> rfl)

variable (b : Backlog)

@[simp] theorem identifiers_revise (f : RetryItem → RetryItem)
    (keeps : ∀ i, (f i).identifier = i.identifier) :
    (b.revise f keeps).identifiers = b.identifiers := by
  simp [identifiers, revise, keeps]

@[simp] theorem identifiers_replace (item : RetryItem) :
    (b.replace item).identifiers = b.identifiers := b.identifiers_revise _ _

@[simp] theorem identifiers_append (item : RetryItem) (fresh : b.get? item.identifier = none) :
    (b.append item fresh).identifiers = b.identifiers ++ [item.identifier] := by
  simp [identifiers, append]

@[simp] theorem identifiers_without (id : String) :
    (b.without id).identifiers = b.identifiers.filter (· ≠ id) := by
  simp [identifiers, without, List.filter_map, Function.comp_def]

theorem get?_revise (f : RetryItem → RetryItem) (keeps : ∀ i, (f i).identifier = i.identifier)
    (id : String) : (b.revise f keeps).get? id = (b.get? id).map f := by
  simp only [get?, revise, List.find?_map, Function.comp_def, keeps]

/-- After `replace`, `get?` gives the new item for its identifier, if that has a place. -/
theorem get?_replace (item : RetryItem) (known : b.get? item.identifier ≠ none) (id : String) :
    (b.replace item).get? id = if item.identifier = id then some item else b.get? id := by
  rw [replace, get?_revise]
  cases hget : b.get? id with
  | none =>
    have hne : item.identifier ≠ id := fun hid => known (hid ▸ hget)
    simp [hne]
  | some old =>
    have hold := ((b.get?_eq_some_iff _ _).mp hget).2
    by_cases hid : item.identifier = id
    · simp [hid, hold]
    · simp [hid, hold, Ne.symm hid]

theorem get?_append (item : RetryItem) (fresh : b.get? item.identifier = none) (id : String) :
    (b.append item fresh).get? id =
      if item.identifier = id then some item else b.get? id := by
  show (b.items ++ [item]).find? _ = _
  rw [List.find?_append]
  by_cases h : item.identifier = id
  · have hnone : (b.items.find? fun i => i.identifier = id) = none := h ▸ fresh
    simp [hnone, h]
  · simp [get?, h]

theorem get?_without (id id' : String) :
    (b.without id).get? id' = if id = id' then none else b.get? id' := by
  apply Option.ext
  intro item
  rw [get?_eq_some_iff]
  show item ∈ b.items.filter _ ∧ _ ↔ _
  rw [List.mem_filter, decide_eq_true_eq]
  by_cases h : id = id'
  · subst h
    simp
  · rw [if_neg h, get?_eq_some_iff]
    constructor
    · intro hall
      exact ⟨hall.1.1, hall.2⟩
    · intro hall
      exact ⟨⟨hall.1, fun hsame => h (hsame.symm.trans hall.2)⟩, hall.2⟩

theorem add_fst (record : Record) (action : Action) :
    (b.add record action).1 = (b.get? record.identifier).isSome := by
  unfold add
  dsimp only
  split
  next fresh => simp [fresh]
  next known => simpa [Option.isSome_iff_ne_none] using known

/-- `add` gives a place to an identifier that is new, the last one, and to no other. -/
theorem identifiers_add (record : Record) (action : Action) :
    (b.add record action).2.identifiers =
      if b.get? record.identifier = none then b.identifiers ++ [record.identifier]
      else b.identifiers := by
  unfold add
  dsimp only
  split
  next fresh => exact b.identifiers_append ⟨record, action, 0, b.added + 1⟩ fresh
  next known => exact b.identifiers_replace _

theorem added_add (record : Record) (action : Action) :
    (b.add record action).2.added = b.added + 1 := by
  unfold add
  dsimp only
  split <;> rfl

theorem superseded_add (record : Record) (action : Action) :
    (b.add record action).2.superseded =
      if b.get? record.identifier = none then b.superseded else b.superseded + 1 := by
  unfold add
  dsimp only
  split <;> rfl

/-- After `add`, `get?` gives the new item for its identifier, and the old ones for others. -/
theorem get?_add (record : Record) (action : Action) (id : String) :
    (b.add record action).2.get? id =
      if record.identifier = id then some ⟨record, action, 0, b.added + 1⟩ else b.get? id := by
  unfold add
  dsimp only
  split
  next fresh => exact b.get?_append ⟨record, action, 0, b.added + 1⟩ fresh id
  next known => exact b.get?_replace ⟨record, action, 0, b.added + 1⟩ known id

theorem holds_eq_true_iff (id : String) (seq : Nat) :
    b.holds id seq = true ↔ ∃ item, b.get? id = some item ∧ item.seq = seq := by
  simp only [holds, List.any_eq_true, decide_eq_true_eq, get?_eq_some_iff]
  constructor
  · intro ⟨item, hmem, hid, hseq⟩
    exact ⟨item, ⟨hmem, hid⟩, hseq⟩
  · intro ⟨item, ⟨hmem, hid⟩, hseq⟩
    exact ⟨item, hmem, hid, hseq⟩

theorem get?_recordFailure (id : String) (seq : Nat) (id' : String) :
    (b.recordFailure id seq).get? id' =
      if b.holds id seq = true ∧ id = id' then
        (b.get? id').map fun i => { i with failures := min (i.failures + 1) 4294967295 }
      else b.get? id' := by
  rw [recordFailure, get?_revise]
  cases hget : b.get? id' with
  | none => simp
  | some item =>
    have hid := ((b.get?_eq_some_iff _ _).mp hget).2
    -- The identifier's own item is the generation that was sent, or another one.
    have hcond : (item.identifier = id ∧ item.seq = seq) ↔ (b.holds id seq = true ∧ id = id') := by
      rw [holds_eq_true_iff, hid]
      constructor
      · intro ⟨hsame, hseq⟩
        subst hsame
        exact ⟨⟨item, hget, hseq⟩, rfl⟩
      · intro ⟨⟨other, hother, hseq⟩, hsame⟩
        subst hsame
        have : other = item := Option.some.inj (hother.symm.trans hget)
        exact ⟨rfl, this ▸ hseq⟩
    simp only [Option.map_some, hcond]
    split <;> rfl

end Backlog

/-- `RetryItem.failedOnce` counts as the list does. -/
theorem RetryItem.failedOnce_eq :
    failedOnce = fun i => { i with failures := min (i.failures + 1) 4294967295 } := rfl

/-! ## The places of a queue -/

namespace RetryQueue

variable {q : RetryQueue}

/-- The place of an identifier. -/
def ticket? (q : RetryQueue) (id : String) : Option Nat := q.slots[id]?.map (·.ticket)

/-- The identifiers that have a place, in their order. -/
def places (q : RetryQueue) : List String := (q.order.toList.filter q.isLive).map (·.2)

theorem isLive_eq (q : RetryQueue) (entry : Nat × String) :
    q.isLive entry = decide (q.ticket? entry.2 = some entry.1) := by
  unfold isLive ticket?
  cases q.slots[entry.2]? with
  | none => rfl
  | some slot => simp [beq_eq_decide]

/-- Queues with the same `order` and the same tickets have the same `places`. -/
theorem places_congr {q' : RetryQueue} (horder : q'.order = q.order)
    (hticket : ∀ id, q'.ticket? id = q.ticket? id) : q'.places = q.places := by
  have hlive : q'.isLive = q.isLive := by
    funext entry
    rw [isLive_eq, isLive_eq, hticket]
  rw [places, places, horder, hlive]

theorem mem_places {id : String} (h : id ∈ q.places) : ∃ slot, q.slots[id]? = some slot := by
  obtain ⟨⟨ticket, id'⟩, hentry, rfl⟩ := List.mem_map.mp h
  obtain ⟨slot, hslot, -⟩ := (isLive_eq_true_iff q ticket id').mp (List.mem_filter.mp hentry).2
  exact ⟨slot, hslot⟩

@[simp] theorem places_prune (q : RetryQueue) : q.prune.places = q.places := by
  show ((q.order.filter q.isLive).toList.filter q.isLive).map (·.2) = q.places
  rw [Array.toList_filter, List.filter_filter]
  simp [places]

/-- `list` goes through the `places`. -/
theorem list_eq (q : RetryQueue) : q.list.1 = q.places.filterMap q.get? := by
  show ((q.order.filter q.isLive).toList.filterMap fun entry => q.get? entry.2) = _
  rw [Array.toList_filter, places, List.filterMap_map]
  rfl

/-- What `add` of the first item of an identifier does to the queue. -/
theorem add_of_none {record : Record} (action : Action)
    (h : q.slots[record.identifier]? = none) :
    (q.add record action).2 =
      { q with
        slots := q.slots.insert record.identifier
          ⟨⟨record, action, 0, q.lastSeq + 1⟩, q.lastSeq + 1⟩
        order := q.order.push (q.lastSeq + 1, record.identifier)
        lastSeq := q.lastSeq + 1 } := by
  simp [add, h]

theorem ticket?_add_of_none {record : Record} (action : Action)
    (h : q.slots[record.identifier]? = none) (id : String) :
    (q.add record action).2.ticket? id =
      if record.identifier = id then some (q.lastSeq + 1) else q.ticket? id := by
  rw [add_of_none action h]
  simp only [ticket?, Std.ExtTreeMap.getElem?_insert, Std.compare_eq_iff_eq]
  split <;> rfl

/-- `add` of the first item of an identifier puts it at the end of the `places`. Its ticket is newer
than any other, so no dead ticket comes to life. -/
theorem places_add_of_none (htickets : ∀ entry ∈ q.order, entry.1 ≤ q.lastSeq) {record : Record}
    (action : Action) (h : q.slots[record.identifier]? = none) :
    (q.add record action).2.places = q.places ++ [record.identifier] := by
  have hnone : q.ticket? record.identifier = none := by simp [ticket?, h]
  have hlast : (q.add record action).2.isLive (q.lastSeq + 1, record.identifier) = true := by
    simp [isLive_eq, ticket?_add_of_none action h]
  have hothers : q.order.toList.filter (q.add record action).2.isLive =
      q.order.toList.filter q.isLive := by
    apply List.filter_congr
    intro entry hentry
    have hle := htickets entry (Array.mem_toList_iff.mp hentry)
    rw [isLive_eq, isLive_eq, ticket?_add_of_none action h]
    by_cases hid : record.identifier = entry.2
    · rw [if_pos hid, ← hid, hnone]
      have hne : entry.1 ≠ q.lastSeq + 1 := by omega
      simp [Ne.symm hne]
    · rw [if_neg hid]
  have horder : (q.add record action).2.order.toList =
      q.order.toList ++ [(q.lastSeq + 1, record.identifier)] := by
    rw [add_of_none action h, Array.toList_push]
  rw [places, horder, List.filter_append, hothers, List.map_append]
  simp [places, hlast]

/-- `add` of a newer item leaves the `places` alone: it has the place of the one that it replaces.
-/
theorem places_add_of_some {record : Record} (action : Action) {slot : RetrySlot}
    (h : q.slots[record.identifier]? = some slot) :
    (q.add record action).2.places = q.places := by
  apply places_congr
  · simp [add, h]
  · intro id
    simp only [add, h, ticket?, Std.ExtTreeMap.getElem?_insert, Std.compare_eq_iff_eq]
    split
    next hid => simp [← hid, h]
    next => rfl

/-- The queue without the slot of an identifier, the order as it was. -/
def eraseSlot (q : RetryQueue) (id : String) : RetryQueue := { q with slots := q.slots.erase id }

/-- `remove` erases the slot of its identifier, if there is one; then the order is emptied with the
queue, pruned, or left while it is not too long for the items that are still queued. -/
theorem remove_cases (q : RetryQueue) (id : String) :
    (q.slots[id]? = none ∧ (q.remove id).2 = q) ∨
    (q.slots.erase id = ∅ ∧ (q.remove id).2 = { q.eraseSlot id with order := #[] }) ∨
    (q.remove id).2 = (q.eraseSlot id).prune ∨
    (q.slots.erase id ≠ ∅ ∧ q.order.size ≤ 2 * (q.slots.erase id).size + 64 ∧
      (q.remove id).2 = q.eraseSlot id) := by
  unfold remove
  cases hslot : q.slots[id]? with
  | none => exact .inl ⟨rfl, rfl⟩
  | some slot =>
    right
    dsimp only
    split
    next hempty => exact .inl ⟨Std.ExtTreeMap.isEmpty_iff.mp hempty, rfl⟩
    next hleft =>
      split
      · exact .inr (.inl rfl)
      next hshort =>
        refine .inr (.inr ⟨?_, Nat.le_of_not_lt hshort, rfl⟩)
        exact fun hempty => hleft (Std.ExtTreeMap.isEmpty_iff.mpr hempty)

theorem places_eraseSlot (q : RetryQueue) (id : String) :
    (q.eraseSlot id).places = q.places.filter (· ≠ id) := by
  have hlive : ∀ entry : Nat × String,
      (q.eraseSlot id).isLive entry = (decide (entry.2 ≠ id) && q.isLive entry) := by
    intro entry
    rw [isLive_eq, isLive_eq]
    simp only [eraseSlot, ticket?, Std.ExtTreeMap.getElem?_erase, Std.compare_eq_iff_eq]
    by_cases hid : id = entry.2
    · simp [hid]
    · simp [hid, Ne.symm hid]
  rw [places, places, List.filter_map, List.filter_filter]
  congr 1
  apply List.filter_congr
  intro entry _
  exact hlive entry

/-- `remove` leaves the `places` of other identifiers, whatever becomes of the order. -/
theorem places_remove (q : RetryQueue) (id : String) :
    (q.remove id).2.places = q.places.filter (· ≠ id) := by
  obtain ⟨hnone, hsame⟩ | ⟨hempty, hcleared⟩ | hpruned | ⟨-, -, hleft⟩ := q.remove_cases id
  · -- What has no slot has no place either.
    rw [hsame]
    symm
    apply List.filter_eq_self.mpr
    intro id' hid'
    obtain ⟨slot, hslot⟩ := mem_places hid'
    have hne : id' ≠ id := by
      intro hid
      rw [hid, hnone] at hslot
      cases hslot
    simpa using hne
  · -- Without slots there are no places, so the order may as well be empty.
    rw [hcleared, ← places_eraseSlot]
    symm
    apply List.eq_nil_iff_forall_not_mem.mpr
    intro id' hid'
    obtain ⟨slot, hslot⟩ := mem_places hid'
    have hslots : (q.eraseSlot id).slots = ∅ := hempty
    rw [hslots, Std.ExtTreeMap.getElem?_empty] at hslot
    cases hslot
  · rw [hpruned, places_prune, places_eraseSlot]
  · rw [hleft, places_eraseSlot]

theorem add_fst (q : RetryQueue) (record : Record) (action : Action) :
    (q.add record action).1 = (q.get? record.identifier).isSome := by
  unfold add get?
  cases q.slots[record.identifier]? <;> rfl

theorem superseded_add (q : RetryQueue) (record : Record) (action : Action) :
    (q.add record action).2.superseded =
      if q.get? record.identifier = none then q.superseded else q.superseded + 1 := by
  unfold add get?
  cases q.slots[record.identifier]? <;> simp

theorem mem_order_add {record : Record} {action : Action} {entry : Nat × String}
    (h : entry ∈ (q.add record action).2.order) :
    entry ∈ q.order ∨ entry.1 = q.lastSeq + 1 := by
  unfold add at h
  cases hslot : q.slots[record.identifier]? with
  | none =>
    simp only [hslot, Array.mem_push] at h
    exact h.imp_right fun hnew => by rw [hnew]
  | some slot =>
    rw [hslot] at h
    exact Or.inl h

@[simp] theorem superseded_remove (q : RetryQueue) (id : String) :
    (q.remove id).2.superseded = q.superseded := by
  obtain ⟨-, h⟩ | ⟨-, h⟩ | h | ⟨-, -, h⟩ := q.remove_cases id
  all_goals exact (congrArg RetryQueue.superseded h).trans rfl

/-- `remove` adds nothing to the `order`. -/
theorem mem_order_remove {id : String} {entry : Nat × String}
    (h : entry ∈ (q.remove id).2.order) : entry ∈ q.order := by
  obtain ⟨-, hsame⟩ | ⟨-, hcleared⟩ | hpruned | ⟨-, -, hleft⟩ := q.remove_cases id
  · rwa [hsame] at h
  · rw [hcleared] at h
    cases Array.not_mem_empty entry h
  · rw [hpruned] at h
    exact (Array.mem_filter.mp h).1
  · rwa [hleft] at h

theorem places_recordFailure (q : RetryQueue) (id : String) (seq : Nat) :
    (q.recordFailure id seq).places = q.places := by
  unfold recordFailure
  split
  · apply places_congr
    · rfl
    intro id'
    simp only [ticket?, Std.ExtTreeMap.getElem?_modify, Std.compare_eq_iff_eq]
    split
    next hid =>
      rw [Option.map_map, hid]
      rfl
    next => rfl
  · rfl

/-! ## A queue and its list -/

/-- The queue stands for the `Backlog`: it has the same items, in the same order, and no ticket is
newer than `lastSeq`. -/
structure Mirrors (q : RetryQueue) (b : Backlog) : Prop where
  places : q.places = b.identifiers
  get? : ∀ id, q.get? id = b.get? id
  tickets : ∀ entry ∈ q.order, entry.1 ≤ q.lastSeq
  lastSeq : q.lastSeq = b.added
  superseded : q.superseded = b.superseded

theorem mirrors_empty : empty.Mirrors .empty where
  places := rfl
  get? _ := by simp [RetryQueue.get?, Backlog.get?, empty, Backlog.empty]
  tickets entry h := by simp [empty] at h
  lastSeq := rfl
  superseded := rfl

namespace Mirrors

variable {b : Backlog}

/-- A queue that `Mirrors` a backlog has its items as `list`. -/
theorem list_eq (h : q.Mirrors b) : q.list.1 = b.items := by
  rw [RetryQueue.list_eq, h.places, Backlog.identifiers, List.filterMap_map]
  have hself : ∀ item ∈ b.items, (q.get? ∘ RetryItem.identifier) item = some item := by
    intro item hitem
    rw [Function.comp_apply, h.get?]
    exact (b.get?_eq_some_iff _ _).mpr ⟨hitem, rfl⟩
  rw [List.filterMap_congr hself]
  exact List.filterMap_some

/-- A queue that `Mirrors` a backlog has as its `size` the number of its items. -/
theorem size_eq (h : q.Mirrors b) : q.size = b.items.length := by
  have hperm : q.slots.keys.Perm b.identifiers := by
    apply (List.perm_ext_iff_of_nodup Std.ExtTreeMap.nodup_keys b.distinct).mpr
    intro id
    rw [Std.ExtTreeMap.mem_keys, Std.ExtTreeMap.mem_iff_isSome_getElem?]
    have hnone : q.slots[id]? = none ↔ id ∉ b.identifiers := by
      rw [← b.get?_eq_none_iff, ← h.get?, RetryQueue.get?, Option.map_eq_none_iff]
    rw [Option.isSome_iff_ne_none, ne_eq, hnone, not_not, Backlog.identifiers]
  rw [size, ← Std.ExtTreeMap.length_keys, hperm.length_eq, Backlog.identifiers, List.length_map]

theorem holds_eq (h : q.Mirrors b) (id : String) (seq : Nat) :
    q.holds id seq = b.holds id seq := by
  rw [Bool.eq_iff_iff, RetryQueue.holds_eq_true_iff, Backlog.holds_eq_true_iff, h.get?]

theorem list (h : q.Mirrors b) : q.list.2.Mirrors b where
  places := (places_prune q).trans h.places
  get? := h.get?
  tickets entry hentry := h.tickets entry (Array.mem_filter.mp hentry).1
  lastSeq := h.lastSeq
  superseded := h.superseded

theorem slots_eq_none_iff (h : q.Mirrors b) (id : String) :
    q.slots[id]? = none ↔ b.get? id = none := by
  rw [← h.get?, RetryQueue.get?, Option.map_eq_none_iff]

theorem add (h : q.Mirrors b) (record : Record) (action : Action) :
    (q.add record action).2.Mirrors (b.add record action).2 where
  places := by
    rw [Backlog.identifiers_add]
    cases hslot : q.slots[record.identifier]? with
    | none =>
      rw [if_pos ((h.slots_eq_none_iff _).mp hslot), places_add_of_none h.tickets action hslot,
        h.places]
    | some slot =>
      have hne : b.get? record.identifier ≠ none := by
        rw [ne_eq, ← h.slots_eq_none_iff, hslot]
        simp
      rw [if_neg hne, places_add_of_some action hslot, h.places]
  get? id := by rw [RetryQueue.get?_add, Backlog.get?_add, h.get?, h.lastSeq]
  tickets entry hentry := by
    rw [lastSeq_add]
    cases mem_order_add hentry with
    | inl hmem => exact Nat.le_succ_of_le (h.tickets entry hmem)
    | inr hnew => exact Nat.le_of_eq hnew
  lastSeq := by rw [lastSeq_add, Backlog.added_add, h.lastSeq]
  superseded := by rw [RetryQueue.superseded_add, Backlog.superseded_add, h.get?, h.superseded]

theorem remove (h : q.Mirrors b) (id : String) : (q.remove id).2.Mirrors (b.without id) where
  places := by rw [places_remove, h.places, Backlog.identifiers_without]
  get? id' := by rw [get?_remove, Backlog.get?_without, h.get?]
  tickets entry hentry := by
    rw [lastSeq_remove]
    exact h.tickets entry (mem_order_remove hentry)
  lastSeq := (lastSeq_remove q id).trans h.lastSeq
  superseded := (superseded_remove q id).trans h.superseded

theorem recordFailure (h : q.Mirrors b) (id : String) (seq : Nat) :
    (q.recordFailure id seq).Mirrors (b.recordFailure id seq) where
  places := by
    rw [places_recordFailure, h.places, Backlog.recordFailure, Backlog.identifiers_revise]
  get? id' := by
    rw [get?_recordFailure, Backlog.get?_recordFailure, h.get?, h.holds_eq,
      RetryItem.failedOnce_eq]
  tickets entry hentry := by
    rw [lastSeq_recordFailure]
    apply h.tickets
    unfold RetryQueue.recordFailure at hentry
    split at hentry <;> exact hentry
  lastSeq := (lastSeq_recordFailure q id seq).trans h.lastSeq
  superseded := by
    unfold RetryQueue.recordFailure
    split <;> exact h.superseded

end Mirrors

end RetryQueue

/-! ## Commands -/

/-- What can be asked of a queue, as `RetryQueue.answer` and `Backlog.answer` do. -/
inductive QueueCommand where
  | add (record : Record) (action : Action)
  | list
  | complete (id : String) (seq : Nat)
  | recordFailure (id : String) (seq : Nat)
  | remove (id : String)
  | holds (id : String) (seq : Nat)
deriving DecidableEq, Repr

/-- What comes back of a `QueueCommand`. -/
inductive QueueAnswer where
  | added (replaced : Bool)
  | listed (items : List RetryItem)
  | completed (done : Bool)
  | noted
  | removed (item : Option RetryItem)
  | held (yes : Bool)
deriving DecidableEq, Repr

/-- Whether a record is queued. -/
def QueueCommand.isAdd : QueueCommand → Bool
  | .add .. => true
  | .list | .complete .. | .recordFailure .. | .remove _ | .holds .. => false

/-- Whether an item has left the queue. -/
def QueueAnswer.tookOut : QueueAnswer → Bool
  | .completed done => done
  | .removed item => item.isSome
  | .added _ | .listed _ | .noted | .held _ => false

/-- The queue carries a command out. -/
def RetryQueue.answer (q : RetryQueue) : QueueCommand → QueueAnswer × RetryQueue
  | .add record action => (q.add record action).map .added fun q => q
  | .list => q.list.map .listed fun q => q
  | .complete id seq => (q.complete id seq).map .completed fun q => q
  | .recordFailure id seq => (.noted, q.recordFailure id seq)
  | .remove id => (q.remove id).map .removed fun q => q
  | .holds id seq => (.held (q.holds id seq), q)

/-- The list carries a command out. -/
def Backlog.answer (b : Backlog) : QueueCommand → QueueAnswer × Backlog
  | .add record action => (b.add record action).map .added fun b => b
  | .list => (.listed b.items, b)
  | .complete id seq => (b.complete id seq).map .completed fun b => b
  | .recordFailure id seq => (.noted, b.recordFailure id seq)
  | .remove id => (b.remove id).map .removed fun b => b
  | .holds id seq => (.held (b.holds id seq), b)

namespace RetryQueue

variable {q : RetryQueue} {b : Backlog}

theorem remove_fst (q : RetryQueue) (id : String) : (q.remove id).1 = q.get? id := by
  unfold remove get?
  cases q.slots[id]? <;> rfl

theorem Mirrors.complete (h : q.Mirrors b) (id : String) (seq : Nat) :
    (q.complete id seq).1 = (b.complete id seq).1 ∧
      (q.complete id seq).2.Mirrors (b.complete id seq).2 := by
  -- Only the generation that is queued is taken out, by the queue and by the list.
  rw [complete_eq, Backlog.complete, h.holds_eq]
  cases b.holds id seq with
  | true => exact ⟨rfl, h.remove id⟩
  | false => exact ⟨rfl, h⟩

/-- A queue that `Mirrors` a backlog answers a command as it does, and still `Mirrors` it after
that. -/
theorem Mirrors.answer (h : q.Mirrors b) (c : QueueCommand) :
    (q.answer c).1 = (b.answer c).1 ∧ (q.answer c).2.Mirrors (b.answer c).2 := by
  cases c with
  | add record action =>
    have hadded : (q.add record action).1 = (b.add record action).1 := by
      rw [add_fst, Backlog.add_fst, h.get?]
    exact ⟨congrArg QueueAnswer.added hadded, h.add record action⟩
  | list => exact ⟨congrArg QueueAnswer.listed h.list_eq, h.list⟩
  | complete id seq =>
    obtain ⟨hdone, hnext⟩ := h.complete id seq
    exact ⟨congrArg QueueAnswer.completed hdone, hnext⟩
  | recordFailure id seq => exact ⟨rfl, h.recordFailure id seq⟩
  | remove id =>
    have hremoved : (q.remove id).1 = b.get? id := by rw [remove_fst, h.get?]
    exact ⟨congrArg QueueAnswer.removed hremoved, h.remove id⟩
  | holds id seq => exact ⟨congrArg QueueAnswer.held (h.holds_eq id seq), h⟩

end RetryQueue

/-! ## Counts -/

namespace Backlog

variable (b : Backlog)

theorem length_without (id : String) :
    (b.without id).items.length + (b.get? id).isSome.toNat = b.items.length := by
  -- Identifiers are distinct, so taking one out of the items is erasing its only occurrence.
  have hfilter : (b.without id).identifiers = b.identifiers.erase id := by
    have herase : b.identifiers.erase id = b.identifiers.filter (· != id) :=
      b.distinct.erase_eq_filter id
    rw [identifiers_without, herase]
    apply List.filter_congr
    intro id' _
    by_cases h : id' = id <;> simp [h]
  have hlength : (b.without id).items.length = (b.identifiers.erase id).length := by
    rw [← hfilter, identifiers, List.length_map]
  have hall : b.identifiers.length = b.items.length := List.length_map _
  rw [hlength]
  cases hget : b.get? id with
  | none =>
    have hnot := (b.get?_eq_none_iff id).mp hget
    rw [List.erase_of_not_mem hnot]
    simpa using hall
  | some item =>
    have hmem : id ∈ b.identifiers := by
      by_contra hnot
      have := (b.get?_eq_none_iff id).mpr hnot
      simp [hget] at this
    have hpos := List.length_pos_of_mem hmem
    rw [List.length_erase_of_mem hmem]
    simp only [Option.isSome_some, Bool.toNat_true]
    omega

theorem length_add (record : Record) (action : Action) :
    (b.add record action).2.items.length + (b.add record action).2.superseded =
      b.items.length + b.superseded + 1 := by
  have hlength : (b.add record action).2.items.length =
      (b.add record action).2.identifiers.length := (List.length_map _).symm
  have hall : b.identifiers.length = b.items.length := List.length_map _
  rw [hlength, identifiers_add, superseded_add]
  split
  · rw [List.length_append, hall, List.length_singleton]
    omega
  · rw [hall]
    omega

/-- `answer` keeps the balance: what is added is queued or replaces an item, and what is taken out
was queued. -/
theorem balance_answer (c : QueueCommand) :
    b.items.length + b.superseded + c.isAdd.toNat =
      (b.answer c).2.items.length + (b.answer c).2.superseded + (b.answer c).1.tookOut.toNat := by
  cases c with
  | add record action => exact (b.length_add record action).symm
  | list => rfl
  | complete id seq =>
    show _ = (b.complete id seq).2.items.length + (b.complete id seq).2.superseded +
      (b.complete id seq).1.toNat
    unfold complete
    split
    next h =>
      -- A ticket that still holds stands for an item, which is taken out.
      obtain ⟨item, hget, -⟩ := (b.holds_eq_true_iff id seq).mp h
      have hlength := b.length_without id
      rw [hget] at hlength
      show _ = (b.without id).items.length + b.superseded + 1
      simp only [QueueCommand.isAdd, Option.isSome_some, Bool.toNat_true, Bool.toNat_false] at *
      omega
    next => rfl
  | recordFailure id seq =>
    show _ = (b.recordFailure id seq).items.length + b.superseded + 0
    simp [recordFailure, revise, QueueCommand.isAdd]
  | remove id =>
    have hlength := b.length_without id
    show _ = (b.without id).items.length + b.superseded + (b.get? id).isSome.toNat
    simp only [QueueCommand.isAdd, Bool.toNat_false]
    omega
  | holds id seq => rfl

theorem balance_run (cs : List QueueCommand) :
    b.items.length + b.superseded + cs.countP QueueCommand.isAdd =
      (runAll answer b cs).2.items.length + (runAll answer b cs).2.superseded +
        (runAll answer b cs).1.countP QueueAnswer.tookOut := by
  have hcount : ∀ x : Bool, (if x = true then 1 else 0) = x.toNat := by
    intro x
    cases x <;> rfl
  induction cs generalizing b with
  | nil => rfl
  | cons c cs ih =>
    have hstep := b.balance_answer c
    have hrest := ih (b.answer c).2
    rw [runAll_cons]
    simp only [List.countP_cons, hcount]
    omega

end Backlog

/-- In `runAll` of any commands on a new queue, it answers as the `Backlog` does, and at the end it
lists, counts and has replaced what the backlog has. The backlog gives out generations by counting
what is added, so the queue does; and what was added is queued, was replaced, or was taken out. -/
theorem RetryQueue.queue_follows_backlog (cs : List QueueCommand) :
    let (replies, q) := runAll RetryQueue.answer .empty cs
    let (expected, b) := runAll Backlog.answer .empty cs
    replies = expected ∧
    q.list.1 = b.items ∧
    q.size = b.items.length ∧
    (q.needsRun = true ↔ b.items ≠ []) ∧
    q.superseded = b.superseded ∧
    cs.countP QueueCommand.isAdd = q.size + q.superseded + replies.countP QueueAnswer.tookOut := by
  have hsame := runAll_simulates (fun c h => h.answer c) mirrors_empty cs
  have hbalance := Backlog.empty.balance_run cs
  revert hsame hbalance
  generalize runAll RetryQueue.answer .empty cs = run
  generalize runAll Backlog.answer .empty cs = reference
  intro ⟨hreplies, hmirrors⟩ hbalance
  have hsize := hmirrors.size_eq
  refine ⟨hreplies, hmirrors.list_eq, hsize, ?_, hmirrors.superseded, ?_⟩
  · rw [needsRun, decide_eq_true_eq, hsize, List.length_pos_iff]
  · rw [hreplies, hsize, hmirrors.superseded, ← hbalance]
    simp [Backlog.empty]

end InventorySync
