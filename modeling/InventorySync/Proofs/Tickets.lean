import InventorySync.Proofs.Backlog

/-!
# Tickets in the order

Whatever has taken a place in a retry queue has left a ticket in the order. The ticket is live
while its identifier has that place, and dead tickets stay until they are pruned: when the queue is
listed, or when an item is taken out and the order has become too long.

## Key results

- `Mirrors.live_order`: the live tickets are as many as the queued items
- `Trim`: tickets increase, and dead ones do not pile up; kept by every command (`Trim.answer`)
- `Trim.filter_ticket`: the ticket of a queued identifier is there once
- `tickets_stay_trim`: any commands, from a new queue
-/

namespace InventorySync.RetryQueue

variable {q : RetryQueue} {b : Backlog}

/-! ## Live tickets -/

theorem toList_order_prune (q : RetryQueue) :
    q.prune.order.toList = q.order.toList.filter q.isLive := Array.toList_filter ..

/-- The tickets of `order` that are `isLive` are as many as the queued items. -/
theorem Mirrors.live_order (h : q.Mirrors b) :
    (q.order.toList.filter q.isLive).length = q.size := by
  have hlength : q.places.length = b.identifiers.length := by rw [h.places]
  rw [RetryQueue.places, List.length_map, Backlog.identifiers, List.length_map] at hlength
  rw [hlength, h.size_eq]

/-- All other tickets of `order` are dead. -/
theorem Mirrors.dead_order (h : q.Mirrors b) :
    (q.order.toList.countP fun entry => !q.isLive entry) + q.size = q.order.size := by
  have hall := List.length_eq_countP_add_countP q.isLive (l := q.order.toList)
  rw [List.countP_eq_length_filter (p := q.isLive), h.live_order] at hall
  simp only [Bool.not_eq_true, Bool.decide_eq_false] at hall
  rw [← Array.length_toList, hall, Nat.add_comm]

/-- After `prune`, `order` has one ticket for each queued item. -/
theorem Mirrors.size_order_prune (h : q.Mirrors b) : q.prune.order.size = q.size := by
  rw [← h.live_order, ← toList_order_prune, Array.length_toList]

/-! ## Items and tickets, operation by operation -/

/-- `add` makes one item more if the identifier had no slot. -/
theorem size_add (q : RetryQueue) (record : Record) (action : Action) :
    (q.add record action).2.size =
      if q.slots[record.identifier]? = none then q.size + 1 else q.size := by
  unfold add size
  cases hslot : q.slots[record.identifier]? <;>
    simp [Std.ExtTreeMap.size_insert, Std.ExtTreeMap.contains_eq_isSome_getElem?, hslot]

theorem size_recordFailure (q : RetryQueue) (id : String) (seq : Nat) :
    (q.recordFailure id seq).size = q.size := by
  unfold recordFailure
  split
  · exact Std.ExtTreeMap.size_modify
  · rfl

theorem order_recordFailure (q : RetryQueue) (id : String) (seq : Nat) :
    (q.recordFailure id seq).order = q.order := by
  unfold recordFailure
  split <;> rfl

/-! ## Dead tickets -/

/-- What every command keeps of the `order`, dead tickets included: the tickets increase, there are
none when nothing is queued, and there are never many more than items. -/
structure Trim (q : RetryQueue) : Prop extends q.Valid where
  increasing : q.order.toList.Pairwise fun a b => a.1 < b.1
  cleared : q.size = 0 → q.order = #[]
  size_le : q.order.size ≤ 2 * q.size + 64

theorem trim_empty : empty.Trim where
  toValid := valid_empty
  increasing := List.Pairwise.nil
  cleared _ := rfl
  size_le := Nat.zero_le _

/-- A `Valid` queue with the `order` and the `size` of a `Trim` one is `Trim`. -/
theorem Trim.congr {q' : RetryQueue} (hq : q.Trim) (hvalid : q'.Valid) (horder : q'.order = q.order)
    (hsize : q'.size = q.size) : q'.Trim where
  toValid := hvalid
  increasing := horder ▸ hq.increasing
  cleared hzero := horder.trans (hq.cleared (hsize ▸ hzero))
  size_le := by
    rw [horder, hsize]
    exact hq.size_le

theorem Trim.add (hq : q.Trim) (h : q.Mirrors b) (record : Record) (action : Action) :
    (q.add record action).2.Trim := by
  have hvalid := hq.toValid.add record action
  have hsize := size_add q record action
  cases hslot : q.slots[record.identifier]? with
  -- A new place has the newest ticket, and comes with one more item.
  | none =>
    have horder : (q.add record action).2.order =
        q.order.push (q.lastSeq + 1, record.identifier) := by
      rw [add_of_none action hslot]
    rw [if_pos hslot] at hsize
    refine ⟨hvalid, ?_, fun hzero => by omega, ?_⟩
    · rw [horder, Array.toList_push, List.pairwise_append]
      refine ⟨hq.increasing, List.pairwise_singleton _ _, fun entry hentry last hlast => ?_⟩
      have hold := h.tickets entry (Array.mem_toList_iff.mp hentry)
      rw [List.mem_singleton.mp hlast]
      show entry.1 < q.lastSeq + 1
      omega
    · have hle := hq.size_le
      rw [horder, Array.size_push]
      omega
  -- A newer item takes the place that is there.
  | some slot =>
    have horder : (q.add record action).2.order = q.order := by simp [RetryQueue.add, hslot]
    rw [if_neg (by simp [hslot])] at hsize
    exact hq.congr hvalid horder hsize

/-- After `prune` a queue is `Trim` if its tickets increase, however long its `order` was before. -/
theorem Mirrors.trim_prune (h : q.prune.Mirrors b) (hvalid : q.prune.Valid)
    (increasing : q.order.toList.Pairwise fun a b => a.1 < b.1) : q.prune.Trim := by
  have hsize : q.prune.order.size = q.prune.size := by
    -- All that a pruning leaves is live, so another one would leave all of it.
    have hagain : q.prune.prune.order = q.prune.order := by
      show (q.order.filter q.isLive).filter q.isLive = q.order.filter q.isLive
      simp
    rw [← h.size_order_prune, hagain]
  refine ⟨hvalid, ?_, fun hzero => ?_, by omega⟩
  · rw [toList_order_prune]
    exact increasing.filter _
  · exact Array.size_eq_zero_iff.mp (hsize.trans hzero)

theorem Trim.remove (hq : q.Trim) (h : q.Mirrors b) (id : String) : (q.remove id).2.Trim := by
  have hnext := h.remove id
  have hvalid := hq.toValid.remove id
  obtain ⟨-, hsame⟩ | ⟨-, hcleared⟩ | hpruned | ⟨hsome, hshort, hleft⟩ := q.remove_cases id
  · rwa [hsame]
  · rw [hcleared] at hvalid ⊢
    exact ⟨hvalid, List.Pairwise.nil, fun _ => rfl, Nat.zero_le _⟩
  · rw [hpruned] at hnext hvalid ⊢
    exact hnext.trim_prune hvalid hq.increasing
  -- The order is left as it is only while something is queued and it is short enough for that.
  · rw [hleft] at hvalid ⊢
    refine ⟨hvalid, hq.increasing, fun hzero => ?_, hshort⟩
    exact absurd (Std.ExtTreeMap.eq_empty_iff_size_eq_zero.mpr hzero) hsome

/-- `answer` keeps `Trim`, whatever the command. -/
theorem Trim.answer (hq : q.Trim) (h : q.Mirrors b) (c : QueueCommand) : (q.answer c).2.Trim := by
  cases c with
  | add record action => exact hq.add h record action
  | list => exact h.list.trim_prune hq.toValid.prune hq.increasing
  | complete id seq =>
    show (q.complete id seq).2.Trim
    rw [complete_eq]
    dsimp only
    split
    · exact hq.remove h id
    · exact hq
  | recordFailure id seq =>
    exact hq.congr (hq.toValid.recordFailure id seq) (order_recordFailure q id seq)
      (size_recordFailure q id seq)
  | remove id => exact hq.remove h id
  | holds id seq => exact hq

/-- The `order` of a `Trim` queue has the ticket of a queued identifier once, for that identifier.
-/
theorem Trim.filter_ticket (hq : q.Trim) {id : String} {slot : RetrySlot}
    (hslot : q.slots[id]? = some slot) :
    (q.order.toList.filter fun entry => entry.1 = slot.ticket) = [(slot.ticket, id)] := by
  have hdistinct : (q.order.toList.map Prod.fst).Nodup :=
    List.pairwise_map.mpr (hq.increasing.imp Nat.ne_of_lt)
  exact filter_key_eq_singleton hdistinct (Array.mem_toList_iff.mpr (hq.placed hslot))

/-! ## Any commands -/

/-- After `runAll` of any commands on a new queue, it is `Trim`. -/
theorem trim_run (cs : List QueueCommand) :
    ∃ b, (runAll RetryQueue.answer .empty cs).2.Mirrors b ∧
      (runAll RetryQueue.answer .empty cs).2.Trim := by
  -- How short a pruned order is comes from the list that the queue stands for, so the two go
  -- together through the commands.
  have hall := runAll_simulates (R := fun (q : RetryQueue) b => q.Mirrors b ∧ q.Trim)
    (fun c h => ⟨(h.1.answer c).1, (h.1.answer c).2, h.2.answer h.1 c⟩)
    ⟨mirrors_empty, trim_empty⟩ cs
  exact ⟨_, hall.2⟩

/-- `answer` raises `lastSeq` for an item that is added, and for nothing else. -/
theorem lastSeq_answer (q : RetryQueue) (c : QueueCommand) :
    (q.answer c).2.lastSeq = q.lastSeq + c.isAdd.toNat := by
  cases c with
  | add record action => exact lastSeq_add q record action
  | list => rfl
  | complete id seq =>
    show (q.complete id seq).2.lastSeq = q.lastSeq
    rw [complete_eq]
    dsimp only
    split
    · exact lastSeq_remove q id
    · rfl
  | recordFailure id seq => exact lastSeq_recordFailure q id seq
  | remove id => exact lastSeq_remove q id
  | holds id seq => rfl

theorem lastSeq_run (q : RetryQueue) (cs : List QueueCommand) :
    (runAll answer q cs).2.lastSeq = q.lastSeq + cs.countP QueueCommand.isAdd := by
  induction cs generalizing q with
  | nil => rfl
  | cons c cs ih =>
    rw [runAll_cons, ih, lastSeq_answer]
    cases hadd : c.isAdd with
    | true => simp [hadd]; omega
    | false => simp [hadd]

/-- After `runAll` of any commands on a new queue: the tickets in its `order` increase, and none is
beyond the number of items added. The ticket of a queued identifier is in the order once, and the
identifier's own. The order is empty exactly when nothing is queued, and has at most twice as many
tickets as there are queued items, and 64; all but as many as there are items are dead. `list` has
every queued item once and nothing else, and leaves no dead ticket. -/
theorem tickets_stay_trim (cs : List QueueCommand) :
    let q := (runAll RetryQueue.answer .empty cs).2
    (q.order.toList.Pairwise fun a b => a.1 < b.1) ∧
    (∀ entry ∈ q.order, entry.1 ≤ cs.countP QueueCommand.isAdd) ∧
    (∀ id slot, q.slots[id]? = some slot →
      (q.order.toList.filter fun entry => entry.1 = slot.ticket) = [(slot.ticket, id)]) ∧
    (q.order = #[] ↔ q.slots = ∅) ∧
    q.order.size ≤ 2 * q.size + 64 ∧
    (q.order.toList.countP fun entry => !q.isLive entry) + q.size = q.order.size ∧
    (q.list.1.map RetryItem.identifier).Nodup ∧
    (∀ item, item ∈ q.list.1 ↔ q.get? item.identifier = some item) ∧
    q.list.2.order.size = q.size := by
  intro q
  obtain ⟨b, hmirrors, htrim⟩ : ∃ b, q.Mirrors b ∧ q.Trim := trim_run cs
  have hadded : q.lastSeq = cs.countP QueueCommand.isAdd :=
    (lastSeq_run empty cs).trans (Nat.zero_add _)
  have hempty : q.slots = ∅ ↔ q.size = 0 := Std.ExtTreeMap.eq_empty_iff_size_eq_zero
  refine ⟨htrim.increasing, fun entry hentry => ?_, fun id slot hslot => htrim.filter_ticket hslot,
    ⟨fun horder => ?_, fun hslots => htrim.cleared (hempty.mp hslots)⟩, htrim.size_le,
    hmirrors.dead_order, ?_, mem_list_iff htrim.toValid, hmirrors.size_order_prune⟩
  · rw [← hadded]
    exact hmirrors.tickets entry hentry
  · have hlive := hmirrors.live_order
    rw [horder] at hlive
    exact hempty.mpr hlive.symm
  · rw [hmirrors.list_eq]
    exact b.distinct

/-- The ticket of an identifier that came back under a newer one is dead, and is not listed. -/
example :
    let a := Record.tombstone "a" (.cluster "c")
    let b := Record.tombstone "b" (.cluster "c")
    let q := (runAll RetryQueue.answer .empty
      [.add a .delete, .add b .delete, .remove "a", .add a .delete]).2
    q.order = #[(1, "a"), (2, "b"), (3, "a")] ∧
      q.list.1.map RetryItem.identifier = ["b", "a"] ∧
      q.list.2.order = #[(2, "b"), (3, "a")] := by
  decide +kernel

end InventorySync.RetryQueue
