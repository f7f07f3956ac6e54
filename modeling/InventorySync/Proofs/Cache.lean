import InventorySync.Cache
import Mathlib.Data.List.Nodup

/-!
# The change cache as a map

What each operation of the cache does to the entry of an identifier, `ChangeCache.get?`, and to the
hash in it, `ChangeCache.hash?`. Marking and the window touch no hash, so agreement with the
inventory is a statement about `hash?` alone.

## Key results

- `hash?_init`: after a fresh start the cache holds what the inventory's list says
- `needsUpdate_eq_false_iff`: nothing needs to be sent exactly for the hash that is stored
- `mem_inactive_iff`, `nodup_inactive`: the unseen identifiers are listed once each
-/

namespace InventorySync.ChangeCache

/-- The hash that is stored for an identifier. -/
def hash? (c : ChangeCache) (id : String) : Option String := (c.get? id).map (·.hash)

/-! ## Entries -/

theorem get?_markActive (c : ChangeCache) (id id' : String) :
    (c.markActive id).get? id' =
      if c.windowOpen = true ∧ id = id' then (c.get? id').map fun e => { e with active := true }
      else c.get? id' := by
  cases hopen : c.windowOpen with
  | false => simp [markActive, hopen]
  | true =>
    simp only [markActive, hopen, get?, Std.ExtTreeMap.getElem?_modify, if_true, true_and,
      Std.compare_eq_iff_eq]
    by_cases h : id = id'
    · subst h; simp
    · simp [h]

@[simp] theorem windowOpen_markActive (c : ChangeCache) (id : String) :
    (c.markActive id).windowOpen = c.windowOpen := by
  unfold markActive
  split <;> rfl

theorem get?_updateHash (c : ChangeCache) (id hash id' : String) :
    (c.updateHash id hash).get? id' =
      if id = id' then some ⟨hash, c.windowOpen⟩ else c.get? id' := by
  simp [updateHash, get?, Std.ExtTreeMap.getElem?_insert]

theorem get?_forget (c : ChangeCache) (id id' : String) :
    (c.forget id).get? id' = if id = id' then none else c.get? id' := by
  simp [forget, get?, Std.ExtTreeMap.getElem?_erase]

@[simp] theorem get?_openWindow (c : ChangeCache) (id : String) :
    c.openWindow.get? id = c.get? id := rfl

theorem get?_closeWindow (c : ChangeCache) (id : String) :
    c.closeWindow.get? id = (c.get? id).map fun e => { e with active := false } := by
  simp [closeWindow, get?]

/-- A fresh start on top of the entries `m`: identifiers in the list are overwritten. -/
private theorem getElem?_foldl_insert (pairs : List (String × String))
    (m : Std.ExtTreeMap String CacheEntry) (id : String) :
    (pairs.foldl (fun m p => m.insert p.1 ⟨p.2, false⟩) m)[id]? =
      ((pairs.reverse.lookup id).map (CacheEntry.mk · false)).or m[id]? := by
  -- The entries so far take part: a later pair overwrites them.
  induction pairs generalizing m with
  | nil => simp
  | cons p rest ih =>
    obtain ⟨key, hash⟩ := p
    simp only [List.foldl_cons, ih, List.reverse_cons, List.lookup_append,
      Std.ExtTreeMap.getElem?_insert, Std.compare_eq_iff_eq, List.lookup_singleton]
    -- A pair further on decides; only without one does this pair.
    cases rest.reverse.lookup id with
    | some hash' => simp
    | none =>
      by_cases h : key = id
      · simp [h]
      · simp [h, Ne.symm h]

theorem get?_init (c : ChangeCache) (pairs : List (String × String)) (id : String) :
    (c.init pairs).get? id = (pairs.reverse.lookup id).map (CacheEntry.mk · false) := by
  simp [init, get?, getElem?_foldl_insert]

/-! ## Hashes -/

@[simp] theorem hash?_markActive (c : ChangeCache) (id id' : String) :
    (c.markActive id).hash? id' = c.hash? id' := by
  simp only [hash?, get?_markActive]
  split
  · rw [Option.map_map]; rfl
  · rfl

theorem hash?_updateHash (c : ChangeCache) (id hash id' : String) :
    (c.updateHash id hash).hash? id' = if id = id' then some hash else c.hash? id' := by
  simp only [hash?, get?_updateHash]
  split <;> simp

theorem hash?_forget (c : ChangeCache) (id id' : String) :
    (c.forget id).hash? id' = if id = id' then none else c.hash? id' := by
  simp only [hash?, get?_forget]
  split <;> simp

@[simp] theorem hash?_openWindow (c : ChangeCache) (id : String) :
    c.openWindow.hash? id = c.hash? id := rfl

@[simp] theorem hash?_closeWindow (c : ChangeCache) (id : String) :
    c.closeWindow.hash? id = c.hash? id := by
  simp only [hash?, get?_closeWindow, Option.map_map]; rfl

/-- `lookup` in a list of pairs with distinct first parts finds exactly the pairs of the list, also
from its end. -/
private theorem lookup_reverse_eq_some_iff {pairs : List (String × String)}
    (distinct : (pairs.map (·.1)).Nodup) (id hash : String) :
    pairs.reverse.lookup id = some hash ↔ (id, hash) ∈ pairs := by
  constructor
  · intro h
    obtain ⟨before, after, heq, -⟩ := List.lookup_eq_some_iff.mp h
    rw [← List.mem_reverse, heq]
    simp
  · intro h
    obtain ⟨before, after, heq⟩ := List.append_of_mem (List.mem_reverse.mpr h)
    refine List.lookup_eq_some_iff.mpr ⟨before, after, heq, fun p hp => ?_⟩
    have hnodup : ((pairs.reverse).map (·.1)).Nodup := by
      rwa [List.map_reverse, List.nodup_reverse]
    rw [heq, List.map_append, List.map_cons, List.nodup_append] at hnodup
    have hne : p.1 ≠ id :=
      hnodup.2.2 p.1 (List.mem_map_of_mem hp) id List.mem_cons_self
    simpa using Ne.symm hne

/-- After `init` with a list without repetitions, `hash?` gives the pairs of the list. -/
theorem hash?_init (c : ChangeCache) {pairs : List (String × String)}
    (distinct : (pairs.map (·.1)).Nodup) (id hash : String) :
    (c.init pairs).hash? id = some hash ↔ (id, hash) ∈ pairs := by
  rw [hash?, get?_init, Option.map_map, ← lookup_reverse_eq_some_iff distinct]
  simp

/-- After `init`, no entry that `get?` gives is marked as seen. -/
theorem get?_init_eq (c : ChangeCache) (pairs : List (String × String)) (id : String) :
    (c.init pairs).get? id = ((c.init pairs).hash? id).map (CacheEntry.mk · false) := by
  rw [hash?, get?_init, Option.map_map, Option.map_map]
  rfl

/-- `needsUpdate` is false exactly for the hash that `hash?` gives. -/
theorem needsUpdate_eq_false_iff (c : ChangeCache) (id hash : String) :
    c.needsUpdate id hash = false ↔ c.hash? id = some hash := by
  unfold needsUpdate hash?
  cases c.get? id <;> simp

/-! ## The unseen identifiers -/

theorem mem_inactive_iff (c : ChangeCache) (id : String) :
    id ∈ c.inactive ↔ ∃ e, c.get? id = some e ∧ e.active = false := by
  rw [inactive, Std.ExtTreeMap.mem_keys, Std.ExtTreeMap.mem_iff_isSome_getElem?,
    Std.ExtTreeMap.getElem?_filter', Option.isSome_iff_exists]
  simp only [get?, Option.filter_eq_some_iff, Bool.not_eq_true']

theorem nodup_inactive (c : ChangeCache) : c.inactive.Nodup :=
  Std.ExtTreeMap.nodup_keys

end InventorySync.ChangeCache
