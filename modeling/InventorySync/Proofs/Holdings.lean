import InventorySync.Proofs.Cache
import InventorySync.Pipeline.Basic
import InventorySync.Remote.Memory

/-!
# What the inventory holds

The far side of the pipeline as a map from identifiers to hashes. A request that is carried out
sets its identifier to the hash that was sent, or to nothing if it is a deletion, and touches no
other identifier; so what a history of requests leaves at an identifier is the outcome of the last
request for it.

## Key results

- `getElem?_carryOut`: what one request changes
- `left_cons`: what a history leaves, one request at a time
- `hash?_settle`: noting a request in the cache is carrying it out there
-/

namespace InventorySync

/-- The hash that the inventory holds for each identifier. -/
abbrev Holdings := Std.ExtTreeMap String String

/-- What a request leaves at its identifier: the hash that is sent, or nothing. -/
def Call.outcome (c : Call) : Option String :=
  match c.action with
  | .delete => none
  | .create | .update => some c.hash

theorem Call.outcome_of_ne_delete {action : Action} (h : action ≠ .delete) (r : Record) :
    (Call.ofSend action r).outcome = some r.contentHash := by
  cases action with
  | delete => exact absurd rfl h
  | create | update => rfl

namespace Holdings

/-- A request is carried out. -/
def carryOut (held : Holdings) (c : Call) : Holdings :=
  match c.outcome with
  | some hash => held.insert c.uid hash
  | none => held.erase c.uid

theorem getElem?_carryOut (held : Holdings) (c : Call) (id : String) :
    (held.carryOut c)[id]? = if c.uid = id then c.outcome else held[id]? := by
  unfold carryOut
  cases c.outcome with
  | some hash => simp [Std.ExtTreeMap.getElem?_insert]
  | none => simp [Std.ExtTreeMap.getElem?_erase]

/-! ## Histories -/

/-- The last request for an identifier in a history, the newest first. -/
def lastFor (calls : List Call) (id : String) : Option Call := calls.find? fun c => c.uid = id

theorem lastFor_cons (c : Call) (calls : List Call) (id : String) :
    lastFor (c :: calls) id = if c.uid = id then some c else lastFor calls id := by
  unfold lastFor
  rw [List.find?_cons]
  by_cases h : c.uid = id <;> simp [h]

/-- What a history, the newest request first, leaves at an identifier. -/
def left (held : Holdings) (calls : List Call) (id : String) : Option String :=
  match lastFor calls id with
  | some c => c.outcome
  | none => held[id]?

theorem left_cons (held : Holdings) (c : Call) (calls : List Call) (id : String) :
    held.left (c :: calls) id = if c.uid = id then c.outcome else held.left calls id := by
  unfold left
  rw [lastFor_cons]
  by_cases h : c.uid = id <;> simp [h]

/-- `left` is the same for two histories at an identifier exactly when their `lastFor` calls have
the same `outcome`, if both have such a call or neither has. -/
theorem left_eq_left_iff {held : Holdings} {calls calls' : List Call} {id : String}
    (h : (lastFor calls id).isSome = (lastFor calls' id).isSome) :
    held.left calls id = held.left calls' id ↔
      (lastFor calls id).map Call.outcome = (lastFor calls' id).map Call.outcome := by
  unfold left
  cases hc : lastFor calls id <;> cases hc' : lastFor calls' id <;> simp [hc, hc'] at h ⊢

end Holdings

/-! ## Cache and inventory -/

/-- The cache holds for an identifier what the inventory holds. -/
def ChangeCache.AgreesAt (c : ChangeCache) (held : Holdings) (id : String) : Prop :=
  ∀ hash, c.hash? id = some hash ↔ held[id]? = some hash

theorem ChangeCache.agreesAt_iff (c : ChangeCache) (held : Holdings) (id : String) :
    c.AgreesAt held id ↔ c.hash? id = held[id]? :=
  Option.ext_iff.symm

/-- `init` with the inventory's own list `AgreesAt` every identifier. -/
theorem ChangeCache.agreesAt_init (c : ChangeCache) (held : Holdings) (id : String) :
    (c.init held.toList).AgreesAt held id := by
  -- The inventory's list names each identifier once, so the order of the list is nothing to it.
  have distinct : (held.toList.map (·.1)).Nodup := by
    rw [Std.ExtTreeMap.map_fst_toList_eq_keys]
    exact Std.ExtTreeMap.nodup_keys
  intro hash
  rw [c.hash?_init distinct, Std.ExtTreeMap.mem_toList_iff_getElem?_eq_some]

namespace Pipeline

/-- `settle` gives the identifier of the record the `outcome` of its call as `hash?`. -/
theorem hash?_settle (p : Pipeline) (a : Action) (r : Record) (id : String) :
    (p.settle a r).cache.hash? id =
      if r.identifier = id then (Call.ofSend a r).outcome else p.cache.hash? id := by
  cases a <;> simp [settle, ChangeCache.hash?_updateHash, ChangeCache.hash?_forget, Call.outcome,
    Call.ofSend]

/-- `settle` makes a cache entry from the `outcome` of the call, seen if a window is open. -/
theorem get?_settle (p : Pipeline) (a : Action) (r : Record) (id : String) :
    (p.settle a r).cache.get? id =
      if r.identifier = id then (Call.ofSend a r).outcome.map (CacheEntry.mk · p.cache.windowOpen)
      else p.cache.get? id := by
  cases a <;> simp [settle, ChangeCache.get?_updateHash, ChangeCache.get?_forget, Call.outcome,
    Call.ofSend]

@[simp] theorem windowOpen_settle (p : Pipeline) (a : Action) (r : Record) :
    (p.settle a r).cache.windowOpen = p.cache.windowOpen := by
  cases a <;> rfl

@[simp] theorem retry_settle (p : Pipeline) (a : Action) (r : Record) :
    (p.settle a r).retry = p.retry := by
  cases a <;> rfl

@[simp] theorem gate_settle (p : Pipeline) (a : Action) (r : Record) :
    (p.settle a r).gate = p.gate := by
  cases a <;> rfl

end Pipeline
end InventorySync
