import InventorySync.Pipeline.Activity
import InventorySync.Proofs.Gate
import InventorySync.Proofs.Holdings
import InventorySync.Proofs.Retry

/-!
# What a step of an activity changes

An activity goes on from one wait to the next: it begins, is let through the gate, or has its
request answered. Each such step moves one visitor at the gate, changes the queue at one
identifier, and changes the hashes in the cache only when a request is confirmed.

## Key results

- `shift_admitted`, `shift_replied`, and the like for the beginnings: one visitor moves on
- `change_admitted`, `change_replied`: the queue changes at the identifier of the gate
- `hash?_replied`: the cache changes as the inventory does when it carries the request out
-/

namespace InventorySync

@[simp] theorem Turn.pipeline_map {α β : Type} (f : α → β) (t : Turn α) :
    (t.map f).pipeline = t.pipeline := rfl

@[simp] theorem Turn.stage_map {α β : Type} (f : α → β) (t : Turn α) :
    (t.map f).stage = f t.stage := rfl

namespace Activity

/-! ## Views -/

/-- Where the activity stands at the gate. -/
def visit? : Activity → Option Visit
  | .forward (.entering visit _ _) | .forward (.sending visit _ _) => some visit
  | .flush (.entering visit _ _ _) | .flush (.sending visit _ _ _) => some visit
  | .forward (.done _) | .flush (.done _) | .sweep _ => none

/-- The request that is sent and not yet answered. -/
def request? (a : Activity) : Option Call :=
  match a.wait with
  | .reply action record => some (.ofSend action record)
  | .gate _ | .over _ => none

/-- The live event that is on its way. -/
def event? : Activity → Option (Action × Record)
  | .forward (.entering _ action record) | .forward (.sending _ action record) =>
    some (action, record)
  | .forward (.done _) | .flush _ | .sweep _ => none

/-- The items that a flush still has to see to. -/
def pending : Activity → List RetryItem
  | .flush (.entering _ item rest _) | .flush (.sending _ item rest _) => item :: rest
  | .flush (.done _) | .forward _ | .sweep _ => []

/-- The item that a flush has sent. -/
def resent? : Activity → Option RetryItem
  | .flush (.sending _ item _ _) => some item
  | .flush (.entering ..) | .flush (.done _) | .forward _ | .sweep _ => none

/-- The identifiers that a sweep still has to see to. -/
def unswept : Activity → List String
  | .sweep (.sending _ id rest _) => id :: rest
  | .sweep (.done _) | .forward _ | .flush _ => []

/-- Whether a sweep is under way. -/
def isSweeping : Activity → Bool
  | .sweep (.sending ..) => true
  | .sweep (.done _) | .forward _ | .flush _ => false

/-- The identifier of what is to be sent is the one that the gate is asked for. -/
def Proper : Activity → Prop
  | .forward (.entering visit _ record) | .forward (.sending visit _ record) =>
    visit.identifier = record.identifier
  | .flush (.entering visit item _ _) | .flush (.sending visit item _ _) =>
    visit.identifier = item.identifier
  | .forward (.done _) | .flush (.done _) | .sweep _ => True

/-- An item that a flush has sent is still the one queued. -/
def Queued (q : RetryQueue) (a : Activity) : Prop :=
  ∀ item ∈ a.resent?, q.holds item.identifier item.seq = true

theorem request?_of_reply {a : Activity} {action : Action} {record : Record}
    (h : a.wait = .reply action record) : a.request? = some (.ofSend action record) := by
  simp only [request?, h]

theorem wait_of_request {a : Activity} {c : Call} (h : a.request? = some c) :
    ∃ action record, a.wait = .reply action record ∧ Call.ofSend action record = c := by
  unfold request? at h
  match hwait : a.wait with
  | .reply action record =>
    rw [hwait] at h
    exact ⟨action, record, rfl, Option.some.inj h⟩
  | .gate v =>
    rw [hwait] at h
    cases h
  | .over report =>
    rw [hwait] at h
    cases h

/-- An activity that waits for `.gate` has no `request?`. -/
theorem request?_of_gate {a : Activity} {v : Visit} (h : a.wait = .gate v) :
    a.request? = none := by
  simp only [request?, h]

/-- An activity with a `request?` that is no sweep has a `visit?` for the identifier of the request.
-/
theorem visit?_of_request {a : Activity} {c : Call} (h : a.request? = some c) (ha : a.Proper)
    (hs : a.isSweeping = false) : ∃ v, a.visit? = some v ∧ v.identifier = c.uid := by
  match a with
  | .forward (.sending v action record) =>
    obtain rfl := Option.some.inj h
    exact ⟨v, rfl, ha⟩
  | .flush (.sending v item rest sent) =>
    obtain rfl := Option.some.inj h
    exact ⟨v, rfl, ha⟩
  | .sweep (.sending ..) => cases hs
  | .forward (.entering ..) | .forward (.done _) | .flush (.entering ..) | .flush (.done _)
  | .sweep (.done _) => cases h

/-- The item that `resent?` gives is what `request?` sends. -/
theorem request?_of_resent {a : Activity} {item : RetryItem} (h : a.resent? = some item) :
    a.request? = some (.ofSend item.action item.record) ∧ a.isSweeping = false := by
  match a with
  | .flush (.sending v item' rest sent) =>
    obtain rfl := Option.some.inj h
    exact ⟨rfl, rfl⟩
  | .flush (.entering ..) | .flush (.done _) | .forward _ | .sweep _ => cases h

theorem visit?_of_gate {a : Activity} {v : Visit} (h : a.wait = .gate v) : a.visit? = some v := by
  match a with
  | .forward (.entering u action record) =>
    obtain rfl := Wait.gate.inj h
    rfl
  | .flush (.entering u item rest sent) =>
    obtain rfl := Wait.gate.inj h
    rfl
  | .forward (.sending ..) | .forward (.done _) | .flush (.sending ..) | .flush (.done _)
  | .sweep (.sending ..) | .sweep (.done _) => cases h

end Activity

/-- An `Except` whose `toOption` is known to be `some` is `.ok`. -/
theorem exists_ok_of_map_toOption {ε α β : Type} {x : Except ε α} {f : α → β} {b : β}
    (h : x.toOption.map f = some b) : ∃ a, x = .ok a ∧ f a = b := by
  cases x with
  | error e => cases h
  | ok a => exact ⟨a, rfl, Option.some.inj h⟩

/-- A document of a kind that is in no catalog. -/
def sampleDoc (uid content : String) : Json :=
  .object [("apiVersion", .string "v1"), ("content", .string content), ("kind", .string "Thing"),
    ("metadata", .object [("uid", .string uid)])]

/-! ## The next item of a flush -/

namespace Flushing

variable (p : Pipeline) (i : Nat) (handed : Option Nat) (items : List RetryItem) (sent : Nat)

@[simp] theorem cache_next : (next p i handed items sent).pipeline.cache = p.cache := by
  cases items <;> rfl

@[simp] theorem retry_next : (next p i handed items sent).pipeline.retry = p.retry := by
  cases items <;> rfl

@[simp] theorem normalizer_next :
    (next p i handed items sent).pipeline.normalizer = p.normalizer := by
  cases items <;> rfl

theorem shift_next : SendGate.Shift i p.gate none (next p i handed items sent).pipeline.gate
    (Activity.flush (next p i handed items sent).stage).visit? := by
  cases items with
  | nil => exact .stay _ _
  | cons item rest => exact .enter p.gate item.identifier

@[simp] theorem request?_next :
    (Activity.flush (next p i handed items sent).stage).request? = none := by
  cases items <;> rfl

@[simp] theorem resent?_next :
    (Activity.flush (next p i handed items sent).stage).resent? = none := by
  cases items <;> rfl

@[simp] theorem pending_next :
    (Activity.flush (next p i handed items sent).stage).pending = items := by
  cases items <;> rfl

theorem proper_next : (Activity.flush (next p i handed items sent).stage).Proper := by
  cases items with
  | nil => exact trivial
  | cons item rest => exact SendGate.identifier_enter p.gate item.identifier i

end Flushing

@[simp] theorem Sweeping.gate_next (p : Pipeline) (owner : Owner) (ids : List String)
    (report : SweepReport) : (next p owner ids report).pipeline.gate = p.gate := by
  cases ids <;> rfl

@[simp] theorem Sweeping.retry_next (p : Pipeline) (owner : Owner) (ids : List String)
    (report : SweepReport) : (next p owner ids report).pipeline.retry = p.retry := by
  cases ids <;> rfl

@[simp] theorem Sweeping.normalizer_next (p : Pipeline) (owner : Owner) (ids : List String)
    (report : SweepReport) : (next p owner ids report).pipeline.normalizer = p.normalizer := by
  cases ids <;> rfl

@[simp] theorem Sweeping.hash?_next (p : Pipeline) (owner : Owner) (ids : List String)
    (report : SweepReport) (id : String) :
    (next p owner ids report).pipeline.cache.hash? id = p.cache.hash? id := by
  cases ids with
  | nil => simp [next]
  | cons id' rest => rfl

@[simp] theorem Sweeping.unswept_next (p : Pipeline) (owner : Owner) (ids : List String)
    (report : SweepReport) : (Activity.sweep (next p owner ids report).stage).unswept = ids := by
  cases ids <;> rfl

/-- `Sweeping.next` leaves every cache entry alone while there is something to delete. -/
theorem Sweeping.get?_next_of_mem (p : Pipeline) (owner : Owner) {ids : List String}
    (report : SweepReport) {id : String} (h : id ∈ ids) (id' : String) :
    (next p owner ids report).pipeline.cache.get? id' = p.cache.get? id' := by
  cases ids with
  | nil => cases h
  | cons id'' rest => rfl

theorem Sweeping.get?_next_eq_none {p : Pipeline} (owner : Owner) (ids : List String)
    (report : SweepReport) {id : String} (h : p.cache.get? id = none) :
    (next p owner ids report).pipeline.cache.get? id = none := by
  cases ids with
  | nil => exact (ChangeCache.get?_closeWindow p.cache id).trans (by rw [h]; rfl)
  | cons id' rest => exact h

theorem Forwarding.gate_observe (p : Pipeline) (a : Action) (r : Record) :
    (observe p a r).gate = p.gate := by
  cases a <;> rfl

@[simp] theorem Forwarding.retry_observe (p : Pipeline) (a : Action) (r : Record) :
    (observe p a r).retry = p.retry := by
  cases a <;> rfl

@[simp] theorem Forwarding.hash?_observe (p : Pipeline) (a : Action) (r : Record) (id : String) :
    (observe p a r).cache.hash? id = p.cache.hash? id := by
  cases a <;> simp [observe]

theorem Forwarding.get?_observe (p : Pipeline) (a : Action) (r : Record) (id : String) :
    (observe p a r).cache.get? id =
      if a ≠ .delete ∧ p.cache.windowOpen = true ∧ r.identifier = id then
        (p.cache.get? id).map fun e => { e with active := true }
      else p.cache.get? id := by
  cases a <;> simp [observe, ChangeCache.get?_markActive]

@[simp] theorem Forwarding.windowOpen_observe (p : Pipeline) (a : Action) (r : Record) :
    (observe p a r).cache.windowOpen = p.cache.windowOpen := by
  cases a <;> simp [observe]

/-- `isUnchanged` holds of an event that is no deletion and has the hash that the cache holds. -/
theorem Forwarding.isUnchanged_iff (p : Pipeline) (a : Action) (r : Record) :
    isUnchanged p a r = true ↔
      a ≠ .delete ∧ p.cache.hash? r.identifier = some r.contentHash := by
  unfold isUnchanged
  rw [Bool.and_eq_true, bne_iff_ne, Bool.not_eq_true',
    ChangeCache.needsUpdate_eq_false_iff]

namespace Activity

/-! ## The gate -/

theorem shift_beginForward (p : Pipeline) (i : Nat) (action : Action) (doc : Json) :
    SendGate.Shift i p.gate none (beginForward p i action doc).pipeline.gate
      (beginForward p i action doc).stage.visit? := by
  simp only [beginForward, Forwarding.start, Turn.pipeline_map, Turn.stage_map]
  cases p.normalizer.normalize doc with
  | error e => exact .stay _ _
  | ok record => exact .enter p.gate record.identifier

theorem shift_beginFlush (p : Pipeline) (i : Nat) :
    SendGate.Shift i p.gate none (beginFlush p i).pipeline.gate (beginFlush p i).stage.visit? :=
  Flushing.shift_next { p with retry := p.retry.list.2 } i none p.retry.list.1 0

theorem shift_beginSweep (p : Pipeline) (i : Nat) (owner : Owner) :
    SendGate.Shift i p.gate none (beginSweep p owner).pipeline.gate
      (beginSweep p owner).stage.visit? := by
  simp only [beginSweep, Sweeping.start, Turn.pipeline_map, Turn.stage_map, Sweeping.gate_next]
  exact .stay _ _

/-- After `leave`, `Flushing.next` enters the gate of the next item: a `Shift` for the flush. -/
private theorem shift_leave_next {g : SendGate} {p : Pipeline} (hp : p.gate = g) (v : Visit)
    (handed : Option Nat) (items : List RetryItem) (sent : Nat) :
    SendGate.Shift v.visitor g (some v)
      (Flushing.next (p.leave v).2 v.visitor handed items sent).pipeline.gate
      (Activity.flush (Flushing.next (p.leave v).2 v.visitor handed items sent).stage).visit? := by
  subst hp
  exact .trans (.leave p.gate v) (Flushing.shift_next (p.leave v).2 v.visitor handed items sent)

theorem shift_admitted {p : Pipeline} {a : Activity} {v : Visit} (h : a.wait = .gate v) :
    SendGate.Shift v.visitor p.gate a.visit? (a.admitted p).pipeline.gate
      (a.admitted p).stage.visit? := by
  match a with
  | .forward (.entering u action record) =>
    obtain rfl := Wait.gate.inj h
    simp only [admitted, Forwarding.admitted, Turn.pipeline_map, Turn.stage_map]
    split
    · rw [← Forwarding.gate_observe p action record]
      exact .leave _ u
    · show SendGate.Shift u.visitor p.gate _ (Forwarding.observe p action record).gate _
      rw [Forwarding.gate_observe]
      exact .stay _ _
  -- An item that has left the queue is passed over: the flush leaves and enters elsewhere.
  | .flush (.entering u item rest sent) =>
    obtain rfl := Wait.gate.inj h
    simp only [admitted, Flushing.admitted, Turn.pipeline_map, Turn.stage_map]
    split
    · exact .stay _ _
    · exact shift_leave_next rfl u _ rest sent
  | .forward (.sending ..) | .forward (.done _) | .flush (.sending ..) | .flush (.done _)
  | .sweep (.sending ..) | .sweep (.done _) => cases h

theorem shift_replied {p : Pipeline} {a : Activity} {c : Call} (reply : Reply) {i : Nat}
    (h : a.request? = some c) (own : ∀ v ∈ a.visit?, v.visitor = i) :
    SendGate.Shift i p.gate a.visit? (a.replied p reply).pipeline.gate
      (a.replied p reply).stage.visit? := by
  match a with
  | .forward (.sending u action record) =>
    obtain rfl := own u rfl
    simp only [replied, Forwarding.replied, Turn.pipeline_map, Turn.stage_map]
    split
    · have hgate : ((p.countReply reply).settle action record).gate = p.gate :=
        Pipeline.gate_settle _ _ _
      rw [← hgate]
      exact .leave _ u
    · exact .leave _ u
  | .flush (.sending u item rest sent) =>
    obtain rfl := own u rfl
    simp only [replied, Flushing.replied, Turn.pipeline_map, Turn.stage_map]
    split
    · refine shift_leave_next ?_ u _ rest _
      split
      · exact Pipeline.gate_settle _ _ _
      · rfl
    · exact .leave _ u
  -- A sweep never comes near the gate.
  | .sweep (.sending owner id rest report) =>
    simp only [replied, Sweeping.replied, Turn.pipeline_map, Turn.stage_map]
    split <;> (rw [Sweeping.gate_next]; exact .stay _ _)
  | .forward (.entering ..) | .forward (.done _) | .flush (.entering ..) | .flush (.done _)
  | .sweep (.done _) => cases h

/-- What `admitted` sends it sends with the gate in hand, and without a change of the gate. -/
theorem request?_admitted {p : Pipeline} {a : Activity} {v : Visit} {c : Call}
    (h : a.wait = .gate v) (hc : (a.admitted p).stage.request? = some c) :
    (a.admitted p).stage.visit? = some v ∧ (a.admitted p).pipeline.gate = p.gate := by
  match a with
  | .forward (.entering u action record) =>
    obtain rfl := Wait.gate.inj h
    simp only [admitted, Forwarding.admitted, Turn.pipeline_map, Turn.stage_map] at hc ⊢
    split at hc
    · cases hc
    next hsend =>
      rw [if_neg hsend]
      exact ⟨rfl, Forwarding.gate_observe p action record⟩
  | .flush (.entering u item rest sent) =>
    obtain rfl := Wait.gate.inj h
    simp only [admitted, Flushing.admitted, Turn.pipeline_map, Turn.stage_map] at hc ⊢
    split at hc
    next hholds =>
      rw [if_pos hholds]
      exact ⟨rfl, rfl⟩
    · rw [Flushing.request?_next] at hc
      cases hc
  | .forward (.sending ..) | .forward (.done _) | .flush (.sending ..) | .flush (.done _)
  | .sweep (.sending ..) | .sweep (.done _) => cases h

/-- After `replied` only a sweep has a `request?`. -/
theorem request?_replied {p : Pipeline} {a : Activity} {c : Call} (reply : Reply)
    (h : a.request? = some c) (hs : a.isSweeping = false) :
    (a.replied p reply).stage.request? = none := by
  match a with
  | .forward (.sending u action record) =>
    simp only [replied, Forwarding.replied, Turn.stage_map]
    split <;> rfl
  | .flush (.sending u item rest sent) =>
    simp only [replied, Flushing.replied, Turn.stage_map]
    split
    · exact Flushing.request?_next _ _ _ _ _
    · rfl
  | .sweep (.sending ..) => cases hs
  | .forward (.entering ..) | .forward (.done _) | .flush (.entering ..) | .flush (.done _)
  | .sweep (.done _) => cases h

@[simp] theorem request?_beginForward (p : Pipeline) (i : Nat) (action : Action) (doc : Json) :
    (beginForward p i action doc).stage.request? = none := by
  simp only [beginForward, Forwarding.start, Turn.stage_map]
  cases p.normalizer.normalize doc <;> rfl

theorem visit?_replied_sweep (p : Pipeline) {a : Activity} (reply : Reply)
    (hs : a.isSweeping = true) : (a.replied p reply).stage.visit? = none := by
  match a with
  | .sweep (.sending ..) => rfl
  | .sweep (.done _) | .forward _ | .flush _ => cases hs

theorem proper_beginForward (p : Pipeline) (i : Nat) (action : Action) (doc : Json) :
    (beginForward p i action doc).stage.Proper := by
  simp only [beginForward, Forwarding.start, Turn.stage_map]
  cases p.normalizer.normalize doc with
  | error e => exact trivial
  | ok record => exact SendGate.identifier_enter p.gate record.identifier i

theorem proper_admitted {p : Pipeline} {a : Activity} (ha : a.Proper) :
    (a.admitted p).stage.Proper := by
  match a with
  | .forward (.entering u action record) =>
    simp only [admitted, Forwarding.admitted, Turn.stage_map]
    split
    · exact trivial
    · exact ha
  | .flush (.entering u item rest sent) =>
    simp only [admitted, Flushing.admitted, Turn.stage_map]
    split
    · exact ha
    · exact Flushing.proper_next _ _ _ _ _
  | .forward (.sending ..) | .forward (.done _) | .flush (.sending ..) | .flush (.done _)
  | .sweep (.sending ..) | .sweep (.done _) => exact ha

theorem proper_replied {p : Pipeline} {a : Activity} (reply : Reply) (ha : a.Proper) :
    (a.replied p reply).stage.Proper := by
  match a with
  | .forward (.sending u action record) =>
    simp only [replied, Forwarding.replied, Turn.stage_map]
    split <;> exact trivial
  | .flush (.sending u item rest sent) =>
    simp only [replied, Flushing.replied, Turn.stage_map]
    split
    · exact Flushing.proper_next _ _ _ _ _
    · exact trivial
  | .sweep (.sending ..) => exact trivial
  | .forward (.entering ..) | .forward (.done _) | .flush (.entering ..) | .flush (.done _)
  | .sweep (.done _) => exact ha

/-! ## The queue -/

@[simp] theorem retry_beginForward (p : Pipeline) (i : Nat) (action : Action) (doc : Json) :
    (beginForward p i action doc).pipeline.retry = p.retry := by
  simp only [beginForward, Forwarding.start, Turn.pipeline_map]
  cases p.normalizer.normalize doc <;> rfl

@[simp] theorem retry_beginFlush (p : Pipeline) (i : Nat) :
    (beginFlush p i).pipeline.retry = p.retry.list.2 :=
  Flushing.retry_next _ _ _ _ _

@[simp] theorem retry_beginSweep (p : Pipeline) (owner : Owner) :
    (beginSweep p owner).pipeline.retry = p.retry :=
  Sweeping.retry_next _ _ _ _

theorem change_admitted {p : Pipeline} {a : Activity} {v : Visit} (h : a.wait = .gate v)
    (ha : a.Proper) :
    RetryQueue.Change v.identifier p.retry (a.admitted p).pipeline.retry := by
  match a with
  | .forward (.entering u action record) =>
    obtain rfl := Wait.gate.inj h
    have hid : u.identifier = record.identifier := ha
    simp only [admitted, Forwarding.admitted, Turn.pipeline_map]
    split
    · rw [← Forwarding.retry_observe p action record, hid]
      exact .remove _
    · rw [Forwarding.retry_observe]
      exact .keep _
  | .flush (.entering u item rest sent) =>
    simp only [admitted, Flushing.admitted, Turn.pipeline_map]
    split
    · exact .keep _
    · rw [Flushing.retry_next]
      exact .keep _
  | .forward (.sending ..) | .forward (.done _) | .flush (.sending ..) | .flush (.done _)
  | .sweep (.sending ..) | .sweep (.done _) => cases h

theorem change_replied {p : Pipeline} {a : Activity} {c : Call} (reply : Reply)
    (h : a.request? = some c) :
    RetryQueue.Change c.uid p.retry (a.replied p reply).pipeline.retry := by
  match a with
  | .forward (.sending u action record) =>
    obtain rfl := Option.some.inj h
    simp only [replied, Forwarding.replied, Turn.pipeline_map]
    split
    · -- Noting the success in the cache comes first and leaves the queue alone.
      have hretry : ((p.countReply reply).settle action record).retry = p.retry :=
        Pipeline.retry_settle _ _ _
      rw [← hretry]
      exact .remove _
    · exact .add _ record action rfl
  | .flush (.sending u item rest sent) =>
    obtain rfl := Option.some.inj h
    simp only [replied, Flushing.replied, Turn.pipeline_map]
    split
    · rw [Flushing.retry_next]
      split
      · show RetryQueue.Change _ p.retry (Pipeline.settle _ item.action item.record).retry
        rw [Pipeline.retry_settle]
        exact .complete _ item.seq
      · exact .complete _ item.seq
    · exact .recordFailure _ item.seq
  | .sweep (.sending owner id rest report) =>
    simp only [replied, Sweeping.replied, Turn.pipeline_map]
    split <;> (rw [Sweeping.retry_next]; exact .keep _)
  | .forward (.entering ..) | .forward (.done _) | .flush (.entering ..) | .flush (.done _)
  | .sweep (.done _) => cases h

/-- After `replied` a sweep has the rest of its identifiers `unswept`, whatever the reply. -/
theorem unswept_replied (p : Pipeline) (owner : Owner) (id : String) (rest : List String)
    (report : SweepReport) (reply : Reply) :
    ((Activity.sweep (.sending owner id rest report)).replied p reply).stage.unswept = rest := by
  simp only [replied, Sweeping.replied, Turn.stage_map]
  split <;> exact Sweeping.unswept_next _ _ _ _

/-- After a reply that `isOk`, a sweep `forget`s the identifier in the cache and goes on with
`Sweeping.next`. -/
theorem replied_sweep_of_isOk (p : Pipeline) (owner : Owner) (id : String) (rest : List String)
    (report : SweepReport) {reply : Reply} (h : reply.isOk = true) :
    (Activity.sweep (.sending owner id rest report)).replied p reply =
      (Sweeping.next { p.countReply reply with cache := p.cache.forget id } owner rest
        { report with deleted := report.deleted + 1 }).map .sweep := by
  simp only [replied, Sweeping.replied, if_pos h]
  rfl

/-- `replied` leaves `retry` alone for a sweep. -/
theorem retry_replied_sweep (p : Pipeline) {a : Activity} (reply : Reply)
    (hs : a.isSweeping = true) : (a.replied p reply).pipeline.retry = p.retry := by
  match a with
  | .sweep (.sending owner id rest report) =>
    simp only [replied, Sweeping.replied, Turn.pipeline_map]
    split <;> exact Sweeping.retry_next _ _ _ _
  | .sweep (.done _) | .forward _ | .flush _ => cases hs

@[simp] theorem resent?_beginForward (p : Pipeline) (i : Nat) (action : Action) (doc : Json) :
    (beginForward p i action doc).stage.resent? = none := rfl

theorem queued_of_gate {p : Pipeline} {a : Activity} {v : Visit} (h : a.wait = .gate v) :
    Queued (a.admitted p).pipeline.retry (a.admitted p).stage := by
  intro item hitem
  match a with
  | .forward (.entering u action record) =>
    simp only [admitted, Forwarding.admitted, Turn.stage_map] at hitem
    split at hitem <;> cases hitem
  | .flush (.entering u item' rest sent) =>
    simp only [admitted, Flushing.admitted, Turn.pipeline_map, Turn.stage_map] at hitem ⊢
    split at hitem
    next hholds =>
      obtain rfl := Option.some.inj hitem
      rw [if_pos hholds]
      exact hholds
    · rw [Flushing.resent?_next] at hitem
      cases hitem
  | .forward (.sending ..) | .forward (.done _) | .flush (.sending ..) | .flush (.done _)
  | .sweep (.sending ..) | .sweep (.done _) => cases h

/-- After `replied`, `resent?` is `none`. -/
theorem resent?_replied {p : Pipeline} {a : Activity} {c : Call} (reply : Reply)
    (h : a.request? = some c) : (a.replied p reply).stage.resent? = none := by
  match a with
  | .forward (.sending u action record) =>
    simp only [replied, Forwarding.replied, Turn.stage_map]
    split <;> rfl
  | .flush (.sending u item rest sent) =>
    simp only [replied, Flushing.replied, Turn.stage_map]
    split
    · exact Flushing.resent?_next _ _ _ _ _
    · rfl
  | .sweep (.sending ..) => rfl
  | .forward (.entering ..) | .forward (.done _) | .flush (.entering ..) | .flush (.done _)
  | .sweep (.done _) => cases h

@[simp] theorem pending_beginFlush (p : Pipeline) (i : Nat) :
    (beginFlush p i).stage.pending = p.retry.list.1 :=
  Flushing.pending_next _ _ _ _ _

theorem pending_admitted {p : Pipeline} {a : Activity} {item : RetryItem}
    (h : item ∈ (a.admitted p).stage.pending) : item ∈ a.pending := by
  match a with
  | .forward (.entering u action record) =>
    simp only [admitted, Forwarding.admitted, Turn.stage_map] at h
    split at h <;> cases h
  | .flush (.entering u item' rest sent) =>
    simp only [admitted, Flushing.admitted, Turn.stage_map] at h
    split at h
    · exact h
    · rw [Flushing.pending_next] at h
      exact List.mem_cons_of_mem _ h
  | .forward (.sending ..) | .forward (.done _) | .flush (.sending ..) | .flush (.done _)
  | .sweep (.sending ..) | .sweep (.done _) => exact h

theorem pending_replied {p : Pipeline} {a : Activity} {item : RetryItem} (reply : Reply)
    (h : item ∈ (a.replied p reply).stage.pending) : item ∈ a.pending := by
  match a with
  | .forward (.sending u action record) =>
    simp only [replied, Forwarding.replied, Turn.stage_map] at h
    split at h <;> cases h
  | .flush (.sending u item' rest sent) =>
    simp only [replied, Flushing.replied, Turn.stage_map] at h
    split at h
    · rw [Flushing.pending_next] at h
      exact List.mem_cons_of_mem _ h
    · cases h
  | .sweep (.sending owner id rest report) => cases h
  | .forward (.entering ..) | .forward (.done _) | .flush (.entering ..) | .flush (.done _)
  | .sweep (.done _) => exact h

/-! ## What becomes of an event and of an item -/

/-- `admitted` ends an event whose hash the cache holds as `.unchanged`, and takes its identifier
out of `retry`. -/
theorem admitted_forward_of_unchanged {p : Pipeline} (v : Visit) {action : Action}
    {record : Record} (ha : action ≠ .delete)
    (hc : p.cache.hash? record.identifier = some record.contentHash) :
    ((Activity.forward (.entering v action record)).admitted p).stage =
        .forward (.done .unchanged) ∧
      ((Activity.forward (.entering v action record)).admitted p).pipeline.retry =
        (p.retry.remove record.identifier).2 := by
  -- The mark that the event leaves is nothing to the comparison of hashes.
  have hsame : Forwarding.isUnchanged (Forwarding.observe p action record) action record = true :=
    (Forwarding.isUnchanged_iff _ _ _).mpr
      ⟨ha, (Forwarding.hash?_observe p action record _).trans hc⟩
  simp only [admitted, Forwarding.admitted, hsame, if_true, Turn.pipeline_map, Turn.stage_map]
  exact ⟨trivial, congrArg (fun q => (RetryQueue.remove q record.identifier).2)
    (Forwarding.retry_observe p action record)⟩

/-- `admitted` sends any other event, after `Forwarding.observe`. -/
theorem admitted_forward_of_changed {p : Pipeline} (v : Visit) {action : Action} {record : Record}
    (h : ¬ (action ≠ .delete ∧ p.cache.hash? record.identifier = some record.contentHash)) :
    (Activity.forward (.entering v action record)).admitted p =
      ⟨Forwarding.observe p action record, .forward (.sending v action record), none, false⟩ := by
  have hnew :
      ¬ Forwarding.isUnchanged (Forwarding.observe p action record) action record = true := by
    rw [Forwarding.isUnchanged_iff, Forwarding.hash?_observe]
    exact h
  simp only [admitted, Forwarding.admitted, if_neg hnew, Turn.map]

/-- `admitted` leaves the cache as `Forwarding.observe` does, whatever becomes of the event. -/
theorem cache_admitted_forward (p : Pipeline) (v : Visit) (action : Action) (record : Record) :
    ((Activity.forward (.entering v action record)).admitted p).pipeline.cache =
      (Forwarding.observe p action record).cache := by
  simp only [admitted, Forwarding.admitted, Turn.pipeline_map]
  split <;> rfl

/-- What `admitted` sends for an event is that event. -/
theorem event?_admitted_forward (p : Pipeline) (v : Visit) (action : Action) (record : Record) :
    ∀ e ∈ ((Activity.forward (.entering v action record)).admitted p).stage.event?,
      e = (action, record) := by
  intro e he
  simp only [admitted, Forwarding.admitted, Turn.stage_map] at he
  split at he
  · cases he
  · exact (Option.some.inj he).symm

/-- `admitted` leaves `retry` alone for a flush. -/
theorem retry_admitted_flush (p : Pipeline) (v : Visit) (item : RetryItem) (rest : List RetryItem)
    (sent : Nat) :
    ((Activity.flush (.entering v item rest sent)).admitted p).pipeline.retry = p.retry := by
  simp only [admitted, Flushing.admitted, Turn.pipeline_map]
  split
  · rfl
  · exact Flushing.retry_next _ _ _ _ _

@[simp] theorem cache_admitted_flush (p : Pipeline) (v : Visit) (item : RetryItem)
    (rest : List RetryItem) (sent : Nat) :
    ((Activity.flush (.entering v item rest sent)).admitted p).pipeline.cache = p.cache := by
  simp only [admitted, Flushing.admitted, Turn.pipeline_map]
  split
  · rfl
  · exact Flushing.cache_next _ _ _ _ _

/-- `admitted` sends an item that the queue still `holds`. -/
theorem admitted_flush_of_holds {p : Pipeline} (v : Visit) {item : RetryItem}
    (rest : List RetryItem) (sent : Nat) (h : p.retry.holds item.identifier item.seq = true) :
    (Activity.flush (.entering v item rest sent)).admitted p =
      ⟨p, .flush (.sending v item rest sent), none, false⟩ := by
  simp only [admitted, Flushing.admitted, if_pos h, Turn.map]

/-- `admitted` passes over an item that the queue no longer `holds`: the rest is `pending`. -/
theorem pending_admitted_flush_of_not_holds {p : Pipeline} (v : Visit) {item : RetryItem}
    (rest : List RetryItem) (sent : Nat) (h : ¬ p.retry.holds item.identifier item.seq = true) :
    ((Activity.flush (.entering v item rest sent)).admitted p).stage.pending = rest := by
  simp only [admitted, Flushing.admitted, if_neg h, Turn.stage_map]
  exact Flushing.pending_next _ _ _ _ _

theorem pending_replied_flush_of_isOk (p : Pipeline) (v : Visit) (item : RetryItem)
    (rest : List RetryItem) (sent : Nat) {reply : Reply} (h : reply.isOk = true) :
    ((Activity.flush (.sending v item rest sent)).replied p reply).stage.pending = rest := by
  simp only [replied, Flushing.replied, if_pos h, Turn.stage_map]
  exact Flushing.pending_next _ _ _ _ _

/-- After `replied` to an event, `retry` holds nothing for its identifier if the reply `isOk`, and
the event with a new number otherwise. -/
theorem get?_replied_forward (p : Pipeline) (v : Visit) (action : Action) (record : Record)
    (reply : Reply) :
    ((Activity.forward (.sending v action record)).replied p reply).pipeline.retry.get?
        record.identifier =
      if reply.isOk then none else some ⟨record, action, 0, p.retry.lastSeq + 1⟩ := by
  simp only [replied, Forwarding.replied, Turn.pipeline_map]
  by_cases hok : reply.isOk = true
  · simp only [hok, if_true]
    exact (RetryQueue.get?_remove _ _ _).trans (if_pos rfl)
  · simp only [hok, if_false, Bool.false_eq_true]
    exact (RetryQueue.get?_add _ _ _ _).trans (if_pos rfl)

/-- After `replied` to a flush, `retry` holds nothing for the identifier if the reply `isOk`, and
the item with one more failure otherwise. -/
theorem get?_replied_flush {p : Pipeline} (v : Visit) {item : RetryItem} (rest : List RetryItem)
    (sent : Nat) (reply : Reply) (hq : p.retry.holds item.identifier item.seq = true) :
    ((Activity.flush (.sending v item rest sent)).replied p reply).pipeline.retry.get?
        item.identifier =
      if reply.isOk then none else (p.retry.get? item.identifier).map RetryItem.failedOnce := by
  simp only [replied, Flushing.replied, Turn.pipeline_map]
  -- Counting the reply leaves the queue alone, so the item is still the one queued.
  have hholds : (p.countReply reply).retry.holds item.identifier item.seq = true := hq
  by_cases hok : reply.isOk = true
  · simp only [hok, if_true, Flushing.retry_next, RetryQueue.complete_eq, hholds]
    show (Pipeline.settle _ item.action item.record).retry.get? item.identifier = none
    rw [Pipeline.retry_settle]
    exact (RetryQueue.get?_remove _ _ _).trans (if_pos rfl)
  · simp only [hok, if_false, Bool.false_eq_true]
    exact (RetryQueue.get?_recordFailure _ _ _ _).trans (if_pos ⟨hholds, rfl⟩)

/-- After a reply that `isOk`, `retry` holds nothing for the identifier. -/
theorem get?_replied_of_isOk {p : Pipeline} {a : Activity} {action : Action} {record : Record}
    {reply : Reply} (h : a.wait = .reply action record) (hs : a.isSweeping = false)
    (hq : Queued p.retry a) (hok : reply.isOk = true) :
    (a.replied p reply).pipeline.retry.get? record.identifier = none := by
  match a with
  | .forward (.sending v action' record') =>
    obtain ⟨rfl, rfl⟩ := Wait.reply.inj h
    exact (get?_replied_forward p v action' record' reply).trans (if_pos hok)
  | .flush (.sending v item rest sent) =>
    obtain ⟨rfl, rfl⟩ := Wait.reply.inj h
    exact (get?_replied_flush v rest sent reply (hq item rfl)).trans (if_pos hok)
  | .sweep (.sending ..) => cases hs
  | .forward (.entering ..) | .forward (.done _) | .flush (.entering ..) | .flush (.done _)
  | .sweep (.done _) => cases h

theorem isSweeping_admitted {p : Pipeline} {a : Activity} (h : a.isSweeping = false) :
    (a.admitted p).stage.isSweeping = false := by
  match a with
  | .forward (.entering ..) | .flush (.entering ..) => rfl
  | .forward (.sending ..) | .forward (.done _) | .flush (.sending ..) | .flush (.done _)
  | .sweep (.sending ..) | .sweep (.done _) => exact h

theorem isSweeping_replied {p : Pipeline} {a : Activity} (reply : Reply)
    (h : a.isSweeping = false) : (a.replied p reply).stage.isSweeping = false := by
  match a with
  | .forward (.sending ..) | .flush (.sending ..) => rfl
  | .sweep (.sending ..) => cases h
  | .forward (.entering ..) | .forward (.done _) | .flush (.entering ..) | .flush (.done _)
  | .sweep (.done _) => rfl

/-! ## The normalizer -/

@[simp] theorem normalizer_beginForward (p : Pipeline) (i : Nat) (action : Action) (doc : Json) :
    (beginForward p i action doc).pipeline.normalizer = p.normalizer := by
  simp only [beginForward, Forwarding.start, Turn.pipeline_map]
  cases p.normalizer.normalize doc <;> rfl

@[simp] theorem normalizer_beginFlush (p : Pipeline) (i : Nat) :
    (beginFlush p i).pipeline.normalizer = p.normalizer :=
  Flushing.normalizer_next _ _ _ _ _

@[simp] theorem normalizer_beginSweep (p : Pipeline) (owner : Owner) :
    (beginSweep p owner).pipeline.normalizer = p.normalizer :=
  Sweeping.normalizer_next _ _ _ _

@[simp] theorem normalizer_admitted (p : Pipeline) (a : Activity) :
    (a.admitted p).pipeline.normalizer = p.normalizer := by
  match a with
  | .forward (.entering u action record) =>
    simp only [admitted, Forwarding.admitted, Turn.pipeline_map]
    split <;> cases action <;> rfl
  | .flush (.entering u item rest sent) =>
    simp only [admitted, Flushing.admitted, Turn.pipeline_map]
    split
    · rfl
    · exact Flushing.normalizer_next _ _ _ _ _
  | .forward (.sending ..) | .forward (.done _) | .flush (.sending ..) | .flush (.done _)
  | .sweep (.sending ..) | .sweep (.done _) => rfl

@[simp] theorem normalizer_replied (p : Pipeline) (a : Activity) (reply : Reply) :
    (a.replied p reply).pipeline.normalizer = p.normalizer := by
  match a with
  | .forward (.sending u action record) =>
    simp only [replied, Forwarding.replied, Turn.pipeline_map]
    split
    · cases action <;> rfl
    · rfl
  | .flush (.sending u item rest sent) =>
    simp only [replied, Flushing.replied, Turn.pipeline_map]
    split
    · rw [Flushing.normalizer_next]
      show (if _ then Pipeline.settle _ _ _ else _ : Pipeline).normalizer = _
      split
      · cases item.action <;> rfl
      · rfl
    · rfl
  | .sweep (.sending owner id rest report) =>
    simp only [replied, Sweeping.replied, Turn.pipeline_map]
    split <;> exact Sweeping.normalizer_next _ _ _ _
  | .forward (.entering ..) | .forward (.done _) | .flush (.entering ..) | .flush (.done _)
  | .sweep (.done _) => rfl

/-! ## The hashes in the cache -/

@[simp] theorem hash?_beginForward (p : Pipeline) (i : Nat) (action : Action) (doc : Json)
    (id : String) : (beginForward p i action doc).pipeline.cache.hash? id = p.cache.hash? id := by
  simp only [beginForward, Forwarding.start, Turn.pipeline_map]
  cases p.normalizer.normalize doc <;> rfl

@[simp] theorem hash?_beginFlush (p : Pipeline) (i : Nat) (id : String) :
    (beginFlush p i).pipeline.cache.hash? id = p.cache.hash? id :=
  congrArg (ChangeCache.hash? · id) (Flushing.cache_next _ _ _ _ _)

@[simp] theorem hash?_beginSweep (p : Pipeline) (owner : Owner) (id : String) :
    (beginSweep p owner).pipeline.cache.hash? id = p.cache.hash? id :=
  Sweeping.hash?_next _ _ _ _ _

/-- `admitted` changes no `hash?` of the cache. -/
@[simp] theorem hash?_admitted (p : Pipeline) (a : Activity) (id : String) :
    (a.admitted p).pipeline.cache.hash? id = p.cache.hash? id := by
  match a with
  | .forward (.entering u action record) =>
    simp only [admitted, Forwarding.admitted, Turn.pipeline_map]
    split <;> exact Forwarding.hash?_observe p action record id
  | .flush (.entering u item rest sent) =>
    simp only [admitted, Flushing.admitted, Turn.pipeline_map]
    split
    · rfl
    · rw [Flushing.cache_next]
      rfl
  | .forward (.sending ..) | .forward (.done _) | .flush (.sending ..) | .flush (.done _)
  | .sweep (.sending ..) | .sweep (.done _) => rfl

/-- `replied` leaves the cache as `settle` does if the reply `isOk`, and alone otherwise. -/
theorem cache_replied {p : Pipeline} {a : Activity} {action : Action} {record : Record}
    (reply : Reply) (h : a.wait = .reply action record) (hs : a.isSweeping = false)
    (hq : Queued p.retry a) :
    (a.replied p reply).pipeline.cache =
      if reply.isOk then (p.settle action record).cache else p.cache := by
  match a with
  | .forward (.sending u action' record') =>
    obtain ⟨rfl, rfl⟩ := Wait.reply.inj h
    simp only [replied, Forwarding.replied, Turn.pipeline_map]
    split
    · cases action' <;> rfl
    · rfl
  | .flush (.sending u item rest sent) =>
    obtain ⟨rfl, rfl⟩ := Wait.reply.inj h
    simp only [replied, Flushing.replied, Turn.pipeline_map]
    split
    · -- The item is still the one queued, so the queue takes its success for good.
      have hholds : (p.countReply reply).retry.holds item.identifier item.seq = true := hq item rfl
      simp only [Flushing.cache_next, RetryQueue.complete_eq, hholds, if_true]
      cases item.action <;> rfl
    · rfl
  | .sweep (.sending ..) => cases hs
  | .forward (.entering ..) | .forward (.done _) | .flush (.entering ..) | .flush (.done _)
  | .sweep (.done _) => cases h

/-- `replied` to a request that `isOk` gives its identifier the `outcome` of the request as `hash?`;
nothing else changes a hash. -/
theorem hash?_replied {p : Pipeline} {a : Activity} {c : Call} (reply : Reply)
    (h : a.request? = some c) (hq : Queued p.retry a) (id : String) :
    (a.replied p reply).pipeline.cache.hash? id =
      if reply.isOk ∧ c.uid = id then c.outcome else p.cache.hash? id := by
  obtain ⟨action, record, hwait, rfl⟩ := wait_of_request h
  -- A sweep forgets what it deleted by itself; all others settle what was sent.
  cases hs : a.isSweeping with
  | false =>
    rw [cache_replied reply hwait hs hq]
    by_cases hok : reply.isOk = true
    · simp only [hok, if_true, true_and, Pipeline.hash?_settle]
      rfl
    · simp only [hok, if_false, false_and, Bool.false_eq_true]
  | true =>
    match a with
    | .sweep (.sending owner id' rest report) =>
      obtain ⟨rfl, rfl⟩ := Wait.reply.inj hwait
      simp only [replied, Sweeping.replied, Turn.pipeline_map]
      by_cases hok : reply.isOk = true
      · simp only [hok, if_true, true_and, Sweeping.hash?_next, ChangeCache.hash?_forget]
        rfl
      · simp only [hok, if_false, false_and, Bool.false_eq_true, Sweeping.hash?_next]
        rfl
    | .sweep (.done _) | .forward _ | .flush _ => cases hs

end Activity
end InventorySync
