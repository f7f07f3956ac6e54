import InventorySync.Proofs.Backlog
import InventorySync.Proofs.Sequential

/-!
# What one flush does

A flush that runs alone sends the queued items in their order until one fails. The queue is read
here as the list that it stands for (`RetryQueue.Mirrors`): a success takes the first item off the
list, a failure is counted there and ends the flush, so that what is left is what was not confirmed.

## Key results

- `sendRest_cons_of_isOk`, `sendRest_cons_of_failure`: what the first item of the list comes to
- `Pipeline.Flushed`: queue and cache after a flush in which the first so many items were confirmed
- `sendRest_effect`: the loop, for every list and all replies
- `flush_effect`: one flush, whatever was done to the queue before
-/

namespace InventorySync

/-! ## The first item of the list -/

namespace Backlog

variable {b : Backlog} {item : RetryItem} {rest : List RetryItem}

/-- No other item of a backlog has the identifier of the first one. -/
theorem identifier_ne_of_cons (h : b.items = item :: rest) :
    ∀ other ∈ rest, other.identifier ≠ item.identifier := by
  have hdistinct := b.distinct
  rw [h, List.map_cons, List.nodup_cons] at hdistinct
  intro other hmem hsame
  exact hdistinct.1 (hsame ▸ List.mem_map_of_mem hmem)

theorem holds_of_cons (h : b.items = item :: rest) : b.holds item.identifier item.seq = true := by
  simp [holds, h]

theorem items_complete_of_cons (h : b.items = item :: rest) :
    (b.complete item.identifier item.seq).2.items = rest := by
  -- Leaving out the identifier leaves out the first item alone.
  have hkept : rest.filter (fun i => i.identifier ≠ item.identifier) = rest := by
    apply List.filter_eq_self.mpr
    intro other hmem
    simpa using identifier_ne_of_cons h other hmem
  rw [complete, if_pos (holds_of_cons h)]
  show b.items.filter _ = rest
  rw [h, List.filter_cons_of_neg (by simp), hkept]

theorem items_recordFailure_of_cons (h : b.items = item :: rest) :
    (b.recordFailure item.identifier item.seq).items =
      { item with failures := min (item.failures + 1) 4294967295 } :: rest := by
  have hkept : rest.map (fun i =>
      if i.identifier = item.identifier ∧ i.seq = item.seq then
        { i with failures := min (i.failures + 1) 4294967295 }
      else i) = rest := by
    apply (List.map_congr_left _).trans (List.map_id rest)
    intro other hmem
    simp [identifier_ne_of_cons h other hmem]
  show b.items.map _ = _
  rw [h, List.map_cons, hkept, if_pos ⟨rfl, rfl⟩]

end Backlog

/-! ## A remote side with replies in order -/

/-- The remote side gives its replies in order, and notes what it was asked. -/
def answering (replies : Nat → Reply) (asked : List (Action × Record)) (action : Action)
    (r : Record) : Reply × List (Action × Record) :=
  (replies asked.length, asked ++ [(action, r)])

/-- A flush that runs alone, from its beginning to its end: its report, the pipeline, and what the
remote side was asked. -/
def Pipeline.flushAlone (p : Pipeline) (visitor : Nat) (replies : Nat → Reply) :
    Report × Pipeline × List (Action × Record) :=
  let begun := Activity.beginFlush p visitor
  Activity.runAlone (answering replies) [] begun.pipeline begun.stage

namespace Flushing

/-- A flush goes on alone with the items that it has not seen to. -/
def sendRest (replies : Nat → Reply) (asked : List (Action × Record)) (p : Pipeline)
    (visitor : Nat) (handed : Option Nat) (items : List RetryItem) (sent : Nat) :
    Report × Pipeline × List (Action × Record) :=
  let turn := next p visitor handed items sent
  Activity.runAlone (answering replies) asked turn.pipeline (.flush turn.stage)

variable {replies : Nat → Reply} {asked : List (Action × Record)} {p : Pipeline}
  {item : RetryItem} (visitor : Nat) (handed : Option Nat) (rest : List RetryItem) (sent : Nat)

theorem sendRest_nil :
    sendRest replies asked p visitor handed [] sent =
      (.flushed ⟨sent, false, p.retry.size⟩, p, asked) :=
  Activity.runAlone_of_over asked p rfl

/-- `replied` with a reply that `isOk` takes the queued item out, notes it in the cache by `settle`,
and goes on with `next`. -/
theorem replied_of_isOk (visit : Visit) {reply : Reply}
    (hqueued : p.retry.holds item.identifier item.seq = true) (hok : reply.isOk = true) :
    ∃ p' handed', p'.retry = (p.retry.complete item.identifier item.seq).2 ∧
      p'.cache = (p.settle item.action item.record).cache ∧
      replied p visit item rest sent reply = next p' visit.visitor handed' rest (sent + 1) := by
  -- Counting the reply leaves the queue alone, so the item is still the one queued.
  have hcompleted : (p.countReply reply).retry.complete item.identifier item.seq =
      (true, (p.retry.remove item.identifier).2) := by
    show p.retry.complete item.identifier item.seq = _
    rw [RetryQueue.complete_eq, if_pos hqueued, hqueued]
  have hremoved : (p.retry.complete item.identifier item.seq).2 =
      (p.retry.remove item.identifier).2 := congrArg Prod.snd hcompleted
  simp only [replied, if_pos hok, hcompleted, if_true]
  refine ⟨_, _, ?_, ?_, rfl⟩
  · rw [hremoved]
    exact Pipeline.retry_settle _ _ _
  · cases item.action <;> rfl

/-- `sendRest` takes an item that is still queued through the gate, and goes on from the answer to
its request. -/
theorem sendRest_cons (hqueued : p.retry.holds item.identifier item.seq = true) :
    ∃ visit p', p'.retry = p.retry ∧ p'.cache = p.cache ∧
      sendRest replies asked p visitor handed (item :: rest) sent =
        Activity.runAlone (answering replies) (asked ++ [(item.action, item.record)])
          (replied p' visit item rest sent (replies asked.length)).pipeline
          (.flush (replied p' visit item rest sent (replies asked.length)).stage) := by
  let visit := (p.enter item.identifier visitor).1
  let p' := (p.enter item.identifier visitor).2
  -- Standing in the line of the gate is nothing to the queue and the cache.
  refine ⟨visit, p', rfl, rfl, ?_⟩
  have hadmitted := Activity.admitted_flush_of_holds (p := p') visit rest sent hqueued
  show Activity.runAlone _ asked p' (.flush (.entering visit item rest sent)) = _
  rw [Activity.runAlone_of_gate asked p' rfl, hadmitted]
  exact Activity.runAlone_of_reply asked p' rfl

/-- `sendRest` of an item whose reply `isOk` takes it out of the queue, notes it in the cache, and
goes on. -/
theorem sendRest_cons_of_isOk (hqueued : p.retry.holds item.identifier item.seq = true)
    (hok : (replies asked.length).isOk = true) :
    ∃ p' visitor' handed', p'.retry = (p.retry.complete item.identifier item.seq).2 ∧
      p'.cache = (p.settle item.action item.record).cache ∧
      sendRest replies asked p visitor handed (item :: rest) sent =
        sendRest replies (asked ++ [(item.action, item.record)]) p' visitor' handed' rest
          (sent + 1) := by
  obtain ⟨visit, p₁, hretry, hcache, hrun⟩ := sendRest_cons visitor handed rest sent hqueued
  obtain ⟨p', handed', hretry', hcache', hreplied⟩ :=
    replied_of_isOk rest sent visit (hretry ▸ hqueued) hok
  refine ⟨p', visit.visitor, handed', by rw [hretry', hretry], ?_, ?_⟩
  · rw [hcache']
    cases item.action <;> simp only [Pipeline.settle, hcache]
  · rw [hrun, hreplied]
    rfl

/-- `sendRest` of an item whose reply is a failure counts it by `recordFailure`, and ends there. -/
theorem sendRest_cons_of_failure (hqueued : p.retry.holds item.identifier item.seq = true)
    (hfailed : (replies asked.length).isOk = false) :
    ∃ p', p'.retry = p.retry.recordFailure item.identifier item.seq ∧ p'.cache = p.cache ∧
      sendRest replies asked p visitor handed (item :: rest) sent =
        (.flushed ⟨sent, true, p'.retry.size⟩, p', asked ++ [(item.action, item.record)]) := by
  obtain ⟨visit, p₁, hretry, hcache, hrun⟩ := sendRest_cons visitor handed rest sent hqueued
  rw [hrun]
  simp only [replied, hfailed, Bool.false_eq_true, if_false]
  refine ⟨_, ?_, ?_, Activity.runAlone_of_over _ _ rfl⟩
  · exact congrArg (·.recordFailure item.identifier item.seq) hretry
  · exact hcache

end Flushing

/-! ## The whole list -/

/-- Of `n` requests that are answered from `start` on, the first `m` succeed and the next one, if
there is one, does not. -/
structure StopsAt (replies : Nat → Reply) (start n m : Nat) : Prop where
  le : m ≤ n
  successes : ∀ i < m, (replies (start + i)).isOk = true
  failure : m < n → (replies (start + m)).isOk = false

namespace StopsAt

variable {replies : Nat → Reply} {start n m : Nat}

theorem nil : StopsAt replies start 0 0 where
  le := Nat.le_refl 0
  successes i hi := absurd hi (Nat.not_lt_zero i)
  failure hmore := absurd hmore (Nat.lt_irrefl 0)

theorem of_failure (h : (replies start).isOk = false) : StopsAt replies start n 0 where
  le := Nat.zero_le n
  successes i hi := absurd hi (Nat.not_lt_zero i)
  failure _ := h

theorem cons (hok : (replies start).isOk = true) (h : StopsAt replies (start + 1) n m) :
    StopsAt replies start (n + 1) (m + 1) where
  le := Nat.succ_le_succ h.le
  successes i hi := by
    cases i with
    | zero => exact hok
    | succ i =>
      have := h.successes i (by omega)
      rwa [Nat.add_right_comm] at this
  failure hmore := by
    have := h.failure (by omega)
    rwa [Nat.add_right_comm] at this

end StopsAt

/-- What the cache has for an item that was confirmed. -/
def RetryItem.settled (i : RetryItem) (windowOpen : Bool) : Option CacheEntry :=
  match i.action with
  | .delete => none
  | .create | .update => some ⟨i.record.contentHash, windowOpen⟩

theorem Pipeline.get?_settle_item (p : Pipeline) (item : RetryItem) (id : String) :
    (p.settle item.action item.record).cache.get? id =
      if item.identifier = id then item.settled p.cache.windowOpen else p.cache.get? id := by
  rw [get?_settle, RetryItem.identifier, RetryItem.settled]
  cases item.action <;> rfl

/-- Queue and cache after a flush in which the first `m` of the items were confirmed. -/
structure Pipeline.Flushed (p : Pipeline) (items : List RetryItem) (m : Nat) (p' : Pipeline) :
    Prop where
  /-- The others are queued as they were; the first of them has failed once more. -/
  queue : p'.retry.list.1 =
    (items.drop m).modifyHead fun i => { i with failures := min (i.failures + 1) 4294967295 }
  confirmed : ∀ item ∈ items.take m,
    p'.cache.get? item.identifier = item.settled p.cache.windowOpen
  untouched : ∀ id, (∀ item ∈ items.take m, item.identifier ≠ id) →
    p'.cache.get? id = p.cache.get? id
  windowOpen : p'.cache.windowOpen = p.cache.windowOpen

namespace Pipeline.Flushed

variable {p p₁ p' : Pipeline} {item : RetryItem} {items rest : List RetryItem} {m : Nat}

theorem of_cache_eq
    (hqueue : p'.retry.list.1 =
      items.modifyHead fun i => { i with failures := min (i.failures + 1) 4294967295 })
    (hcache : p'.cache = p.cache) : p.Flushed items 0 p' where
  queue := by rw [List.drop_zero, hqueue]
  confirmed _ hmem := by simp at hmem
  untouched _ _ := by rw [hcache]
  windowOpen := by rw [hcache]

/-- `Flushed` with one item more: first that one is confirmed, then `m` of the others. -/
theorem cons (hcache : p₁.cache = (p.settle item.action item.record).cache)
    (hne : ∀ other ∈ rest, other.identifier ≠ item.identifier) (h : p₁.Flushed rest m p') :
    p.Flushed (item :: rest) (m + 1) p' where
  queue := h.queue
  confirmed i hmem := by
    have hwindow : p₁.cache.windowOpen = p.cache.windowOpen := by
      rw [hcache, windowOpen_settle]
    rw [List.take_succ_cons] at hmem
    cases List.mem_cons.mp hmem with
    | inl hfirst =>
      -- What comes after the first item leaves its identifier alone.
      have huntouched := h.untouched item.identifier fun other hother =>
        hne other (List.mem_of_mem_take hother)
      rw [hfirst, huntouched, hcache, get?_settle_item, if_pos rfl]
    | inr hlater => rw [h.confirmed i hlater, hwindow]
  untouched id hid := by
    have hfirst : item.identifier ≠ id := hid item (by simp)
    have hlater : ∀ other ∈ rest.take m, other.identifier ≠ id :=
      fun other hmem => hid other (by simp [hmem])
    rw [h.untouched id hlater, hcache, get?_settle_item, if_neg hfirst]
  windowOpen := by rw [h.windowOpen, hcache, windowOpen_settle]

end Pipeline.Flushed

/-- `sendRest` from any point on: `StopsAt` says how many items are confirmed, as many as there are
successes before the first failure, and only the item after them is asked for besides. -/
theorem Flushing.sendRest_effect {p : Pipeline} {b : Backlog} (h : p.retry.Mirrors b)
    (replies : Nat → Reply) (asked : List (Action × Record)) (visitor : Nat)
    (handed : Option Nat) (sent : Nat) :
    ∃ m p', StopsAt replies asked.length b.items.length m ∧ p.Flushed b.items m p' ∧
      sendRest replies asked p visitor handed b.items sent =
        (.flushed ⟨sent + m, decide (m < b.items.length), b.items.length - m⟩, p',
          asked ++ (b.items.take (m + 1)).map fun i => (i.action, i.record)) := by
  -- What the flush has still to see to is the list that the queue stands for, so the induction on
  -- it goes over to the queue that is left after a success.
  generalize hitems : b.items = items
  induction items generalizing p b asked visitor handed sent with
  | nil =>
    have hlist : p.retry.list.1 = [] := h.list_eq.trans hitems
    have hsize : p.retry.size = 0 := by rw [h.size_eq, hitems, List.length_nil]
    refine ⟨0, p, .nil, .of_cache_eq hlist rfl, ?_⟩
    rw [sendRest_nil, hsize]
    simp
  | cons item rest ih =>
    have hqueued : p.retry.holds item.identifier item.seq = true := by
      rw [h.holds_eq, Backlog.holds_of_cons hitems]
    cases hreply : (replies asked.length).isOk with
    | false =>
      -- The flush ends here, with the whole list still queued.
      obtain ⟨p', hretry, hcache, hrun⟩ :=
        sendRest_cons_of_failure visitor handed rest sent hqueued hreply
      have hmirrors := hretry ▸ h.recordFailure item.identifier item.seq
      have hlist : p'.retry.list.1 =
          { item with failures := min (item.failures + 1) 4294967295 } :: rest :=
        hmirrors.list_eq.trans (Backlog.items_recordFailure_of_cons hitems)
      have hsize : p'.retry.size = rest.length + 1 := by
        rw [hmirrors.size_eq, Backlog.items_recordFailure_of_cons hitems, List.length_cons]
      refine ⟨0, p', .of_failure hreply, .of_cache_eq hlist hcache, ?_⟩
      rw [hrun, hsize]
      simp
    | true =>
      obtain ⟨p₁, visitor', handed', hretry, hcache, hrun⟩ :=
        sendRest_cons_of_isOk visitor handed rest sent hqueued hreply
      have hmirrors := hretry ▸ (h.complete item.identifier item.seq).2
      obtain ⟨m, p', hstops, heffect, hrest⟩ :=
        ih hmirrors (asked ++ [(item.action, item.record)]) visitor' handed' (sent + 1)
          (Backlog.items_complete_of_cons hitems)
      -- The replies to the rest are counted from one request later.
      rw [List.length_append, List.length_singleton] at hstops
      refine ⟨m + 1, p', hstops.cons hreply,
        heffect.cons hcache (Backlog.identifier_ne_of_cons hitems), ?_⟩
      rw [hrun, hrest]
      simp [Nat.add_assoc, Nat.add_comm 1 m]

/-- `flushAlone`, whatever `runAll` has done to the queue before: the items of the `list` are sent
in their order up to the first failure, and nothing after it. Those before it are noted in the cache
and gone from `retry`; all others stay as they are, the one that failed with its failure counted. -/
theorem Pipeline.flush_effect (p : Pipeline) (visitor : Nat) (replies : Nat → Reply)
    (cs : List QueueCommand) :
    let q := (runAll RetryQueue.answer .empty cs).2
    let items := q.list.1
    let (report, p', asked) := { p with retry := q }.flushAlone visitor replies
    ∃ m ≤ items.length,
      (∀ i < m, (replies i).isOk = true) ∧
      (m < items.length → (replies m).isOk = false) ∧
      asked = ((items.take (m + 1)).map fun i => (i.action, i.record)) ∧
      report = .flushed ⟨m, decide (m < items.length), items.length - m⟩ ∧
      p'.retry.list.1 = ((items.drop m).modifyHead fun i =>
        { i with failures := min (i.failures + 1) 4294967295 }) ∧
      (∀ item ∈ items.take m,
        p'.cache.get? item.identifier = item.settled p.cache.windowOpen) ∧
      (∀ id, (∀ item ∈ items.take m, item.identifier ≠ id) →
        p'.cache.get? id = p.cache.get? id) ∧
      p'.cache.windowOpen = p.cache.windowOpen := by
  intro q items
  have hmirrors : q.Mirrors (runAll Backlog.answer .empty cs).2 :=
    (runAll_simulates (fun c h => h.answer c) RetryQueue.mirrors_empty cs).2
  obtain ⟨m, p', hstops, heffect, hrun⟩ :=
    Flushing.sendRest_effect (p := { p with retry := q.list.2 }) hmirrors.list replies [] visitor
      none 0
  have hbegin : { p with retry := q }.flushAlone visitor replies =
      Flushing.sendRest replies [] { p with retry := q.list.2 } visitor none items 0 := rfl
  rw [← hmirrors.list_eq] at hstops heffect hrun
  have hsuccesses : ∀ i < m, (replies i).isOk = true := by simpa using hstops.successes
  have hfailure : m < items.length → (replies m).isOk = false := by simpa using hstops.failure
  rw [hbegin, hrun]
  simp only [Nat.zero_add, List.nil_append]
  exact ⟨m, hstops.le, hsuccesses, hfailure, rfl, rfl, heffect.queue, heffect.confirmed,
    heffect.untouched, heffect.windowOpen⟩

end InventorySync
