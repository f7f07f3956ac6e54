import InventorySync.Proofs.Commands
import InventorySync.Proofs.Sequential

/-!
# Events that do not interfere

Events arrive one after another and are forwarded each to its end. All of them go through one
cache and one queue, but what becomes of an event depends on what is filed under its own identifier
alone, as long as the remote side decides by the identifier and by how often it was asked about it.

## Key results

- `forwardNext_of_other`: an event is nothing to other identifiers
- `SameFor.own`, `SameFor.other`: two pipelines that have the same filed under an identifier
- `events_do_not_interfere`: any events, with and without those of other identifiers
-/

namespace InventorySync

/-- The identifier of an event, if its document can be read. -/
def Normalizer.identifier? (n : Normalizer) (d : Delivery) : Option String :=
  (n.normalize d.2).toOption.map (·.identifier)

theorem Normalizer.identifier?_eq_some_iff {n : Normalizer} {d : Delivery} {id : String} :
    n.identifier? d = some id ↔ ∃ r, n.normalize d.2 = .ok r ∧ r.identifier = id := by
  unfold identifier?
  cases n.normalize d.2 <;> simp [Except.toOption]

/-- A queued item without its generation. -/
def RetryItem.content (i : RetryItem) : Action × Record × Nat := (i.action, i.record, i.failures)

namespace Pipeline

section Next

variable {ρ : Type} (respond : ρ → Action → Record → Reply × ρ) (visitor : Nat)

/-- The next event is forwarded to its end. -/
def forwardNext (s : Pipeline × ρ) (d : Delivery) : Report × (Pipeline × ρ) :=
  forwardAlone respond s.2 s.1 visitor d.1 d.2

variable (s : Pipeline × ρ)

/-- `forwardNext` leaves the normalizer and `windowOpen` alone. -/
theorem forwardNext_keeps (d : Delivery) :
    (forwardNext respond visitor s d).2.1.normalizer = s.1.normalizer ∧
      (forwardNext respond visitor s d).2.1.cache.windowOpen = s.1.cache.windowOpen := by
  unfold forwardNext
  cases h : s.1.normalizer.normalize d.2 with
  | error e =>
    rw [forwardAlone_of_malformed _ s.2 visitor d.1 h]
    exact ⟨rfl, rfl⟩
  | ok r =>
    by_cases hsame : d.1 ≠ .delete ∧ s.1.cache.hash? r.identifier = some r.contentHash
    · obtain ⟨p', heq, hnormalizer, hcache, -⟩ :=
        forwardAlone_of_unchanged respond s.2 visitor h hsame.1 hsame.2
      rw [heq]
      exact ⟨hnormalizer, by rw [hcache, Forwarding.windowOpen_observe]⟩
    · obtain ⟨p', heq, hnormalizer, hcache, -⟩ :=
        forwardAlone_of_changed respond s.2 visitor h hsame
      rw [heq]
      refine ⟨hnormalizer, ?_⟩
      rw [hcache]
      split
      · rw [windowOpen_settle, Forwarding.windowOpen_observe]
      · rw [Forwarding.windowOpen_observe]

variable {s}

/-- `forwardNext` leaves other identifiers alone: their cache entry and their queued item stay, and
what is asked is not about them. -/
theorem forwardNext_of_other {d : Delivery} {id : String}
    (h : s.1.normalizer.identifier? d ≠ some id) :
    (forwardNext respond visitor s d).2.1.cache.get? id = s.1.cache.get? id ∧
      (forwardNext respond visitor s d).2.1.retry.get? id = s.1.retry.get? id ∧
      ((forwardNext respond visitor s d).2.2 = s.2 ∨ ∃ r, r.identifier ≠ id ∧
        (forwardNext respond visitor s d).2.2 = (respond s.2 d.1 r).2) := by
  unfold forwardNext
  cases hdoc : s.1.normalizer.normalize d.2 with
  | error e =>
    rw [forwardAlone_of_malformed _ s.2 visitor d.1 hdoc]
    exact ⟨rfl, rfl, Or.inl rfl⟩
  | ok r =>
    have hid : r.identifier ≠ id := fun hid =>
      h (Normalizer.identifier?_eq_some_iff.mpr ⟨r, hdoc, hid⟩)
    have hobserve : (Forwarding.observe s.1 d.1 r).cache.get? id = s.1.cache.get? id := by
      rw [Forwarding.get?_observe, if_neg fun hall => hid hall.2.2]
    -- A request is sent unless the hash is known, and in either case for `r` alone.
    by_cases hsame : d.1 ≠ .delete ∧ s.1.cache.hash? r.identifier = some r.contentHash
    · obtain ⟨p', heq, -, hcache, hretry⟩ :=
        forwardAlone_of_unchanged respond s.2 visitor hdoc hsame.1 hsame.2
      rw [heq]
      refine ⟨by rw [hcache, hobserve], ?_, Or.inl rfl⟩
      rw [hretry, RetryQueue.get?_remove, if_neg hid]
    · obtain ⟨p', heq, -, hcache, hretry⟩ :=
        forwardAlone_of_changed respond s.2 visitor hdoc hsame
      rw [heq]
      refine ⟨?_, ?_, Or.inr ⟨r, hid, rfl⟩⟩
      · rw [hcache]
        split
        · rw [get?_settle, if_neg hid, hobserve]
        · exact hobserve
      · rw [hretry]
        split
        · rw [RetryQueue.get?_remove, if_neg hid]
        · rw [RetryQueue.get?_add, if_neg hid]

end Next

/-! ## A remote side that tells identifiers apart -/

/-- The requests for one identifier. -/
def askedFor (asked : List (Action × Record)) (id : String) : List (Action × Record) :=
  asked.filter fun c => c.2.identifier = id

/-- The remote side decides by the identifier and by how often it was asked about it before, and
notes what it was asked. -/
def answeringEach (replies : String → Nat → Reply) (asked : List (Action × Record))
    (action : Action) (r : Record) : Reply × List (Action × Record) :=
  (replies r.identifier (askedFor asked r.identifier).length, asked ++ [(action, r)])

variable {asked : List (Action × Record)} {id : String}

theorem askedFor_askedFor : askedFor (askedFor asked id) id = askedFor asked id := by
  simp [askedFor]

theorem askedFor_concat (action : Action) (r : Record) :
    askedFor (asked ++ [(action, r)]) id =
      if r.identifier = id then askedFor asked id ++ [(action, r)] else askedFor asked id := by
  unfold askedFor
  rw [List.filter_append]
  by_cases hid : r.identifier = id <;> simp [hid]

/-! ## With and without the others -/

/-- Two pipelines with their remote sides that have the same filed under `id`: the window, the cache
entry, the queued item, and what was asked about it. The second was asked about nothing else. -/
structure SameFor (id : String) (s t : Pipeline × List (Action × Record)) : Prop where
  normalizer : s.1.normalizer = t.1.normalizer
  windowOpen : s.1.cache.windowOpen = t.1.cache.windowOpen
  entry : s.1.cache.get? id = t.1.cache.get? id
  queued : (s.1.retry.get? id).map RetryItem.content = (t.1.retry.get? id).map RetryItem.content
  asked : askedFor s.2 id = t.2

variable {s t : Pipeline × List (Action × Record)} {d : Delivery}

/-- `Forwarding.observe` leaves the same cache entry in pipelines that are `SameFor` the identifier.
-/
theorem SameFor.get?_observe (h : SameFor id s t) (action : Action) (r : Record) :
    (Forwarding.observe s.1 action r).cache.get? id =
      (Forwarding.observe t.1 action r).cache.get? id := by
  rw [Forwarding.get?_observe, Forwarding.get?_observe, h.windowOpen, h.entry]

variable (replies : String → Nat → Reply) (visitor : Nat)

/-- `forwardNext` on the first side alone keeps `SameFor`, with an event of another identifier or
one that cannot be read. -/
theorem SameFor.other (h : SameFor id s t) (hd : s.1.normalizer.identifier? d ≠ some id) :
    SameFor id (forwardNext (answeringEach replies) visitor s d).2 t := by
  obtain ⟨hnormalizer, hwindow⟩ := forwardNext_keeps (answeringEach replies) visitor s d
  obtain ⟨hentry, hqueued, hasked⟩ := forwardNext_of_other (answeringEach replies) visitor hd
  refine ⟨hnormalizer.trans h.normalizer, hwindow.trans h.windowOpen, hentry.trans h.entry, ?_, ?_⟩
  · rw [hqueued, h.queued]
  · rcases hasked with hsame | ⟨r, hid, hnew⟩
    · rw [hsame, h.asked]
    · rw [hnew, answeringEach, askedFor_concat, if_neg hid, h.asked]

/-- `forwardNext` on both sides with an event of the identifier has the same outcome and keeps
`SameFor`. -/
theorem SameFor.own (h : SameFor id s t) (hd : s.1.normalizer.identifier? d = some id) :
    (forwardNext (answeringEach replies) visitor s d).1 =
        (forwardNext (answeringEach replies) visitor t d).1 ∧
      SameFor id (forwardNext (answeringEach replies) visitor s d).2
        (forwardNext (answeringEach replies) visitor t d).2 := by
  obtain ⟨r, hs, rfl⟩ := Normalizer.identifier?_eq_some_iff.mp hd
  have ht : t.1.normalizer.normalize d.2 = .ok r := h.normalizer ▸ hs
  have hhash : s.1.cache.hash? r.identifier = t.1.cache.hash? r.identifier := by
    rw [ChangeCache.hash?, ChangeCache.hash?, h.entry]
  have hobserve := h.get?_observe d.1 r
  have hwindow : (Forwarding.observe s.1 d.1 r).cache.windowOpen =
      (Forwarding.observe t.1 d.1 r).cache.windowOpen := by
    rw [Forwarding.windowOpen_observe, Forwarding.windowOpen_observe, h.windowOpen]
  unfold forwardNext
  by_cases hsame : d.1 ≠ .delete ∧ s.1.cache.hash? r.identifier = some r.contentHash
  -- Neither run sends anything, and both drop what was queued.
  · obtain ⟨p, hsrun, hsnormalizer, hscache, hsretry⟩ :=
      forwardAlone_of_unchanged (answeringEach replies) s.2 visitor hs hsame.1 hsame.2
    obtain ⟨q, htrun, htnormalizer, htcache, htretry⟩ :=
      forwardAlone_of_unchanged (answeringEach replies) t.2 visitor ht hsame.1
        (hhash ▸ hsame.2)
    rw [hsrun, htrun]
    refine ⟨rfl, ?_, ?_, ?_, ?_, h.asked⟩
    · rw [hsnormalizer, htnormalizer, h.normalizer]
    · rw [hscache, htcache, hwindow]
    · rw [hscache, htcache, hobserve]
    · rw [hsretry, htretry, RetryQueue.get?_remove, RetryQueue.get?_remove, if_pos rfl, if_pos rfl]
  · obtain ⟨p, hsrun, hsnormalizer, hscache, hsretry⟩ :=
      forwardAlone_of_changed (answeringEach replies) s.2 visitor hs hsame
    obtain ⟨q, htrun, htnormalizer, htcache, htretry⟩ :=
      forwardAlone_of_changed (answeringEach replies) t.2 visitor ht (hhash ▸ hsame)
    -- Both have asked about the identifier equally often, so they get the same answer.
    have hasked : askedFor t.2 r.identifier = askedFor s.2 r.identifier := by
      rw [← h.asked, askedFor_askedFor]
    rw [hasked] at htrun htcache htretry
    rw [hsrun, htrun]
    -- So both settle the record or both queue it.
    refine ⟨rfl, ?_, ?_, ?_, ?_, ?_⟩
    · rw [hsnormalizer, htnormalizer, h.normalizer]
    · rw [hscache, htcache]
      split
      · rw [windowOpen_settle, windowOpen_settle, hwindow]
      · exact hwindow
    · rw [hscache, htcache]
      split
      · rw [get?_settle, get?_settle, if_pos rfl, if_pos rfl, hwindow]
      · exact hobserve
    · rw [hsretry, htretry]
      split
      · rw [RetryQueue.get?_remove, RetryQueue.get?_remove, if_pos rfl, if_pos rfl]
      · rw [RetryQueue.get?_add, RetryQueue.get?_add, if_pos rfl, if_pos rfl]
        rfl
    · rw [askedFor_concat, if_pos rfl, h.asked]

/-- Identifiers do not interfere in `runAll` of `forwardNext`: whatever is forwarded, the events of
an identifier have the same outcomes, lead to the same requests and leave the same entry and the
same queued item as they do without the events of others and without what cannot be read. An
identifier without events keeps its entry and its queued item. -/
theorem events_do_not_interfere (p : Pipeline) (visitor : Nat) (replies : String → Nat → Reply)
    (events : List Delivery) (id : String) :
    let own (d : Delivery) : Bool := p.normalizer.identifier? d = some id
    let (outcomes, p₁, asked₁) :=
      runAll (forwardNext (answeringEach replies) visitor) (p, []) events
    let (outcomes', p₂, asked₂) :=
      runAll (forwardNext (answeringEach replies) visitor) (p, []) (events.filter own)
    ((events.zip outcomes).filter fun x => own x.1).map (·.2) = outcomes' ∧
      askedFor asked₁ id = asked₂ ∧
      p₁.cache.get? id = p₂.cache.get? id ∧
      (p₁.retry.get? id).map RetryItem.content = (p₂.retry.get? id).map RetryItem.content ∧
      (events.filter own = [] →
        p₁.cache.get? id = p.cache.get? id ∧ p₁.retry.get? id = p.retry.get? id) := by
  intro own
  -- How documents are read stays the same on both sides, so an event is of the identifier or not
  -- whenever it comes.
  obtain ⟨houtcomes, -, hend⟩ := runAll_filter (forwardNext (answeringEach replies) visitor) own
    (R := fun s t => s.1.normalizer = p.normalizer ∧ SameFor id s t)
    (fun {s t} d hown h => by
      have hd : s.1.normalizer.identifier? d = some id := by simpa [own, h.1] using hown
      obtain ⟨houtcome, hnext⟩ := h.2.own replies visitor hd
      exact ⟨houtcome, (forwardNext_keeps _ visitor s d).1.trans h.1, hnext⟩)
    (fun {s t} d hown h => by
      have hd : s.1.normalizer.identifier? d ≠ some id := by simpa [own, h.1] using hown
      exact ⟨(forwardNext_keeps _ visitor s d).1.trans h.1, h.2.other replies visitor hd⟩)
    (s := (p, [])) (t := (p, [])) ⟨rfl, rfl, rfl, rfl, rfl, rfl⟩ events
  refine ⟨houtcomes, hend.asked, hend.entry, hend.queued, fun hnone => ?_⟩
  have hkept := runAll_preserves (forwardNext (answeringEach replies) visitor) (s := (p, []))
    (P := fun s => s.1.normalizer = p.normalizer ∧ s.1.cache.get? id = p.cache.get? id ∧
      s.1.retry.get? id = p.retry.get? id)
    (fun {s} d hmem h => by
      have hd : s.1.normalizer.identifier? d ≠ some id := by
        simpa [own, h.1] using List.filter_eq_nil_iff.mp hnone d hmem
      obtain ⟨hentry, hqueued, -⟩ := forwardNext_of_other (answeringEach replies) visitor hd
      exact ⟨(forwardNext_keeps _ visitor s d).1.trans h.1, hentry.trans h.2.1,
        hqueued.trans h.2.2⟩)
    ⟨rfl, rfl, rfl⟩
  exact hkept.2

end Pipeline
end InventorySync
