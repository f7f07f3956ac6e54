import InventorySync.Proofs.Agreement

/-!
# No update is lost

Live events and flushes in any interleaving, without sweeps. An event that has passed the gate is
the last word on its identifier until the next one passes: what it asks for is on its way, or the
inventory has it and nothing is queued, or it is queued itself.

## Key results

- `Kept`, `kept_step`: the invariant that carries the proof, and that every step keeps it
- `events_accounted_for`: when nothing is in flight for an identifier, cache and inventory agree at
  it, and the last event for it is in the inventory or in the queue
-/

namespace InventorySync.World

/-- The last live event for an identifier that passed the gate. -/
def lastPassed (w : World) (id : String) : Option (Action × Record) :=
  w.passed.find? fun e => e.2.identifier = id

/-- The inventory has what an event asks for and nothing is queued, or the event is queued. -/
def AccountedFor (w : World) (id : String) (action : Action) (record : Record) : Prop :=
  (w.pipeline.retry.get? id = none ∧ w.held[id]? = (Call.ofSend action record).outcome) ∨
    ∃ item, w.pipeline.retry.get? id = some item ∧ item.action = action ∧ item.record = record

/-- An event is on its way, or accounted for. -/
def Traced (w : World) (id : String) (action : Action) (record : Record) : Prop :=
  (∃ i v, w.activity? i = some (.forward (.sending v action record))) ∨
    w.AccountedFor id action record

/-- What every `Step` without a sweep keeps: the world is `Orderly` and `Balanced`, the queue is
`Valid` and `Recalls` what a flush has still to see to, and the last event of every identifier is
`Traced`. -/
structure Kept (w : World) : Prop where
  orderly : w.Orderly
  unswept : ∀ {i a}, w.activity? i = some a → a.isSweeping = false
  balanced : ∀ id, w.Balanced id
  valid : w.pipeline.retry.Valid
  recalls : ∀ {i a item}, w.activity? i = some a → item ∈ a.pending →
    w.pipeline.retry.Recalls item
  /-- An event in flight is the last that passed. -/
  live : ∀ {i v action record}, w.activity? i = some (.forward (.sending v action record)) →
    w.lastPassed record.identifier = some (action, record)
  accounted : ∀ {id action record}, w.lastPassed id = some (action, record) →
    w.Traced id action record

theorem identifier_of_lastPassed {w : World} {id : String} {e : Action × Record}
    (h : w.lastPassed id = some e) : e.2.identifier = id := by
  simpa using List.find?_some h

theorem lastPassed_pass_forward (w : World) (i : Nat) (v : Visit) (action : Action)
    (record : Record) (id : String) :
    (w.pass i (.forward (.entering v action record))).lastPassed id =
      if record.identifier = id then some (action, record) else w.lastPassed id := by
  show List.find? _ ((action, record) :: w.passed) = _
  rw [List.find?_cons]
  by_cases hid : record.identifier = id <;> simp [hid, lastPassed]

theorem AccountedFor.congr {w w' : World} {id : String} {action : Action} {record : Record}
    (h : w.AccountedFor id action record)
    (hretry : w'.pipeline.retry.get? id = w.pipeline.retry.get? id)
    (hheld : w'.held[id]? = w.held[id]?) : w'.AccountedFor id action record := by
  unfold AccountedFor
  rw [hretry, hheld]
  exact h

/-! ## What each step keeps -/

theorem unswept_step {w w' : World} {m : Move} (hm : m.isSweep = false)
    (hw : ∀ {i a}, w.activity? i = some a → a.isSweeping = false) (h : Step w m w') {j : Nat}
    {b : Activity} (hb : w'.activity? j = some b) : b.isSweeping = false := by
  have moved : ∀ {i t}, (w.turn i t).activity? j = some b → t.stage.isSweeping = false →
      b.isSweeping = false := by
    intro i t hb ht
    rcases moved_or_stayed hb with ⟨-, rfl⟩ | ⟨-, hb⟩
    · exact ht
    · exact hw hb
  cases h with
  | event i action doc free => exact moved hb rfl
  | flush i free => exact moved hb rfl
  | sweep i owner free => cases hm
  | pass i a landed v task waits free =>
    exact moved hb (Activity.isSweeping_admitted (hw (activity?_of_task task)))
  | land i a c task sent => exact hw ((activity?_land c task j).symm.trans hb)
  | reply i a c r task sent =>
    exact moved hb (Activity.isSweeping_replied r (hw (activity?_of_task task)))

/-- Every `Step` makes a `RetryQueue.Change` at one identifier. -/
theorem change_step {w w' : World} {m : Move} (hw : w.Orderly) (h : Step w m w') :
    ∃ id, RetryQueue.Change id w.pipeline.retry w'.pipeline.retry := by
  cases h with
  | event i action doc free =>
    refine ⟨"", ?_⟩
    rw [turn, Activity.retry_beginForward]
    exact .keep _
  | flush i free =>
    refine ⟨"", ?_⟩
    rw [turn, Activity.retry_beginFlush]
    exact .list _
  | sweep i owner free =>
    refine ⟨"", ?_⟩
    rw [turn, Activity.retry_beginSweep]
    exact .keep _
  | pass i a landed v task waits free =>
    exact ⟨_, Activity.change_admitted waits (hw.proper (activity?_of_task task))⟩
  | land i a c task sent => exact ⟨"", .keep _⟩
  | reply i a c r task sent => exact ⟨_, Activity.change_replied r sent⟩

/-- What is `pending` after a `Step` was `pending` before, or is in the queue's `list`. -/
theorem pending_step {w w' : World} {m : Move} (h : Step w m w') {j : Nat} {b : Activity}
    {item : RetryItem} (hb : w'.activity? j = some b) (hitem : item ∈ b.pending) :
    (∃ a, w.activity? j = some a ∧ item ∈ a.pending) ∨ item ∈ w.pipeline.retry.list.1 := by
  cases h with
  | event i action doc free =>
    rcases moved_or_stayed hb with ⟨-, rfl⟩ | ⟨-, hb⟩
    · cases hitem
    · exact Or.inl ⟨b, hb, hitem⟩
  | flush i free =>
    rcases moved_or_stayed hb with ⟨-, rfl⟩ | ⟨-, hb⟩
    · rw [Activity.pending_beginFlush] at hitem
      -- Only a flush that begins takes over what nobody had before: the list of the queue.
      exact Or.inr hitem
    · exact Or.inl ⟨b, hb, hitem⟩
  | sweep i owner free =>
    rcases moved_or_stayed hb with ⟨-, rfl⟩ | ⟨-, hb⟩
    · cases hitem
    · exact Or.inl ⟨b, hb, hitem⟩
  | pass i a landed v task waits free =>
    rcases moved_or_stayed hb with ⟨rfl, rfl⟩ | ⟨-, hb⟩
    · exact Or.inl ⟨a, activity?_of_task task, Activity.pending_admitted hitem⟩
    · exact Or.inl ⟨b, hb, hitem⟩
  | land i a c task sent =>
    exact Or.inl ⟨b, (activity?_land c task j).symm.trans hb, hitem⟩
  | reply i a c r task sent =>
    rcases moved_or_stayed hb with ⟨rfl, rfl⟩ | ⟨-, hb⟩
    · exact Or.inl ⟨a, activity?_of_task task, Activity.pending_replied r hitem⟩
    · exact Or.inl ⟨b, hb, hitem⟩

/-- When `admits` holds of a visit that waits, its identifier is `Quiet`. -/
theorem Kept.quiet_of_free {w : World} (hw : w.Kept) {i : Nat} {a : Activity} {v : Visit}
    (ha : w.activity? i = some a) (waits : a.wait = .gate v)
    (free : w.pipeline.gate.admits v = true) : w.Quiet v.identifier := by
  intro j c hc hid
  obtain ⟨b, hb, hbc⟩ := (w.request?_eq_some_iff j c).mp hc
  obtain rfl := hw.orderly.eq_of_request ha hb (Activity.visit?_of_gate waits) free hbc hid.symm
    (hw.unswept hb)
  obtain rfl := Option.some.inj (ha.symm.trans hb)
  cases (Activity.request?_of_gate waits).symm.trans hbc

theorem live_step {w w' : World} {m : Move} (hw : w.Kept) (h : Step w m w') {j : Nat} {v : Visit}
    {action : Action} {record : Record}
    (hj : w'.activity? j = some (.forward (.sending v action record))) :
    w'.lastPassed record.identifier = some (action, record) := by
  cases h with
  | event i action' doc free =>
    rcases moved_or_stayed hj with ⟨-, hnew⟩ | ⟨-, hj⟩
    · have hnone := Activity.request?_beginForward w.pipeline i action' doc
      rw [← hnew] at hnone
      cases hnone
    · exact hw.live hj
  | flush i free =>
    rcases moved_or_stayed hj with ⟨-, hnew⟩ | ⟨-, hj⟩
    · cases hnew
    · exact hw.live hj
  | sweep i owner free =>
    rcases moved_or_stayed hj with ⟨-, hnew⟩ | ⟨-, hj⟩
    · cases hnew
    · exact hw.live hj
  | pass i a landed u task waits free =>
    have ha := activity?_of_task task
    match a with
    | .forward (.entering u' action' record') =>
      obtain rfl := Wait.gate.inj waits
      rw [lastPassed_pass_forward]
      rcases moved_or_stayed hj with ⟨-, hnew⟩ | ⟨hji, hj⟩
      · -- The event that is let through is the one that is sent.
        have hsent := Activity.event?_admitted_forward w.pipeline u' action' record'
        rw [← hnew] at hsent
        obtain ⟨rfl, rfl⟩ := hsent _ rfl
        rw [if_pos rfl]
      -- An event in flight for the identifier would keep this one out of the gate.
      · rw [if_neg]
        · exact hw.live hj
        · intro hid
          have hquiet := hw.quiet_of_free ha rfl free
          refine hquiet j _ ((w.request?_eq_some_iff j _).mpr ⟨_, hj, rfl⟩) ?_
          exact hid.symm.trans (hw.orderly.proper ha).symm
    | .flush (.entering u' item rest sent) =>
      rcases moved_or_stayed hj with ⟨-, hnew⟩ | ⟨-, hj⟩
      · cases hnew
      · exact hw.live hj
    | .forward (.sending ..) | .forward (.done _) | .flush (.sending ..) | .flush (.done _)
    | .sweep (.sending ..) | .sweep (.done _) => cases waits
  | land i a c task sent => exact hw.live ((activity?_land c task j).symm.trans hj)
  | reply i a c r task sent =>
    rcases moved_or_stayed hj with ⟨-, hnew⟩ | ⟨-, hj⟩
    · have hnone : (a.replied w.pipeline r).stage.request? = none :=
        Activity.request?_replied r sent (hw.unswept (activity?_of_task task))
      rw [← hnew] at hnone
      cases hnone
    · exact hw.live hj

/-! ## Every event stays accounted for -/

/-- `turn` keeps `Traced` if `i` has not sent the event and `retry` has the same item for the
identifier. -/
theorem Traced.turn {w : World} {id : String} {action : Action} {record : Record}
    (h : w.Traced id action record) {i : Nat} {t : Turn Activity}
    (hi : ∀ v, w.activity? i ≠ some (.forward (.sending v action record)))
    (hretry : t.pipeline.retry.get? id = w.pipeline.retry.get? id) :
    (w.turn i t).Traced id action record := by
  rcases h with ⟨j, v, hj⟩ | h
  · refine Or.inl ⟨j, v, (activity?_turn_of_ne w t ?_).trans hj⟩
    rintro rfl
    exact hi v hj
  · exact Or.inr (h.congr hretry rfl)

theorem traced_pass {w : World} (hw : w.Kept) {i : Nat} {a : Activity} {v : Visit}
    (ha : w.activity? i = some a) (waits : a.wait = .gate v)
    (free : w.pipeline.gate.admits v = true) {id : String} {action : Action} {record : Record}
    (hlast : (w.pass i a).lastPassed id = some (action, record)) :
    (w.pass i a).Traced id action record := by
  have hi : ∀ u, w.activity? i ≠ some (.forward (.sending u action record)) := by
    intro u hu
    obtain rfl := Option.some.inj (ha.symm.trans hu)
    cases waits
  match a with
  | .forward (.entering u action' record') =>
    obtain rfl := Wait.gate.inj waits
    have hproper : u.identifier = record'.identifier := hw.orderly.proper ha
    rw [lastPassed_pass_forward] at hlast
    split at hlast
    next hid =>
      obtain ⟨rfl, rfl⟩ := Prod.mk.inj (Option.some.inj hlast)
      -- The event is the last word now: it is in the inventory already, or on its way.
      by_cases hsame : action' ≠ .delete ∧
          w.pipeline.cache.hash? record'.identifier = some record'.contentHash
      · -- The inventory is as the cache says, since nothing is in flight.
        obtain ⟨-, hretry⟩ := Activity.admitted_forward_of_unchanged u hsame.1 hsame.2
        have hquiet := hw.quiet_of_free ha rfl free
        rw [hproper] at hquiet
        have hheld := (hw.balanced _).settled hquiet.not_owes
        refine Or.inr (Or.inl ⟨?_, ?_⟩)
        · show ((Activity.forward (.entering u action' record')).admitted
            w.pipeline).pipeline.retry.get? id = none
          rw [hretry, RetryQueue.get?_remove, if_pos hid]
        · show w.held[id]? = _
          rw [Call.outcome_of_ne_delete hsame.1, ← hid, ← hheld, hsame.2]
      · have hstage := congrArg Turn.stage (Activity.admitted_forward_of_changed u hsame)
        refine Or.inl ⟨i, u, ?_⟩
        exact (activity?_turn w i _ i).trans ((if_pos rfl).trans (congrArg some hstage))
    -- It is the last word on another identifier, and changes nothing for this one.
    next hid =>
      have hchange := Activity.change_admitted (p := w.pipeline) waits hproper
      exact (hw.accounted hlast).turn hi (hchange.get?_of_ne (hproper ▸ hid))
  | .flush (.entering u item rest sent) =>
    exact (hw.accounted hlast).turn hi (congrArg (RetryQueue.get? · id)
      (Activity.retry_admitted_flush w.pipeline u item rest sent))
  | .forward (.sending ..) | .forward (.done _) | .flush (.sending ..) | .flush (.done _)
  | .sweep (.sending ..) | .sweep (.done _) => cases waits

/-- What a flush is `sending` is queued with the same record and action. -/
theorem Kept.resent_queued {w : World} (hw : w.Kept) {i : Nat} {v : Visit} {item : RetryItem}
    {rest : List RetryItem} {sent : Nat}
    (ha : w.activity? i = some (.flush (.sending v item rest sent))) :
    ∃ queued, w.pipeline.retry.get? item.identifier = some queued ∧
      queued.record = item.record ∧ queued.action = item.action := by
  -- The generation is still queued, and a generation never comes back with another content.
  obtain ⟨queued, hget, hseq⟩ :=
    (w.pipeline.retry.holds_eq_true_iff _ _).mp (hw.orderly.queued ha item rfl)
  exact ⟨queued, hget, (hw.recalls ha List.mem_cons_self).2 queued hget hseq⟩

/-- What a flush is `sending` is the `lastPassed` event for its identifier, if there is one. -/
theorem Kept.resent_eq {w : World} (hw : w.Kept) {i : Nat} {v : Visit} {item : RetryItem}
    {rest : List RetryItem} {sent : Nat}
    (ha : w.activity? i = some (.flush (.sending v item rest sent))) {action : Action}
    {record : Record} (hlast : w.lastPassed item.identifier = some (action, record)) :
    item.action = action ∧ item.record = record := by
  have hv : v.identifier = item.identifier := hw.orderly.proper ha
  have hid : record.identifier = item.identifier := identifier_of_lastPassed hlast
  obtain ⟨queued, hget, hrecord, haction⟩ := hw.resent_queued ha
  rcases hw.accounted hlast with ⟨j, u, hj⟩ | ⟨hnone, -⟩ | ⟨queued', hget', rfl, rfl⟩
  · -- An event in flight for the identifier would have the gate as well.
    obtain rfl := hw.orderly.eq_of_request ha hj rfl (hw.orderly.through ha rfl rfl) rfl
      (hv.trans hid.symm) rfl
    cases ha.symm.trans hj
  · cases hnone.symm.trans hget
  · obtain rfl := Option.some.inj (hget.symm.trans hget')
    exact ⟨haction.symm, hrecord.symm⟩

theorem traced_land {w : World} (hw : w.Kept) {i : Nat} {a : Activity} {c : Call}
    (task : w.tasks[i]? = some ⟨a, false⟩) (sent : a.request? = some c) {id : String}
    {action : Action} {record : Record} (hlast : w.lastPassed id = some (action, record)) :
    (w.land i a c).Traced id action record := by
  have ha := activity?_of_task task
  -- Only an event that is in the inventory can be undone by a request that is carried out now.
  rcases hw.accounted hlast with ⟨j, v, hj⟩ | ⟨hnone, hheld⟩ | hitem
  · exact Or.inl ⟨j, v, (activity?_land c task j).trans hj⟩
  · by_cases hid : c.uid = id
    · match a with
      | .forward (.sending v action' record') =>
        obtain rfl := Option.some.inj sent
        have hlive := hw.live ha
        rw [show record'.identifier = id from hid, hlast] at hlive
        obtain ⟨rfl, rfl⟩ := Prod.mk.inj (Option.some.inj hlive)
        exact Or.inl ⟨i, v, (activity?_land _ task i).trans ha⟩
      | .flush (.sending v item rest n) =>
        -- Nothing is queued, so nothing was sent again.
        obtain rfl := Option.some.inj sent
        obtain ⟨queued, hget, -⟩ := hw.resent_queued ha
        rw [show item.identifier = id from hid, hnone] at hget
        cases hget
      | .sweep (.sending ..) => cases hw.unswept ha
      | .forward (.entering ..) | .forward (.done _) | .flush (.entering ..) | .flush (.done _)
      | .sweep (.done _) => cases sent
    · refine Or.inr (Or.inl ⟨hnone, ?_⟩)
      show (w.held.carryOut c)[id]? = _
      rw [Holdings.getElem?_carryOut, if_neg hid, hheld]
  · exact Or.inr (Or.inr hitem)

theorem traced_reply {w : World} (hw : w.Kept) {i : Nat} {a : Activity} {c : Call} {r : Reply}
    (task : w.tasks[i]? = some ⟨a, r.isOk⟩) (sent : a.request? = some c) {id : String}
    {action : Action} {record : Record} (hlast : w.lastPassed id = some (action, record)) :
    (w.answer i a c r).Traced id action record := by
  have ha := activity?_of_task task
  have hrecord : record.identifier = id := identifier_of_lastPassed hlast
  have hretry := Activity.change_replied (p := w.pipeline) r sent
  have howed : r.isOk = true → c.uid = id → w.held[id]? = c.outcome := fun hok hid =>
    (hw.balanced id).owed ⟨a, hok ▸ task, sent⟩ hid
  -- An answer for the identifier decides where the event is; any other changes nothing for it.
  by_cases hid : c.uid = id
  · refine Or.inr ?_
    match a with
    | .forward (.sending v action' record') =>
      obtain rfl := Option.some.inj sent
      obtain rfl : record'.identifier = id := hid
      have hlive := hw.live ha
      rw [hlast] at hlive
      obtain ⟨rfl, rfl⟩ := Prod.mk.inj (Option.some.inj hlive)
      have hget := Activity.get?_replied_forward w.pipeline v action record r
      by_cases hok : r.isOk = true
      -- On its way it was; now the inventory has it, or it is queued.
      · exact Or.inl ⟨hget.trans (if_pos hok), howed hok rfl⟩
      · exact Or.inr ⟨_, hget.trans (if_neg hok), rfl, rfl⟩
    | .flush (.sending v item rest n) =>
      obtain rfl := Option.some.inj sent
      obtain rfl : item.identifier = id := hid
      -- What was sent again is the last event, so its answer is the answer to the event.
      obtain ⟨rfl, rfl⟩ := hw.resent_eq ha hlast
      have hholds := hw.orderly.queued ha item rfl
      have hget := Activity.get?_replied_flush v rest n r hholds
      by_cases hok : r.isOk = true
      · exact Or.inl ⟨hget.trans (if_pos hok), howed hok rfl⟩
      · obtain ⟨queued, hqueued, hrecord, haction⟩ := hw.resent_queued ha
        rw [if_neg hok, hqueued] at hget
        exact Or.inr ⟨_, hget, haction, hrecord⟩
    | .sweep (.sending ..) => cases hw.unswept ha
    | .forward (.entering ..) | .forward (.done _) | .flush (.entering ..) | .flush (.done _)
    | .sweep (.done _) => cases sent
  · refine (hw.accounted hlast).turn ?_ (hretry.get?_of_ne hid)
    intro v hv
    obtain rfl := Option.some.inj (ha.symm.trans hv)
    obtain rfl := Option.some.inj sent
    exact hid hrecord

theorem accounted_step {w w' : World} {m : Move} (hw : w.Kept) (h : Step w m w') {id : String}
    {action : Action} {record : Record} (hlast : w'.lastPassed id = some (action, record)) :
    w'.Traced id action record := by
  have begins : ∀ {i}, w.tasks[i]? = none →
      ∀ v, w.activity? i ≠ some (.forward (.sending v action record)) := by
    intro i free v hv
    cases (activity?_eq_none free).symm.trans hv
  cases h with
  | event i action' doc free =>
    refine (hw.accounted hlast).turn (begins free) ?_
    rw [Activity.retry_beginForward]
  | flush i free =>
    refine (hw.accounted hlast).turn (begins free) ?_
    rw [Activity.retry_beginFlush, RetryQueue.get?_list]
  | sweep i owner free =>
    refine (hw.accounted hlast).turn (begins free) ?_
    rw [Activity.retry_beginSweep]
  | pass i a landed v task waits free =>
    exact traced_pass hw (activity?_of_task task) waits free hlast
  | land i a c task sent => exact traced_land hw task sent hlast
  | reply i a c r task sent => exact traced_reply hw task sent hlast

/-! ## Whole runs -/

theorem kept_fresh (n : Normalizer) (c : ChangeCache) (errors : Nat) (held : Holdings) :
    (fresh n c errors held).Kept where
  orderly := orderly_start held rfl
  unswept h := by simp [fresh, start, activity?] at h
  balanced id := balanced_start (c.agreesAt_init held id)
  valid := RetryQueue.valid_empty
  recalls h := by simp [fresh, start, activity?] at h
  live h := by simp [fresh, start, activity?] at h
  accounted h := by simp [fresh, start, lastPassed] at h

theorem kept_step {w w' : World} {m : Move} (hm : m.isSweep = false) (hw : w.Kept)
    (h : Step w m w') : w'.Kept where
  orderly := orderly_step hw.orderly h
  unswept := unswept_step hm hw.unswept h
  balanced id := by
    -- Without sweeps no two requests for an identifier are in flight together.
    refine balanced_step hw.orderly (fun hcross => ?_) (hw.balanced id) h
    obtain ⟨i, a, c, ha, hs, -⟩ := sweep_of_crossing hw.orderly hcross
    cases hs.symm.trans (hw.unswept ha)
  valid := by
    obtain ⟨id, hchange⟩ := change_step hw.orderly h
    exact hchange.valid hw.valid
  recalls hb hitem := by
    obtain ⟨id, hchange⟩ := change_step hw.orderly h
    refine hchange.evolves.recalls ?_
    rcases pending_step h hb hitem with ⟨a, ha, hold⟩ | hlisted
    · exact hw.recalls ha hold
    · exact RetryQueue.recalls_of_mem_list hw.valid hlisted
  live := live_step hw h
  accounted := accounted_step hw h

/-- Events and flushes in any interleaving, from a `fresh` start: a cache that was filled from the
inventory's list and an empty queue. When an identifier is `Quiet`, `hash?` gives for it what is
`held`, and the `lastPassed` event for it is in the inventory with nothing queued, or is what `get?`
gives as queued. -/
theorem events_accounted_for (n : Normalizer) (c : ChangeCache) (errors : Nat) (held : Holdings)
    {moves : List Move} (unswept : ∀ m ∈ moves, m.isSweep = false) {w : World}
    (run : (fresh n c errors held).run? moves = some w) {id : String} (quiet : w.Quiet id) :
    (∀ hash, w.pipeline.cache.hash? id = some hash ↔ w.held[id]? = some hash) ∧
    ∀ action record, w.lastPassed id = some (action, record) →
      (w.pipeline.retry.get? id = none ∧ w.held[id]? = (Call.ofSend action record).outcome) ∨
      ∃ item, w.pipeline.retry.get? id = some item ∧ item.action = action ∧
        item.record = record := by
  have hw : w.Kept := run?_preserves kept_step unswept (kept_fresh n c errors held) run
  refine ⟨(hw.balanced id).agreesAt quiet, fun action record hlast => ?_⟩
  -- An event on its way would be a request in flight.
  rcases hw.accounted hlast with ⟨i, v, hi⟩ | haccounted
  · have hreq := (w.request?_eq_some_iff i _).mpr ⟨_, hi, rfl⟩
    exact absurd (identifier_of_lastPassed hlast) (quiet i _ hreq)
  · exact haccounted

/-- A creation fails; while a flush sends it again an update arrives, waits, and fails in turn. -/
def overtakingMoves : List Move :=
  [.event 0 .create (sampleDoc "b" "one"), .pass 0, .reply 0 (.lost "timeout"), .flush 1,
    .event 2 .update (sampleDoc "b" "two"), .pass 1, .land 1, .reply 1 (.status 201), .pass 2,
    .reply 2 (.status 503)]

theorem events_accounted_for_overtaking :
    (∀ m ∈ overtakingMoves, m.isSweep = false) ∧
    ∃ w, (fresh ⟨.cluster "c", .passthrough⟩ .empty 0 ∅).run? overtakingMoves = some w ∧
      w.Quiet "b" ∧ (∀ hash, w.pipeline.cache.hash? "b" = some hash ↔ w.held["b"]? = some hash) ∧
      ∃ record item, w.lastPassed "b" = some (.update, record) ∧
        w.pipeline.retry.get? "b" = some item ∧ item.action = .update ∧ item.record = record := by
  have hmoves : ∀ m ∈ overtakingMoves, m.isSweep = false := by decide
  have hrun : ((fresh ⟨.cluster "c", .passthrough⟩ .empty 0 ∅).run? overtakingMoves).map (fun w =>
      (w.tasks.toList.all fun t => t.2.activity.request? == none,
        (w.lastPassed "b").map (·.1), (w.pipeline.retry.get? "b").isSome)) =
      some (true, some .update, true) := by decide +kernel
  obtain ⟨w, hw, hend⟩ := Option.map_eq_some_iff.mp hrun
  simp only [Prod.mk.injEq, List.all_eq_true, beq_iff_eq] at hend
  obtain ⟨hidle, hlast, hqueued⟩ := hend
  have hquiet := quiet_of_forall_tasks hidle "b"
  obtain ⟨hagree, haccounted⟩ := events_accounted_for _ _ _ _ hmoves hw hquiet
  obtain ⟨⟨action, record⟩, hpassed, rfl⟩ := Option.map_eq_some_iff.mp hlast
  rcases haccounted _ record hpassed with ⟨hnone, -⟩ | ⟨item, hitem⟩
  · rw [hnone] at hqueued
    cases hqueued
  · exact ⟨hmoves, w, hw, hquiet, hagree, record, item, hpassed, hitem⟩

end InventorySync.World
