import InventorySync.Proofs.Sequential

/-!
# Operations as one identifier sees them

An operation touches an identifier at few places: its cache entry, its queued item, what the
inventory holds for it, and the requests for it. A view puts these together; every operation
changes the views of the identifiers that it is about and leaves the others as they are.

## Key results

- `view_forward_of_ne`, `view_forward_create`: an event
- `view_flush`: a flush without a failure has every queued item confirmed
- `view_sweep`: a sweep without a failure deletes what is unseen, and once
-/

namespace InventorySync

/-- All that concerns one identifier, as `Session.view` gives it. -/
structure View where
  entry : Option CacheEntry
  queued : Option RetryItem
  held : Option String
  /-- The requests for the identifier, the newest first. -/
  exchanges : List Exchange

/-- The requests for the identifier that were answered with success, the newest first. -/
def View.calls (v : View) : List Call := (v.exchanges.filter fun e => e.reply.isOk).map (·.call)

/-- The view after a request has been confirmed. -/
def View.confirmed (v : View) (windowOpen : Bool) (action : Action) (r : Record) (reply : Reply) :
    View where
  entry := (Call.ofSend action r).outcome.map (CacheEntry.mk · windowOpen)
  queued := none
  held := (Call.ofSend action r).outcome
  exchanges := ⟨.ofSend action r, reply, true⟩ :: v.exchanges

/-- The view after the identifier has been deleted by a sweep. -/
def View.deleted (v : View) (id : String) (reply : Reply) : View :=
  { v with
    entry := none
    held := none
    exchanges := ⟨⟨.delete, id, ""⟩, reply, true⟩ :: v.exchanges }

/-- Answers that hide nothing: a request that is answered with a failure is not carried out. -/
def honest (replies : List Reply) : List PreparedAnswer := replies.map (PreparedAnswer.mk · false)

namespace ScriptedInventory

/-- The requests for one identifier, the newest first. -/
def exchangesFor (v : ScriptedInventory) (id : String) : List Exchange :=
  v.log.filter fun e => e.call.uid = id

theorem exchangesFor_respond (v : ScriptedInventory) (action : Action) (r : Record) (id : String) :
    (v.respond action r).2.exchangesFor id =
      if r.identifier = id then ⟨.ofSend action r, v.answer.reply, v.lands⟩ :: v.exchangesFor id
      else v.exchangesFor id := by
  unfold exchangesFor respond
  rw [List.filter_cons]
  by_cases hid : r.identifier = id <;> simp [hid, Call.ofSend]

/-- Every failure that is prepared is a request that will not be carried out. -/
def Honest (v : ScriptedInventory) : Prop := ∃ replies, v.script = honest replies

/-- No failure is prepared. -/
def Willing (v : ScriptedInventory) : Prop := ∀ a ∈ v.script, a.reply.isOk = true

theorem Honest.respond {v : ScriptedInventory} (h : v.Honest) (action : Action) (r : Record) :
    (v.respond action r).2.Honest := by
  obtain ⟨replies, hscript⟩ := h
  refine ⟨replies.tail, ?_⟩
  show v.script.tail = _
  rw [hscript, honest, honest, List.map_tail]

theorem Honest.lands {v : ScriptedInventory} (h : v.Honest) : v.lands = v.answer.reply.isOk := by
  obtain ⟨replies, hscript⟩ := h
  unfold ScriptedInventory.lands answer
  rw [hscript]
  cases replies with
  | nil => rfl
  | cons reply rest => exact Bool.or_false _

theorem Willing.respond {v : ScriptedInventory} (h : v.Willing) (action : Action) (r : Record) :
    (v.respond action r).2.Willing := fun a ha => h a (List.mem_of_mem_tail ha)

theorem Willing.answer {v : ScriptedInventory} (h : v.Willing) : v.answer.reply.isOk = true := by
  unfold ScriptedInventory.answer
  cases hscript : v.script with
  | nil => rfl
  | cons a rest => exact h a (hscript ▸ List.mem_cons_self)

theorem lands_of_isOk {v : ScriptedInventory} (h : v.answer.reply.isOk = true) :
    v.lands = true := by
  simp only [lands, h, Bool.true_or]

end ScriptedInventory

namespace Session

/-- What concerns one identifier. -/
def view (s : Session) (id : String) : View :=
  ⟨s.pipeline.cache.get? id, s.pipeline.retry.get? id, s.inventory.held[id]?,
    s.inventory.exchangesFor id⟩

/-! ## Single steps -/

/-- `view` depends on the pipeline through the cache entry and the queued item of the identifier. -/
theorem view_congr {s : Session} {p : Pipeline} {id : String}
    (hcache : p.cache.get? id = s.pipeline.cache.get? id)
    (hretry : p.retry.get? id = s.pipeline.retry.get? id) :
    view ⟨p, s.inventory⟩ id = s.view id := by
  simp only [view, hcache, hretry]

theorem view_exchange_of_ne {s : Session} {a : Activity} {action : Action} {r : Record}
    {id : String} (hwait : a.wait = .reply action r) (hs : a.isSweeping = false)
    (hq : a.Queued s.pipeline.retry) (hid : r.identifier ≠ id) :
    (s.exchange a action r).view id = s.view id := by
  have hcache := Activity.cache_replied s.inventory.answer.reply hwait hs hq
  have hretry := (Activity.change_replied (p := s.pipeline) s.inventory.answer.reply
    (Activity.request?_of_reply hwait)).get?_of_ne hid
  have hget : (a.replied s.pipeline s.inventory.answer.reply).pipeline.cache.get? id =
      s.pipeline.cache.get? id := by
    rw [hcache]
    split
    · rw [Pipeline.get?_settle, if_neg hid]
    · rfl
  simp only [exchange, view, hget, hretry, ScriptedInventory.held_respond,
    ScriptedInventory.exchangesFor_respond, hid, and_false, if_false]

theorem view_exchange_of_isOk {s : Session} {a : Activity} {action : Action} {r : Record}
    (hwait : a.wait = .reply action r) (hs : a.isSweeping = false)
    (hq : a.Queued s.pipeline.retry) (hok : s.inventory.answer.reply.isOk = true) :
    (s.exchange a action r).view r.identifier =
      (s.view r.identifier).confirmed s.pipeline.cache.windowOpen action r
        s.inventory.answer.reply := by
  have hcache := Activity.cache_replied s.inventory.answer.reply hwait hs hq
  have hretry := Activity.get?_replied_of_isOk hwait hs hq hok
  rw [if_pos hok] at hcache
  simp only [exchange, view, View.confirmed, hcache, hretry, Pipeline.get?_settle,
    ScriptedInventory.held_respond, ScriptedInventory.exchangesFor_respond,
    ScriptedInventory.lands_of_isOk hok, true_and, if_true]

/-! ## Events -/

/-- `perform` of an event leaves the `view` of other identifiers alone. -/
theorem view_forward_of_ne {s : Session} {action : Action} {doc : Json} {r : Record} {id : String}
    (h : s.pipeline.normalizer.normalize doc = .ok r) (hid : r.identifier ≠ id) :
    (s.perform (.forward action doc)).2.view id = s.view id := by
  have hobserve : (Forwarding.observe s.pipeline action r).cache.get? id =
      s.pipeline.cache.get? id := by
    rw [Forwarding.get?_observe, if_neg fun hall => hid hall.2.2]
  -- Sent or not, all that changes is filed under the event's own identifier.
  by_cases hsame : action ≠ .delete ∧ s.pipeline.cache.hash? r.identifier = some r.contentHash
  · obtain ⟨-, hinventory, hcache, hretry⟩ := perform_forward_of_unchanged h hsame.1 hsame.2
    simp only [view, hinventory, hcache, hretry, hobserve, RetryQueue.get?_remove, if_neg hid]
  · obtain ⟨-, hinventory, hcache, hretry⟩ := perform_forward_of_changed h hsame
    simp only [view, hinventory, hcache, hretry, ScriptedInventory.held_respond,
      ScriptedInventory.exchangesFor_respond, hid, and_false, if_false]
    split
    · simp only [Pipeline.get?_settle, if_neg hid, hobserve, RetryQueue.get?_remove]
    · simp only [hobserve, RetryQueue.get?_add, if_neg hid]

/-- `perform` of a creation whose hash the cache holds marks its entry as seen, and leaves nothing
queued. -/
theorem view_create_of_unchanged {s : Session} {doc : Json} {r : Record}
    (h : s.pipeline.normalizer.normalize doc = .ok r)
    (hopen : s.pipeline.cache.windowOpen = true)
    (hc : s.pipeline.cache.hash? r.identifier = some r.contentHash) :
    (s.perform (.forward .create doc)).2.view r.identifier =
      { s.view r.identifier with entry := some ⟨r.contentHash, true⟩, queued := none } := by
  have hsend : Action.create ≠ .delete := by decide
  obtain ⟨-, hinventory, hcache, hretry⟩ := perform_forward_of_unchanged h hsend hc
  obtain ⟨e, he, hhash⟩ := Option.map_eq_some_iff.mp hc
  simp [view, hinventory, hcache, hretry, Forwarding.get?_observe, hopen, he, hhash,
    RetryQueue.get?_remove]

/-- `perform` of another creation has it `confirmed`, after a reply that `isOk`. -/
theorem view_create_of_isOk {s : Session} {doc : Json} {r : Record}
    (h : s.pipeline.normalizer.normalize doc = .ok r)
    (hopen : s.pipeline.cache.windowOpen = true)
    (hc : s.pipeline.cache.hash? r.identifier ≠ some r.contentHash)
    (hok : s.inventory.answer.reply.isOk = true) :
    (s.perform (.forward .create doc)).2.view r.identifier =
      (s.view r.identifier).confirmed true .create r s.inventory.answer.reply := by
  have hchanged : ¬ (Action.create ≠ .delete ∧
      s.pipeline.cache.hash? r.identifier = some r.contentHash) := fun hsame => hc hsame.2
  obtain ⟨-, hinventory, hcache, hretry⟩ := perform_forward_of_changed h hchanged
  simp [view, View.confirmed, hinventory, hcache, hretry, hok, Pipeline.get?_settle,
    Forwarding.windowOpen_observe, hopen, RetryQueue.get?_remove, ScriptedInventory.held_respond,
    ScriptedInventory.exchangesFor_respond, ScriptedInventory.lands_of_isOk hok]

/-- `perform` of another creation notes it as seen and queues it, after any other reply of an
`Honest` inventory. -/
theorem view_create_of_failure {s : Session} {doc : Json} {r : Record}
    (h : s.pipeline.normalizer.normalize doc = .ok r)
    (hopen : s.pipeline.cache.windowOpen = true)
    (hc : s.pipeline.cache.hash? r.identifier ≠ some r.contentHash)
    (hhonest : s.inventory.Honest) (hok : s.inventory.answer.reply.isOk = false) :
    ∃ seq, (s.perform (.forward .create doc)).2.view r.identifier =
      { s.view r.identifier with
        entry := (s.pipeline.cache.get? r.identifier).map fun e => { e with active := true }
        queued := some ⟨r, .create, 0, seq⟩
        exchanges := ⟨.ofSend .create r, s.inventory.answer.reply, false⟩ ::
          s.inventory.exchangesFor r.identifier } := by
  have hchanged : ¬ (Action.create ≠ .delete ∧
      s.pipeline.cache.hash? r.identifier = some r.contentHash) := fun hsame => hc hsame.2
  obtain ⟨-, hinventory, hcache, hretry⟩ := perform_forward_of_changed h hchanged
  refine ⟨s.pipeline.retry.lastSeq + 1, ?_⟩
  simp [view, hinventory, hcache, hretry, hok, Forwarding.get?_observe, hopen, RetryQueue.get?_add,
    ScriptedInventory.held_respond, ScriptedInventory.exchangesFor_respond, hhonest.lands]

/-- `perform` of an event leaves `windowOpen` alone. -/
theorem windowOpen_forward {s : Session} (action : Action) (doc : Json) :
    (s.perform (.forward action doc)).2.pipeline.cache.windowOpen =
      s.pipeline.cache.windowOpen := by
  cases h : s.pipeline.normalizer.normalize doc with
  | error e => rw [perform_forward_of_malformed action h]
  | ok r =>
    by_cases hsame : action ≠ .delete ∧ s.pipeline.cache.hash? r.identifier = some r.contentHash
    · obtain ⟨-, -, hcache, -⟩ := perform_forward_of_unchanged h hsame.1 hsame.2
      rw [hcache, Forwarding.windowOpen_observe]
    · obtain ⟨-, -, hcache, -⟩ := perform_forward_of_changed h hsame
      rw [hcache]
      split
      · rw [Pipeline.windowOpen_settle, Forwarding.windowOpen_observe]
      · rw [Forwarding.windowOpen_observe]

theorem honest_perform {s : Session} (o : Operation) (h : s.inventory.Honest) :
    (s.perform o).2.inventory.Honest := by
  obtain ⟨b, -, hend⟩ := perform_induct (s := s) (I := fun s _ => s.inventory.Honest) o h
    (fun h _ => h) (fun h _ _ => h.respond _ _)
  exact hend

theorem valid_perform {s : Session} (o : Operation) (h : s.pipeline.retry.Valid) :
    (s.perform o).2.pipeline.retry.Valid := by
  obtain ⟨b, -, -, hend⟩ := perform_induct (s := s)
    (I := fun s a => a.Proper ∧ s.pipeline.retry.Valid) o
    (by
      cases o with
      | forward action doc =>
        refine ⟨Activity.proper_beginForward _ _ _ _, ?_⟩
        exact (Activity.retry_beginForward s.pipeline 0 action doc).symm ▸ h
      | flush =>
        refine ⟨Flushing.proper_next _ _ _ _ _, ?_⟩
        exact (Activity.retry_beginFlush s.pipeline 0).symm ▸ h.list
      | sweep owner =>
        refine ⟨trivial, ?_⟩
        exact (Activity.retry_beginSweep s.pipeline owner).symm ▸ h)
    (fun h hwait => ⟨Activity.proper_admitted h.1, (Activity.change_admitted hwait h.1).valid h.2⟩)
    (fun h hwait _ => ⟨Activity.proper_replied _ h.1,
      (Activity.change_replied _ (Activity.request?_of_reply hwait)).valid h.2⟩)
  exact hend

theorem valid_performAll {s : Session} (os : List Operation) (h : s.pipeline.retry.Valid) :
    (s.performAll os).pipeline.retry.Valid :=
  performAll_induct (P := fun s => s.pipeline.retry.Valid) valid_perform h os

/-! ## Flushes -/

/-- How far a flush without failures has come with an identifier: its item is still `pending`, or
has been `confirmed`. -/
structure FlushedAt (s : Session) (id : String) (s' : Session) (a : Activity) : Prop where
  isFlush : ∃ f, a = .flush f
  windowOpen : s'.pipeline.cache.windowOpen = s.pipeline.cache.windowOpen
  willing : s'.inventory.Willing
  listed : ∀ {x}, x ∈ a.pending → x.identifier = id → s.pipeline.retry.get? id = some x
  progress : (s'.view id = s.view id ∧
      ∀ {item}, s.pipeline.retry.get? id = some item → item ∈ a.pending) ∨
    ∃ item reply, s.pipeline.retry.get? id = some item ∧ reply.isOk = true ∧
      s'.view id = (s.view id).confirmed s.pipeline.cache.windowOpen item.action item.record reply

variable {s s' : Session} {id : String} {a : Activity}

theorem flushedAt_begin (hvalid : s.pipeline.retry.Valid) (hwilling : s.inventory.Willing) :
    FlushedAt s id ⟨(s.begin .flush).pipeline, s.inventory⟩ (s.begin .flush).stage := by
  have hpending : (s.begin .flush).stage.pending = s.pipeline.retry.list.1 :=
    Activity.pending_beginFlush _ _
  have hcache : (s.begin .flush).pipeline.cache = s.pipeline.cache :=
    Flushing.cache_next _ _ _ _ _
  have hretry : (s.begin .flush).pipeline.retry = s.pipeline.retry.list.2 :=
    Activity.retry_beginFlush _ _
  refine ⟨⟨_, rfl⟩, congrArg _ hcache, hwilling, ?_, Or.inl ⟨view_congr ?_ ?_, ?_⟩⟩
  · intro x hx hid
    rw [hpending, RetryQueue.mem_list_iff hvalid, hid] at hx
    exact hx
  · rw [hcache]
  · rw [hretry, RetryQueue.get?_list]
  · intro item hitem
    rw [hpending, RetryQueue.mem_list_iff hvalid, hvalid.filed hitem]
    exact hitem

theorem FlushedAt.pass (hvalid : s.pipeline.retry.Valid) (h : FlushedAt s id s' a) {v : Visit}
    (hwait : a.wait = .gate v) :
    FlushedAt s id (s'.pass a) (a.admitted s'.pipeline).stage := by
  obtain ⟨⟨f, rfl⟩, hopen, hwilling, hlisted, hprogress⟩ := h
  match f with
  | .entering u item rest sent =>
    have hcache : ((Activity.flush (.entering u item rest sent)).admitted
        s'.pipeline).pipeline.cache = s'.pipeline.cache :=
      Activity.cache_admitted_flush _ _ _ _ _
    have hretry := Activity.retry_admitted_flush s'.pipeline u item rest sent
    have hview : (s'.pass (.flush (.entering u item rest sent))).view id = s'.view id :=
      view_congr (by rw [hcache]) (by rw [hretry])
    refine ⟨⟨_, rfl⟩, (congrArg _ hcache).trans hopen, hwilling,
      fun hx hid => hlisted (Activity.pending_admitted hx) hid, ?_⟩
    rw [hview]
    rcases hprogress with ⟨hsame, htodo⟩ | hdone
    · refine Or.inl ⟨hsame, fun {queued} hqueued => ?_⟩
      have hmem := htodo hqueued
      by_cases hholds : s'.pipeline.retry.holds item.identifier item.seq = true
      · rw [Activity.admitted_flush_of_holds _ _ _ hholds]
        exact hmem
      · rw [Activity.pending_admitted_flush_of_not_holds _ _ _ hholds]
        refine (List.mem_cons.mp hmem).resolve_left ?_
        rintro rfl
        -- The item is the one queued, so it would have been sent.
        have hget : s'.pipeline.retry.get? id = some queued :=
          (congrArg View.queued hsame).trans hqueued
        refine hholds ((RetryQueue.holds_eq_true_iff _ _ _).mpr ⟨queued, ?_, rfl⟩)
        rw [hvalid.filed hqueued]
        exact hget
    · exact Or.inr hdone
  | .sending .. | .done _ => cases hwait

theorem FlushedAt.exchange (hvalid : s.pipeline.retry.Valid) (h : FlushedAt s id s' a)
    {action : Action} {r : Record} (hwait : a.wait = .reply action r)
    (hq : a.Queued s'.pipeline.retry) :
    FlushedAt s id (s'.exchange a action r)
      (a.replied s'.pipeline s'.inventory.answer.reply).stage := by
  obtain ⟨⟨f, rfl⟩, hopen, hwilling, hlisted, hprogress⟩ := h
  have hok := hwilling.answer
  match f with
  | .sending u item rest sent =>
    obtain ⟨rfl, rfl⟩ := Wait.reply.inj hwait
    have hcache := Activity.cache_replied s'.inventory.answer.reply hwait rfl hq
    rw [if_pos hok] at hcache
    have hpending : ((Activity.flush (.sending u item rest sent)).replied s'.pipeline
        s'.inventory.answer.reply).stage.pending = rest :=
      Activity.pending_replied_flush_of_isOk _ _ _ _ _ hok
    refine ⟨⟨_, rfl⟩, ?_, hwilling.respond _ _, ?_, ?_⟩
    · exact (congrArg _ hcache).trans ((Pipeline.windowOpen_settle _ _ _).trans hopen)
    · intro x hx hid
      rw [hpending] at hx
      exact hlisted (List.mem_cons_of_mem _ hx) hid
    · by_cases hid : item.identifier = id
      · have hitem := hlisted List.mem_cons_self hid
        refine Or.inr ⟨item, _, hitem, hok, ?_⟩
        have hview := view_exchange_of_isOk hwait rfl hq hok
        rw [show item.record.identifier = id from hid] at hview
        rcases hprogress with ⟨hsame, -⟩ | ⟨_, _, -, -, hdone⟩
        · rw [hview, hsame, hopen]
        · -- What has been confirmed is not queued and not sent again.
          obtain ⟨queued, hget, -⟩ := (RetryQueue.holds_eq_true_iff _ _ _).mp (hq item rfl)
          rw [hid] at hget
          have hnone : s'.pipeline.retry.get? id = none := congrArg View.queued hdone
          cases hnone.symm.trans hget
      · -- Another item was confirmed; the identifier's own is still to come, if it has one.
        have hview := view_exchange_of_ne hwait rfl hq hid
        rw [hview, hpending]
        refine hprogress.imp_left fun ⟨hsame, htodo⟩ => ⟨hsame, fun {queued} hqueued => ?_⟩
        refine (List.mem_cons.mp (htodo hqueued)).resolve_left ?_
        rintro rfl
        exact hid (hvalid.filed hqueued)
  | .entering .. | .done _ => cases hwait

/-- `perform .flush` with a `Willing` inventory has the queued item `confirmed`, and leaves the
`view` of other identifiers alone. -/
theorem view_flush (hvalid : s.pipeline.retry.Valid) (hwilling : s.inventory.Willing)
    (id : String) :
    (s.pipeline.retry.get? id = none ∧ (s.perform .flush).2.view id = s.view id) ∨
    ∃ item reply, s.pipeline.retry.get? id = some item ∧ reply.isOk = true ∧
      (s.perform .flush).2.view id =
        (s.view id).confirmed s.pipeline.cache.windowOpen item.action item.record reply := by
  obtain ⟨b, hover, hend⟩ := perform_induct (I := FlushedAt s id) .flush
    (flushedAt_begin hvalid hwilling) (fun h hwait => h.pass hvalid hwait)
    (fun h hwait hq => h.exchange hvalid hwait hq)
  -- At the end nothing is left to be seen to, so what was queued has been confirmed.
  obtain ⟨⟨f, rfl⟩, -, -, -, ⟨hsame, htodo⟩ | hdone⟩ := hend
  · refine Or.inl ⟨?_, hsame⟩
    match f with
    | .done report =>
      refine Option.eq_none_iff_forall_ne_some.mpr fun item hitem => ?_
      cases htodo hitem
    | .entering .. | .sending .. => cases hover
  · exact Or.inr hdone

/-! ## Sweeps -/

/-- What a sweep without failures makes of the view of an identifier: one that was seen keeps all
but its mark, one that was not is deleted. -/
def Swept (s : Session) (id : String) (v : View) : Prop :=
  (id ∉ s.pipeline.cache.inactive ∧
    ∃ e, e.map (·.hash) = s.pipeline.cache.hash? id ∧ v = { s.view id with entry := e }) ∨
  (id ∈ s.pipeline.cache.inactive ∧
    ∃ reply, reply.isOk = true ∧ v = (s.view id).deleted id reply)

/-- How far a sweep without failures has come with an identifier: between `view` at the start and
`Swept`. -/
structure SweptAt (s : Session) (id : String) (s' : Session) (a : Activity) : Prop where
  isSweep : ∃ f, a = .sweep f
  willing : s'.inventory.Willing
  nodup : a.unswept.Nodup
  progress :
    (id ∈ a.unswept ∧ id ∈ s.pipeline.cache.inactive ∧ s'.view id = s.view id) ∨
    (id ∉ a.unswept ∧ s.Swept id (s'.view id))

theorem sweptAt_begin (owner : Owner) (hwilling : s.inventory.Willing) :
    SweptAt s id ⟨(s.begin (.sweep owner)).pipeline, s.inventory⟩
      (s.begin (.sweep owner)).stage := by
  have hunswept : (s.begin (.sweep owner)).stage.unswept = s.pipeline.cache.inactive :=
    Sweeping.unswept_next _ _ _ _
  have hretry : (s.begin (.sweep owner)).pipeline.retry = s.pipeline.retry :=
    Activity.retry_beginSweep _ _
  refine ⟨⟨_, rfl⟩, hwilling, ?_, ?_⟩
  · rw [hunswept]
    exact ChangeCache.nodup_inactive _
  · rw [hunswept]
    -- With nothing to delete the sweep is over at once, and its end takes the marks.
    by_cases hid : id ∈ s.pipeline.cache.inactive
    · refine Or.inl ⟨hid, hid, view_congr ?_ ?_⟩
      · exact Sweeping.get?_next_of_mem _ _ _ hid id
      · rw [hretry]
    · refine Or.inr ⟨hid, Or.inl ⟨hid, _, Activity.hash?_beginSweep s.pipeline owner id, ?_⟩⟩
      simp only [view, begin, Activity.retry_beginSweep]

section Deletion

variable {owner : Owner} {i : String} {rest : List String} {report : SweepReport}

/-- `exchange` of a deletion with a reply that `isOk` leaves the identifier `deleted`. -/
theorem view_deletion (hok : s'.inventory.answer.reply.isOk = true) :
    (s'.exchange (.sweep (.sending owner i rest report)) .delete (.tombstone i owner)).view i =
      (s'.view i).deleted i s'.inventory.answer.reply := by
  have hretry := Activity.retry_replied_sweep s'.pipeline
    (a := .sweep (.sending owner i rest report)) s'.inventory.answer.reply rfl
  have hcache : ((Activity.sweep (.sending owner i rest report)).replied s'.pipeline
      s'.inventory.answer.reply).pipeline.cache.get? i = none := by
    rw [Activity.replied_sweep_of_isOk _ _ _ _ _ hok]
    exact Sweeping.get?_next_eq_none _ _ _ ((ChangeCache.get?_forget _ _ _).trans (if_pos rfl))
  have hi : (Record.tombstone i owner).identifier = i := rfl
  simp only [view, exchange, View.deleted, hretry, hcache, ScriptedInventory.held_respond,
    ScriptedInventory.exchangesFor_respond, ScriptedInventory.lands_of_isOk hok, hi, true_and,
    if_true]
  rfl

/-- `exchange` of a deletion leaves the `view` of other identifiers alone, but for the mark when it
is the last one. -/
theorem view_deletion_of_ne (hid : i ≠ id) :
    (s'.exchange (.sweep (.sending owner i rest report)) .delete (.tombstone i owner)).view id =
      { s'.view id with
        entry := ((Activity.sweep (.sending owner i rest report)).replied s'.pipeline
          s'.inventory.answer.reply).pipeline.cache.get? id } := by
  have hretry := Activity.retry_replied_sweep s'.pipeline
    (a := .sweep (.sending owner i rest report)) s'.inventory.answer.reply rfl
  have hid' : (Record.tombstone i owner).identifier ≠ id := hid
  simp only [view, exchange, hretry, ScriptedInventory.held_respond,
    ScriptedInventory.exchangesFor_respond, hid', and_false, if_false]

theorem entry_deletion_of_mem (hok : s'.inventory.answer.reply.isOk = true) (hid : i ≠ id)
    (hmem : id ∈ rest) :
    ((Activity.sweep (.sending owner i rest report)).replied s'.pipeline
      s'.inventory.answer.reply).pipeline.cache.get? id = s'.pipeline.cache.get? id := by
  rw [Activity.replied_sweep_of_isOk _ _ _ _ _ hok]
  exact (Sweeping.get?_next_of_mem _ _ _ hmem id).trans
    ((ChangeCache.get?_forget _ _ _).trans (if_neg hid))

theorem entry_deletion_of_none (hok : s'.inventory.answer.reply.isOk = true) (hid : i ≠ id)
    (hnone : s'.pipeline.cache.get? id = none) :
    ((Activity.sweep (.sending owner i rest report)).replied s'.pipeline
      s'.inventory.answer.reply).pipeline.cache.get? id = none := by
  rw [Activity.replied_sweep_of_isOk _ _ _ _ _ hok]
  exact Sweeping.get?_next_eq_none _ _ _
    ((ChangeCache.get?_forget _ _ _).trans ((if_neg hid).trans hnone))

end Deletion

theorem SweptAt.exchange (h : SweptAt s id s' a) {action : Action} {r : Record}
    (hwait : a.wait = .reply action r) :
    SweptAt s id (s'.exchange a action r)
      (a.replied s'.pipeline s'.inventory.answer.reply).stage := by
  obtain ⟨⟨f, rfl⟩, hwilling, hnodup, hprogress⟩ := h
  have hok := hwilling.answer
  match f with
  | .sending owner i rest report =>
    obtain ⟨rfl, rfl⟩ := Wait.reply.inj hwait
    have hunswept := Activity.unswept_replied s'.pipeline owner i rest report
      s'.inventory.answer.reply
    obtain ⟨hi, hrest⟩ := List.nodup_cons.mp hnodup
    refine ⟨⟨_, rfl⟩, hwilling.respond _ _, ?_, ?_⟩
    · rw [hunswept]
      exact hrest
    rw [hunswept]
    -- The sweep deletes this identifier now, or sees to another one and may close the window.
    by_cases hid : i = id
    · subst hid
      rcases hprogress with ⟨-, hin, hsame⟩ | ⟨hnot, -⟩
      · refine Or.inr ⟨hi, Or.inr ⟨hin, _, hok, ?_⟩⟩
        rw [view_deletion hok, hsame]
      · exact absurd List.mem_cons_self hnot
    · rw [view_deletion_of_ne hid]
      rcases hprogress with ⟨hmem, hin, hsame⟩ | ⟨hnot, hswept⟩
      · have hmem' := (List.mem_cons.mp hmem).resolve_left (Ne.symm hid)
        refine Or.inl ⟨hmem', hin, ?_⟩
        rw [entry_deletion_of_mem hok hid hmem']
        exact hsame
      · refine Or.inr ⟨fun hmem => hnot (List.mem_cons_of_mem _ hmem), ?_⟩
        rcases hswept with ⟨hout, e, he, hsame⟩ | ⟨hin, reply, hreply, hsame⟩
        · -- The last deletion closes the window, which takes the mark and leaves the hash.
          refine Or.inl ⟨hout, _, ?_, by rw [hsame]⟩
          have hhash := Activity.hash?_replied (p := s'.pipeline) s'.inventory.answer.reply
            (Activity.request?_of_reply hwait) (fun _ hitem => by cases hitem) id
          rw [if_neg fun hall => hid hall.2] at hhash
          have hentry : s'.pipeline.cache.get? id = e := congrArg View.entry hsame
          refine hhash.trans ?_
          rw [ChangeCache.hash?, hentry]
          exact he
        · refine Or.inr ⟨hin, reply, hreply, ?_⟩
          have hnone : s'.pipeline.cache.get? id = none := congrArg View.entry hsame
          rw [entry_deletion_of_none hok hid hnone, hsame]
          rfl
  | .done _ => cases hwait

/-- `perform` of a sweep with a `Willing` inventory leaves every identifier `Swept`: unseen ones
deleted, the others as they were. -/
theorem view_sweep (owner : Owner) (hwilling : s.inventory.Willing) (id : String) :
    s.Swept id ((s.perform (.sweep owner)).2.view id) := by
  obtain ⟨b, hover, hend⟩ := perform_induct (I := SweptAt s id) (.sweep owner)
    (sweptAt_begin owner hwilling)
    (fun h hwait => by
      obtain ⟨⟨f, rfl⟩, -⟩ := h
      cases f <;> cases hwait)
    (fun h hwait _ => h.exchange hwait)
  -- At the end nothing is left to be swept.
  obtain ⟨⟨f, rfl⟩, -, -, ⟨hmem, -⟩ | ⟨-, hswept⟩⟩ := hend
  · match f with
    | .done report => cases hmem
    | .sending .. => cases hover
  · exact hswept

end Session
end InventorySync
