import InventorySync.Proofs.View

/-!
# What comes back after a sweep

A sweep forgets what it has deleted, but leaves the queue alone. An update that failed and still
waits there when its identifier is swept is sent by the next flush that gets to it, and the object
is in the inventory again although nobody has seen it.

## Key results

- `Confined`, `confined_perform`: what every event has in common, every queued item and every
  request has in common
- `left_alone_iff`: a swept identifier is left alone exactly if nothing but a deletion is queued
  for it
- `resent_after_sweep`: a run in which something else is
-/

namespace InventorySync

/-! ## Where queued items come from -/

namespace Activity

/-- What `retry` holds after `admitted` it held before. -/
theorem queued_of_admitted {p : Pipeline} {a : Activity} {v : Visit} (h : a.wait = .gate v)
    {id : String} {item : RetryItem}
    (hitem : (a.admitted p).pipeline.retry.get? id = some item) : p.retry.get? id = some item := by
  match a with
  | .forward (.entering u action record) =>
    by_cases hsame : action ≠ .delete ∧ p.cache.hash? record.identifier = some record.contentHash
    · rw [(admitted_forward_of_unchanged u hsame.1 hsame.2).2, RetryQueue.get?_remove] at hitem
      split at hitem
      · cases hitem
      · exact hitem
    · rw [admitted_forward_of_changed u hsame] at hitem
      rwa [Forwarding.retry_observe] at hitem
  | .flush (.entering u item' rest sent) =>
    rwa [retry_admitted_flush] at hitem
  | .forward (.sending ..) | .forward (.done _) | .flush (.sending ..) | .flush (.done _)
  | .sweep (.sending ..) | .sweep (.done _) => cases h

/-- `replied` to a flush is `complete` on the queue for a reply that `isOk`, and `recordFailure`
otherwise. -/
theorem retry_replied_flush (p : Pipeline) (v : Visit) (item : RetryItem) (rest : List RetryItem)
    (sent : Nat) (reply : Reply) :
    ((Activity.flush (.sending v item rest sent)).replied p reply).pipeline.retry =
      if reply.isOk then (p.retry.complete item.identifier item.seq).2
      else p.retry.recordFailure item.identifier item.seq := by
  simp only [replied, Flushing.replied, Turn.pipeline_map]
  split
  · rw [Flushing.retry_next]
    -- Noting the success in the cache leaves the queue alone.
    show (if _ then Pipeline.settle _ _ _ else _ : Pipeline).retry = _
    split
    · exact Pipeline.retry_settle _ _ _
    · rfl
  · rfl

/-- What `retry` holds after `replied` it held before, its failures aside, or it is the `event?`
that has just failed. -/
theorem queued_of_replied {p : Pipeline} {a : Activity} {c : Call} (reply : Reply)
    (h : a.request? = some c) {id : String} {item : RetryItem}
    (hitem : (a.replied p reply).pipeline.retry.get? id = some item) :
    (∃ old, p.retry.get? id = some old ∧ old.action = item.action ∧ old.record = item.record) ∨
      a.event? = some (item.action, item.record) := by
  have hkept : p.retry.get? id = some item → ∃ old, p.retry.get? id = some old ∧
      old.action = item.action ∧ old.record = item.record := fun h => ⟨item, h, rfl, rfl⟩
  match a with
  -- A live event queues its own record, if it fails.
  | .forward (.sending v action record) =>
    by_cases hid : record.identifier = id
    · rw [← hid, get?_replied_forward] at hitem
      split at hitem
      · cases hitem
      · obtain rfl := Option.some.inj hitem
        exact Or.inr rfl
    · obtain rfl := Option.some.inj h
      have hother : _ = p.retry.get? id := (change_replied reply h).get?_of_ne hid
      exact Or.inl (hkept (hother ▸ hitem))
  -- A flush takes its item out, or leaves it.
  | .flush (.sending v sent rest n) =>
    rw [retry_replied_flush] at hitem
    split at hitem
    · rw [RetryQueue.complete_eq] at hitem
      dsimp only at hitem
      split at hitem
      · rw [RetryQueue.get?_remove] at hitem
        split at hitem
        · cases hitem
        · exact Or.inl (hkept hitem)
      · exact Or.inl (hkept hitem)
    · rw [RetryQueue.get?_recordFailure] at hitem
      split at hitem
      -- A failure is counted on the item, which stays what it was.
      · obtain ⟨old, hold, rfl⟩ := Option.map_eq_some_iff.mp hitem
        exact Or.inl ⟨old, hold, rfl, rfl⟩
      · exact Or.inl (hkept hitem)
  -- A sweep leaves the queue alone.
  | .sweep (.sending owner id' rest report) =>
    rw [retry_replied_sweep p reply rfl] at hitem
    exact Or.inl (hkept hitem)
  | .forward (.entering ..) | .forward (.done _) | .flush (.entering ..) | .flush (.done _)
  | .sweep (.done _) => cases h

/-- The `event?` of `beginForward` is the normalized document. -/
theorem normalize_of_event? {p : Pipeline} {i : Nat} {action : Action} {doc : Json}
    {e : Action × Record} (h : (beginForward p i action doc).stage.event? = some e) :
    ∃ r, p.normalizer.normalize doc = .ok r ∧ e = (action, r) := by
  simp only [beginForward, Forwarding.start, Turn.stage_map] at h
  cases hdoc : p.normalizer.normalize doc with
  | error _ =>
    rw [hdoc] at h
    cases h
  | ok r =>
    rw [hdoc] at h
    exact ⟨r, rfl, (Option.some.inj h).symm⟩

/-- The `event?` after `admitted` is the one before it. -/
theorem event?_admitted {p : Pipeline} {a : Activity} {e : Action × Record}
    (h : (a.admitted p).stage.event? = some e) : a.event? = some e := by
  match a with
  | .forward (.entering u action record) =>
    rw [event?_admitted_forward p u action record e h]
    rfl
  | .flush (.entering u item rest sent) => cases h
  | .forward (.sending ..) | .forward (.done _) | .flush (.sending ..) | .flush (.done _)
  | .sweep (.sending ..) | .sweep (.done _) => exact h

/-- After `replied` there is no `event?`. -/
theorem event?_replied {p : Pipeline} {a : Activity} {c : Call} (reply : Reply)
    (h : a.request? = some c) : (a.replied p reply).stage.event? = none := by
  match a with
  | .forward (.sending u action record) =>
    simp only [replied, Forwarding.replied, Turn.stage_map]
    split <;> rfl
  | .flush (.sending ..) | .sweep (.sending ..) => rfl
  | .forward (.entering ..) | .forward (.done _) | .flush (.entering ..) | .flush (.done _)
  | .sweep (.done _) => cases h

/-- What an activity waits for a `.reply` to is its `event?`, a `pending` item of a flush, or a
deletion by a sweep. -/
theorem origin_of_reply {a : Activity} {action : Action} {r : Record}
    (h : a.wait = .reply action r) :
    a.event? = some (action, r) ∨ (∃ item ∈ a.pending, item.action = action ∧ item.record = r) ∨
      ∃ id owner, action = .delete ∧ r = .tombstone id owner := by
  match a with
  | .forward (.sending v action' record') =>
    obtain ⟨rfl, rfl⟩ := Wait.reply.inj h
    exact Or.inl rfl
  | .flush (.sending v item rest n) =>
    obtain ⟨rfl, rfl⟩ := Wait.reply.inj h
    exact Or.inr (Or.inl ⟨item, List.mem_cons_self, rfl, rfl⟩)
  | .sweep (.sending owner id rest report) =>
    obtain ⟨rfl, rfl⟩ := Wait.reply.inj h
    exact Or.inr (Or.inr ⟨id, owner, rfl, rfl⟩)
  | .forward (.entering ..) | .forward (.done _) | .flush (.entering ..) | .flush (.done _)
  | .sweep (.done _) => cases h

end Activity

/-! ## What all requests have in common -/

namespace Session

/-- The requests since an earlier session, the newest first. -/
def askedSince (s earlier : Session) : List Exchange :=
  s.inventory.log.take (s.inventory.log.length - earlier.inventory.log.length)

theorem askedSince_eq {s earlier : Session} {new : List Exchange}
    (h : s.inventory.log = new ++ earlier.inventory.log) : s.askedSince earlier = new := by
  have hlength : s.inventory.log.length - earlier.inventory.log.length = new.length := by
    rw [h, List.length_append]
    omega
  rw [askedSince, hlength, h, List.take_left]

/-- Every queued item, and every request since `earlier`, is of a kind. -/
structure Confined (P : Action → Record → Prop) (earlier s : Session) : Prop where
  queued : ∀ {id item}, s.pipeline.retry.get? id = some item → P item.action item.record
  asked : ∃ new, s.inventory.log = new ++ earlier.inventory.log ∧
    ∀ e ∈ new, ∃ action r, e.call = .ofSend action r ∧ P action r

/-- `Confined`, also for what the activity still has to do: its `event?` and its `pending` items. -/
structure ConfinedAt (P : Action → Record → Prop) (earlier s : Session) (a : Activity) : Prop
    extends Confined P earlier s where
  event : ∀ {e}, a.event? = some e → P e.1 e.2
  pending : ∀ {item}, item ∈ a.pending → P item.action item.record

variable {P : Action → Record → Prop} {earlier s : Session}

theorem Confined.begin (h : Confined P earlier s) {o : Operation}
    (ho : ∀ action doc r, o = .forward action doc →
      s.pipeline.normalizer.normalize doc = .ok r → P action r) :
    ConfinedAt P earlier ⟨(s.begin o).pipeline, s.inventory⟩ (s.begin o).stage := by
  cases o with
  | forward action doc =>
    have hretry : (s.begin (.forward action doc)).pipeline.retry = s.pipeline.retry :=
      Activity.retry_beginForward _ _ _ _
    refine ⟨⟨fun hitem => h.queued (hretry ▸ hitem), h.asked⟩, fun {e} he => ?_, fun hitem => ?_⟩
    · change (Activity.beginForward s.pipeline 0 action doc).stage.event? = some e at he
      obtain ⟨r, hdoc, rfl⟩ := Activity.normalize_of_event? he
      exact ho action doc r rfl hdoc
    · cases hitem
  | flush =>
    have hretry : (s.begin .flush).pipeline.retry = s.pipeline.retry.list.2 :=
      Activity.retry_beginFlush _ _
    refine ⟨⟨fun hitem => h.queued (hretry ▸ hitem), h.asked⟩, fun he => ?_, fun hitem => ?_⟩
    · cases he
    · -- A flush sees to what is queued.
      have hlisted := (Activity.pending_beginFlush s.pipeline 0) ▸ hitem
      obtain ⟨id, hget⟩ := RetryQueue.get?_of_mem_list hlisted
      exact h.queued hget
  | sweep owner =>
    have hretry : (s.begin (.sweep owner)).pipeline.retry = s.pipeline.retry :=
      Activity.retry_beginSweep _ _
    refine ⟨⟨fun hitem => h.queued (hretry ▸ hitem), h.asked⟩, fun he => ?_, fun hitem => ?_⟩
    · cases he
    · cases hitem

theorem ConfinedAt.pass {a : Activity} {v : Visit} (h : ConfinedAt P earlier s a)
    (hwait : a.wait = .gate v) :
    ConfinedAt P earlier (s.pass a) (a.admitted s.pipeline).stage where
  queued hitem := h.queued (Activity.queued_of_admitted hwait hitem)
  asked := h.asked
  event he := h.event (Activity.event?_admitted he)
  pending hitem := h.pending (Activity.pending_admitted hitem)

theorem ConfinedAt.exchange {a : Activity} {action : Action} {r : Record}
    (hP : ∀ id owner, P .delete (.tombstone id owner)) (h : ConfinedAt P earlier s a)
    (hwait : a.wait = .reply action r) :
    ConfinedAt P earlier (s.exchange a action r)
      (a.replied s.pipeline s.inventory.answer.reply).stage := by
  have hrequest := Activity.request?_of_reply hwait
  refine ⟨⟨fun {id item} hitem => ?_, ?_⟩, fun he => ?_, fun hitem => ?_⟩
  · rcases Activity.queued_of_replied _ hrequest hitem with ⟨old, hold, haction, hrecord⟩ | he
    · rw [← haction, ← hrecord]
      exact h.queued hold
    · exact h.event he
  · -- The request that is answered is the newest one.
    have hsent : P action r := by
      rcases Activity.origin_of_reply hwait with
        he | ⟨item, hitem, rfl, rfl⟩ | ⟨id, owner, rfl, rfl⟩
      · exact h.event he
      · exact h.pending hitem
      · exact hP id owner
    obtain ⟨new, hlog, hnew⟩ := h.asked
    refine ⟨_ :: new, congrArg (List.cons _) hlog, fun e he => ?_⟩
    rcases List.mem_cons.mp he with rfl | he
    · exact ⟨action, r, rfl, hsent⟩
    · exact hnew e he
  · cases (Activity.event?_replied _ hrequest).symm.trans he
  · exact h.pending (Activity.pending_replied _ hitem)

/-- `perform` keeps `Confined` for a kind that has the operation's event and every tombstone. -/
theorem confined_perform (hP : ∀ id owner, P .delete (.tombstone id owner)) {o : Operation}
    (ho : ∀ action doc r, o = .forward action doc →
      s.pipeline.normalizer.normalize doc = .ok r → P action r)
    (h : Confined P earlier s) : Confined P earlier (s.perform o).2 := by
  obtain ⟨b, -, hend⟩ := perform_induct (I := ConfinedAt P earlier) o (h.begin ho)
    (fun h hwait => h.pass hwait) (fun h hwait _ => h.exchange hP hwait)
  exact hend.toConfined

theorem confined_performAll (hP : ∀ id owner, P .delete (.tombstone id owner)) {n : Normalizer}
    {os : List Operation} (hos : ∀ action doc r, .forward action doc ∈ os →
      n.normalize doc = .ok r → P action r)
    (hn : s.pipeline.normalizer = n) (h : Confined P earlier s) :
    Confined P earlier (s.performAll os) := by
  induction os generalizing s with
  | nil => exact h
  | cons o os ih =>
    refine ih (fun action doc r ho => hos action doc r (List.mem_cons_of_mem _ ho))
      ((normalizer_perform s o).trans hn) (confined_perform hP (fun action doc r ho hdoc => ?_) h)
    rw [hn] at hdoc
    exact hos action doc r (ho ▸ List.mem_cons_self) hdoc

/-! ## Confirmed deletions -/

/-- Every identifier whose deletion has been confirmed since `earlier` is forgotten. -/
structure ForgottenAt (earlier s : Session) (a : Activity) : Prop where
  isSweep : ∃ f, a = .sweep f
  forgotten : ∃ new, s.inventory.log = new ++ earlier.inventory.log ∧
    ∀ e ∈ new, e.reply.isOk = true → s.pipeline.cache.get? e.call.uid = none

theorem ForgottenAt.exchange {a : Activity} {action : Action} {r : Record}
    (h : ForgottenAt earlier s a) (hwait : a.wait = .reply action r) :
    ForgottenAt earlier (s.exchange a action r)
      (a.replied s.pipeline s.inventory.answer.reply).stage := by
  obtain ⟨⟨f, rfl⟩, new, hlog, hnew⟩ := h
  match f with
  | .sending owner id rest report =>
    obtain ⟨rfl, rfl⟩ := Wait.reply.inj hwait
    -- What the reply forgets and what was forgotten before both stay so until the next request.
    have hcache : ∀ id', (s.inventory.answer.reply.isOk = true ∧ id = id') ∨
        s.pipeline.cache.get? id' = none →
        ((Activity.sweep (.sending owner id rest report)).replied s.pipeline
          s.inventory.answer.reply).pipeline.cache.get? id' = none := by
      intro id' hid
      simp only [Activity.replied, Sweeping.replied, Turn.pipeline_map]
      split
      · refine Sweeping.get?_next_eq_none _ _ _ ?_
        show (s.pipeline.cache.forget id).get? id' = none
        rw [ChangeCache.get?_forget]
        rcases hid with ⟨-, rfl⟩ | hnone
        · rw [if_pos rfl]
        · rw [hnone, ite_self]
      next hok =>
        refine Sweeping.get?_next_eq_none _ _ _ ?_
        rcases hid with ⟨hok', -⟩ | hnone
        · exact absurd hok' hok
        · exact hnone
    refine ⟨⟨_, rfl⟩, _ :: new, congrArg (List.cons _) hlog, fun e he hok => ?_⟩
    rcases List.mem_cons.mp he with rfl | he
    · exact hcache _ (Or.inl ⟨hok, rfl⟩)
    · exact hcache _ (Or.inr (hnew e he hok))
  | .done _ => cases hwait

/-- After `perform` of a sweep, `get?` gives nothing for an identifier whose deletion was confirmed.
-/
theorem get?_sweep_of_confirmed (owner : Owner) {e : Exchange}
    (he : e ∈ (s.perform (.sweep owner)).2.askedSince s) (hok : e.reply.isOk = true) :
    (s.perform (.sweep owner)).2.pipeline.cache.get? e.call.uid = none := by
  obtain ⟨b, -, -, new, hlog, hnew⟩ := perform_induct (I := ForgottenAt s) (.sweep owner)
    ⟨⟨_, rfl⟩, [], rfl, fun e he => by cases he⟩
    (fun h hwait => by
      obtain ⟨⟨f, rfl⟩, -⟩ := h
      cases f <;> cases hwait)
    (fun h hwait _ => h.exchange hwait)
  rw [askedSince_eq hlog] at he
  exact hnew e he hok

/-! ## What is left of a swept identifier -/

end Session

/-- A creation or an update of an object arrives. -/
def Operation.Announces (n : Normalizer) (id : String) : Operation → Prop
  | .forward action doc => action ≠ .delete ∧ ∃ r, n.normalize doc = .ok r ∧ r.identifier = id
  | .flush | .sweep _ => False

namespace Session

/-- The inventory has these answers prepared from now on. -/
def answering (s : Session) (answers : List PreparedAnswer) : Session :=
  ⟨s.pipeline, { s.inventory with script := answers }⟩

/-- When only a deletion is queued for an identifier and no later operation `Announces` it,
everything that is asked for it is a deletion. -/
theorem deletes_of_queued {s : Session} {id : String} (hvalid : s.pipeline.retry.Valid)
    (hqueued : ∀ item, s.pipeline.retry.get? id = some item → item.action = .delete)
    (answers : List PreparedAnswer) {later : List Operation}
    (hlater : ∀ o ∈ later, ¬ o.Announces s.pipeline.normalizer id) {e : Exchange}
    (he : e ∈ ((s.answering answers).performAll later).askedSince s) (hid : e.call.uid = id) :
    e.call.action = .delete := by
  have hstart : Confined (fun action r => r.identifier = id → action = .delete) s
      (s.answering answers) := by
    refine ⟨fun {id' item} hitem hsame => ?_, [], rfl, fun e he => by cases he⟩
    have hfiled : item.identifier = id' := hvalid.filed hitem
    obtain rfl : id' = id := hfiled.symm.trans hsame
    exact hqueued item hitem
  have hrun : Confined _ s ((s.answering answers).performAll later) :=
    confined_performAll (fun _ _ _ => rfl) (fun action doc r ho hdoc hsame => by
      by_contra hne
      exact hlater _ ho ⟨hne, r, hdoc, hsame⟩) rfl hstart
  obtain ⟨new, hlog, hnew⟩ := hrun.asked
  rw [askedSince_eq hlog] at he
  obtain ⟨action, r, hcall, hkind⟩ := hnew e he
  rw [hcall] at hid ⊢
  exact hkind hid

/-- `perform .flush` with no answers but successes asks for what is queued. -/
theorem exists_asked_of_queued {s : Session} {id : String} {item : RetryItem}
    (hvalid : s.pipeline.retry.Valid) (hitem : s.pipeline.retry.get? id = some item) :
    ∃ e ∈ ((s.answering []).performAll [.flush]).askedSince s,
      e.call = .ofSend item.action item.record := by
  have hlog : ∃ new, ((s.answering []).perform .flush).2.inventory.log =
      new ++ s.inventory.log := by
    have hstart : Confined (fun _ _ => True) s (s.answering []) :=
      ⟨fun _ => trivial, [], rfl, fun e he => by cases he⟩
    obtain ⟨new, hlog, -⟩ := (confined_perform (o := .flush) (fun _ _ => trivial)
      (fun _ _ _ _ _ => trivial) hstart).asked
    exact ⟨new, hlog⟩
  obtain ⟨new, hlog⟩ := hlog
  have hwilling : (s.answering []).inventory.Willing := fun a ha => by cases ha
  rcases view_flush (s := s.answering []) hvalid hwilling id with ⟨hnone, -⟩ |
    ⟨sent, reply, hsent, -, hview⟩
  · cases hnone.symm.trans hitem
  · obtain rfl : item = sent := Option.some.inj (hitem.symm.trans hsent)
    -- Of the requests for the identifier one has come to those before, the item's.
    have hnew : (new.filter fun e => e.call.uid = id) =
        [⟨.ofSend item.action item.record, reply, true⟩] := by
      have hexchanges := congrArg View.exchanges hview
      change (List.filter _ _ : List Exchange) = _ :: List.filter _ _ at hexchanges
      rw [hlog, List.filter_append] at hexchanges
      exact List.append_cancel_right hexchanges
    refine ⟨⟨.ofSend item.action item.record, reply, true⟩, ?_, rfl⟩
    show _ ∈ ((s.answering []).perform .flush).2.askedSince s
    rw [askedSince_eq hlog]
    exact (List.mem_filter.mp (hnew ▸ List.mem_singleton_self _)).1

/-- `performAll` of events, flushes and sweeps, from an empty queue and whatever the cache. An
identifier whose deletion a sweep had confirmed is forgotten. From then on, whatever the inventory
answers and as long as no operation `Announces` it, no creation or update of it is sent, exactly if
nothing but a deletion is queued for it when the sweep is over. -/
theorem left_alone_iff {s₀ : Session} (start : s₀.pipeline.retry = .empty) (os : List Operation)
    (owner : Owner) {id : String}
    (deleted : ∃ e ∈ ((s₀.performAll os).perform (.sweep owner)).2.askedSince (s₀.performAll os),
      e.call = ⟨.delete, id, ""⟩ ∧ e.reply.isOk = true) :
    let s := ((s₀.performAll os).perform (.sweep owner)).2
    s.pipeline.cache.get? id = none ∧
    ((∀ answers later, (∀ o ∈ later, ¬ o.Announces s₀.pipeline.normalizer id) →
        ∀ e ∈ ((s.answering answers).performAll later).askedSince s, e.call.uid = id →
          e.call.action = .delete) ↔
      ∀ item, s.pipeline.retry.get? id = some item → item.action = .delete) := by
  intro s
  have hvalid : s.pipeline.retry.Valid :=
    valid_perform _ (valid_performAll os (start ▸ RetryQueue.valid_empty))
  have hn : s.pipeline.normalizer = s₀.pipeline.normalizer :=
    (normalizer_perform _ _).trans (normalizer_performAll s₀ os)
  refine ⟨?_, fun h item hitem => ?_, fun hqueued answers later hlater e he => ?_⟩
  · obtain ⟨e, he, hcall, hok⟩ := deleted
    have hforgotten := get?_sweep_of_confirmed owner he hok
    rwa [hcall] at hforgotten
  · obtain ⟨e, he, hcall⟩ := exists_asked_of_queued hvalid hitem
    have hsent := h [] [.flush] (by simp [Operation.Announces]) e he
    rw [hcall] at hsent
    exact hsent (hvalid.filed hitem)
  · exact deletes_of_queued hvalid hqueued answers (hn ▸ hlater) he

/-- The inventory has an object, and fails at the first requests. -/
def outageStart (failures : Nat) : Session :=
  fresh ⟨.cluster "c", .passthrough⟩ ChangeCache.empty.openWindow 0 (.ofList [("a", "h")] compare)
    (.replicate failures ⟨.status 503, false⟩)

/-- The object is updated, and was seen in its window. A flush repeats the request. -/
def repeatedInTime : List Operation :=
  [.forward .update (sampleDoc "a" "new"), .flush, .sweep (.cluster "c")]

/-- A confirmed deletion of the object. -/
def confirmedDeletion : Exchange := ⟨⟨.delete, "a", ""⟩, .status 200, true⟩

theorem left_alone_after_flush : (outageStart 1).pipeline.retry = .empty ∧
    let s := (((outageStart 1).performAll repeatedInTime).perform (.sweep (.cluster "c"))).2
    confirmedDeletion ∈ s.askedSince ((outageStart 1).performAll repeatedInTime) ∧
    ∀ answers later, (∀ o ∈ later, ¬ o.Announces ⟨.cluster "c", .passthrough⟩ "a") →
      ∀ e ∈ ((s.answering answers).performAll later).askedSince s, e.call.uid = "a" →
        e.call.action = .delete := by
  have hrun : confirmedDeletion ∈
        (((outageStart 1).performAll repeatedInTime).perform (.sweep (.cluster "c"))).2.askedSince
          ((outageStart 1).performAll repeatedInTime) ∧
      (((outageStart 1).performAll repeatedInTime).perform
        (.sweep (.cluster "c"))).2.pipeline.retry.get? "a" = none := by decide +kernel
  obtain ⟨hdeleted, hnone⟩ := hrun
  refine ⟨rfl, hdeleted, (left_alone_iff rfl repeatedInTime (.cluster "c")
    ⟨_, hdeleted, rfl, rfl⟩).2.mpr fun item hitem => ?_⟩
  cases hnone.symm.trans hitem

/-! ## When something else is queued -/

/-- The object is updated, and was seen in its window. The flush that would repeat the request
fails at the creation of another object, which is queued before it. -/
def leftQueued : List Operation :=
  [.forward .create (sampleDoc "x" "other"), .forward .update (sampleDoc "a" "new"), .flush,
    .sweep (.cluster "c")]

/-- The object is not seen in the next window and its deletion is confirmed by the sweep; then
`.flush` updates it, and the inventory has it again. -/
theorem resent_after_sweep :
    let s := (((outageStart 3).performAll leftQueued).perform (.sweep (.cluster "c"))).2
    confirmedDeletion ∈ s.askedSince ((outageStart 3).performAll leftQueued) ∧
    s.pipeline.cache.get? "a" = none ∧ s.inventory.held["a"]? = none ∧
    ((s.performAll [.flush]).askedSince s).map (fun e => (e.call.action, e.call.uid)) =
      [(.update, "a"), (.create, "x")] ∧
    (s.performAll [.flush]).inventory.held["a"]?.isSome = true := by decide +kernel

end Session
end InventorySync
