import InventorySync.Proofs.Sequential

/-!
# Events that are taken for unchanged

The cache holds what the inventory confirmed last. A request that is carried out while its answer
is lost changes the inventory and not the cache, so an event that goes back to the confirmed
content is taken for unchanged although the inventory holds something else, and the queued item
that would have told is dropped.

## Key results

- `Explained`, `explained_performAll`: cache and inventory differ at an identifier by its last
  request that was carried out, if that was not confirmed
- `unchanged_held_iff`: when an event that is taken for unchanged is held by the inventory
- `unchanged_after_lost_reply`: a run in which it is not
-/

namespace InventorySync

/-- The last request for an identifier that was carried out, if its answer was a failure. -/
def ScriptedInventory.unconfirmed? (v : ScriptedInventory) (id : String) : Option Call :=
  match v.log.find? fun e => e.landed && e.call.uid == id with
  | some e => if e.reply.isOk then none else some e.call
  | none => none

theorem ScriptedInventory.unconfirmed?_respond (v : ScriptedInventory) (action : Action)
    (r : Record) (id : String) :
    (v.respond action r).2.unconfirmed? id =
      if v.lands ∧ r.identifier = id then
        if v.answer.reply.isOk then none else some (.ofSend action r)
      else v.unconfirmed? id := by
  unfold unconfirmed? respond
  rw [List.find?_cons]
  by_cases h : v.lands = true ∧ r.identifier = id
  · simp [h, Call.ofSend]
  · have hfalse : (v.lands && (Call.ofSend action r).uid == id) = false := by
      simpa [Call.ofSend] using h
    simp only [hfalse, if_neg h]

namespace Session

/-- The inventory holds what the cache says, or the `outcome` of the last request that was carried
out and not confirmed. -/
structure Explained (s : Session) (id : String) : Prop where
  confirmed : s.inventory.unconfirmed? id = none →
    s.inventory.held[id]? = s.pipeline.cache.hash? id
  unconfirmed : ∀ c, s.inventory.unconfirmed? id = some c → s.inventory.held[id]? = c.outcome

theorem explained_fresh (n : Normalizer) (c : ChangeCache) (errors : Nat) (held : Holdings)
    (script : List PreparedAnswer) (id : String) :
    (fresh n c errors held script).Explained id where
  confirmed _ := ((c.init held.toList).agreesAt_iff held id |>.mp (c.agreesAt_init held id)).symm
  unconfirmed c h := by cases h

/-- `Explained` depends on the pipeline through `hash?` alone. -/
theorem Explained.congr {s : Session} {id : String} (hs : s.Explained id) {p : Pipeline}
    (h : p.cache.hash? id = s.pipeline.cache.hash? id) :
    Explained ⟨p, s.inventory⟩ id where
  confirmed hnone := (hs.confirmed hnone).trans h.symm
  unconfirmed := hs.unconfirmed

theorem Explained.exchange {s : Session} {id : String} (hs : s.Explained id) {a : Activity}
    {action : Action} {r : Record} (hwait : a.wait = .reply action r)
    (hq : a.Queued s.pipeline.retry) : (s.exchange a action r).Explained id := by
  have hcache := Activity.hash?_replied s.inventory.answer.reply
    (Activity.request?_of_reply hwait) hq id
  have hheld := s.inventory.held_respond action r id
  have hlost := s.inventory.unconfirmed?_respond action r id
  -- Only a request that is carried out for the identifier touches what is said about it.
  by_cases hid : s.inventory.lands = true ∧ r.identifier = id
  · rw [if_pos hid] at hheld hlost
    -- Confirmed, it changes cache and inventory alike; unconfirmed, it is the one that explains.
    by_cases hok : s.inventory.answer.reply.isOk = true
    · rw [if_pos ⟨hok, hid.2⟩] at hcache
      rw [if_pos hok] at hlost
      refine ⟨fun _ => hheld.trans hcache.symm, fun c hc => ?_⟩
      cases hlost.symm.trans hc
    · rw [if_neg hok] at hlost
      refine ⟨fun hnone => ?_, fun c hc => ?_⟩
      · cases hlost.symm.trans hnone
      · obtain rfl := Option.some.inj (hlost.symm.trans hc)
        exact hheld
  · -- What is confirmed is carried out, so nothing is confirmed for the identifier either.
    have hkept : ¬ (s.inventory.answer.reply.isOk = true ∧ (Call.ofSend action r).uid = id) := by
      rintro ⟨hok, huid⟩
      exact hid ⟨by simp [ScriptedInventory.lands, hok], huid⟩
    rw [if_neg hid] at hheld hlost
    rw [if_neg hkept] at hcache
    refine ⟨fun hnone => ?_, fun c hc => ?_⟩
    · exact hheld.trans ((hs.confirmed (hlost.symm.trans hnone)).trans hcache.symm)
    · exact hheld.trans (hs.unconfirmed c (hlost.symm.trans hc))

theorem explained_perform {s : Session} {id : String} (o : Operation) (hs : s.Explained id) :
    (s.perform o).2.Explained id := by
  have hbegin : Explained ⟨(s.begin o).pipeline, s.inventory⟩ id := by
    refine hs.congr ?_
    cases o with
    | forward action doc => exact Activity.hash?_beginForward _ _ _ _ _
    | flush => exact Activity.hash?_beginFlush _ _ _
    | sweep owner => exact Activity.hash?_beginSweep _ _ _
  obtain ⟨b, -, hend⟩ := perform_induct (s := s) (I := fun s _ => s.Explained id) o hbegin
    (fun h _ => h.congr (Activity.hash?_admitted _ _ _)) (fun h hwait hq => h.exchange hwait hq)
  exact hend

theorem explained_performAll (n : Normalizer) (c : ChangeCache) (errors : Nat) (held : Holdings)
    (script : List PreparedAnswer) (os : List Operation) (id : String) :
    ((fresh n c errors held script).performAll os).Explained id :=
  performAll_induct (P := fun s => s.Explained id) explained_perform
    (explained_fresh n c errors held script id) os

/-- After `perform` of an event that ends as `.unchanged`, `hash?` gives its hash and nothing is
queued for its identifier. -/
theorem of_perform_unchanged {s after : Session} {action : Action} {doc : Json}
    (h : s.perform (.forward action doc) = (.forwarded .unchanged, after)) :
    ∃ r, s.pipeline.normalizer.normalize doc = .ok r ∧ action ≠ .delete ∧
      after.pipeline.cache.hash? r.identifier = some r.contentHash ∧
      after.pipeline.retry.get? r.identifier = none := by
  cases hdoc : s.pipeline.normalizer.normalize doc with
  | error e =>
    rw [perform_forward_of_malformed action hdoc] at h
    cases h
  | ok r =>
    by_cases hsame : action ≠ .delete ∧
        s.pipeline.cache.hash? r.identifier = some r.contentHash
    · obtain ⟨-, -, hcache, hretry⟩ := perform_forward_of_unchanged hdoc hsame.1 hsame.2
      rw [h] at hcache hretry
      refine ⟨r, rfl, hsame.1, ?_, ?_⟩
      · rw [hcache, Forwarding.hash?_observe, hsame.2]
      · rw [hretry, RetryQueue.get?_remove, if_pos rfl]
    · -- An event that is sent is reported as sent or queued.
      have hreport := (perform_forward_of_changed hdoc hsame).1
      rw [h] at hreport
      split at hreport <;> cases hreport

/-- `performAll` of events, flushes and sweeps, from a `fresh` start: a cache that was filled from
the inventory's list and an empty queue; a request that is answered with a failure may be carried
out. An event that ends as `.unchanged` leaves nothing queued, and the inventory holds its content
exactly if the last request for the identifier that was carried out was confirmed, or asked for that
content. -/
theorem unchanged_held_iff (n : Normalizer) (c : ChangeCache) (errors : Nat) (held : Holdings)
    (script : List PreparedAnswer) (os : List Operation) {action : Action} {doc : Json}
    {after : Session}
    (h : ((fresh n c errors held script).performAll os).perform (.forward action doc) =
      (.forwarded .unchanged, after)) :
    ∃ r, n.normalize doc = .ok r ∧ action ≠ .delete ∧
      after.pipeline.retry.get? r.identifier = none ∧
      (after.inventory.held[r.identifier]? = some r.contentHash ↔
        ∀ call, after.inventory.unconfirmed? r.identifier = some call →
          call.outcome = some r.contentHash) := by
  obtain ⟨r, hdoc, ha, hcache, hretry⟩ := of_perform_unchanged h
  rw [normalizer_performAll] at hdoc
  -- The event itself is one more operation that keeps the difference explained.
  have hafter : after.Explained r.identifier := by
    have hperform := explained_perform (.forward action doc)
      (explained_performAll n c errors held script os r.identifier)
    rwa [h] at hperform
  refine ⟨r, hdoc, ha, hretry, ?_⟩
  cases hlost : after.inventory.unconfirmed? r.identifier with
  | none =>
    rw [hafter.confirmed hlost, hcache]
    simp
  | some call =>
    rw [hafter.unconfirmed call hlost]
    simp

/-- The second answer is lost, while the request is carried out. -/
def lossyStart : Session :=
  fresh ⟨.cluster "c", .passthrough⟩ .empty 0 ∅ [⟨.status 200, true⟩, ⟨.status 504, true⟩]

/-- An object is created, and then changed. -/
def creationAndChange : List Operation :=
  [.forward .create (sampleDoc "a" "one"), .forward .update (sampleDoc "a" "two")]

/-- Once a flush has had the change confirmed, the change is seen again. -/
def repeated : Report × Session :=
  (lossyStart.performAll (creationAndChange ++ [.flush])).perform
    (.forward .update (sampleDoc "a" "two"))

theorem unchanged_held_after_flush : repeated = (.forwarded .unchanged, repeated.2) ∧
    ∃ r, lossyStart.pipeline.normalizer.normalize (sampleDoc "a" "two") = .ok r ∧
      repeated.2.inventory.held[r.identifier]? = some r.contentHash := by
  have hrun : repeated.1 = .forwarded .unchanged ∧
      repeated.2.inventory.unconfirmed? "a" = none ∧
      (lossyStart.pipeline.normalizer.normalize (sampleDoc "a" "two")).toOption.map
        (·.identifier) = some "a" := by decide +kernel
  obtain ⟨hreport, hnone, hid⟩ := hrun
  have hperform : repeated = (.forwarded .unchanged, repeated.2) := Prod.ext hreport rfl
  obtain ⟨r, hdoc, -, -, hheld⟩ := unchanged_held_iff _ _ _ _ _ _ hperform
  obtain ⟨r', hdoc', hid'⟩ := exists_ok_of_map_toOption hid
  obtain rfl := Except.ok.inj (hdoc.symm.trans hdoc')
  refine ⟨hperform, r, hdoc, hheld.mpr fun call hcall => ?_⟩
  -- The flush has had the last request confirmed.
  rw [hid', hnone] at hcall
  cases hcall

/-- Instead of the flush, the object goes back to its former content. -/
def reverted : Report × Session :=
  (lossyStart.performAll creationAndChange).perform (.forward .update (sampleDoc "a" "one"))

/-- After `creationAndChange`, the event that goes back is `.unchanged` and the queued change is
dropped, while the inventory holds the change. -/
theorem unchanged_after_lost_reply :
    ((lossyStart.performAll creationAndChange).pipeline.retry.get? "a").isSome ∧
      reverted.1 = .forwarded .unchanged ∧ reverted.2.pipeline.retry.get? "a" = none ∧
      ∃ r, lossyStart.pipeline.normalizer.normalize (sampleDoc "a" "one") = .ok r ∧
        r.identifier = "a" ∧ reverted.2.inventory.held["a"]? ≠ some r.contentHash := by
  have hrun : ((lossyStart.performAll creationAndChange).pipeline.retry.get? "a").isSome ∧
      reverted.1 = .forwarded .unchanged ∧ reverted.2.pipeline.retry.get? "a" = none ∧
      (lossyStart.pipeline.normalizer.normalize (sampleDoc "a" "one")).toOption.map (fun r =>
        (r.identifier, decide (reverted.2.inventory.held["a"]? = some r.contentHash))) =
          some ("a", false) := by decide +kernel
  obtain ⟨hqueued, hreport, hnone, hdoc⟩ := hrun
  obtain ⟨r, hr, hend⟩ := exists_ok_of_map_toOption hdoc
  obtain ⟨hid, hheld⟩ := Prod.mk.inj hend
  exact ⟨hqueued, hreport, hnone, r, hr, hid, of_decide_eq_false hheld⟩

end Session
end InventorySync
