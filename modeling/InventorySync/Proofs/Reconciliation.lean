import InventorySync.Bootstrap
import InventorySync.Proofs.View

/-!
# Reconciliation after a start

After a start the cluster lists every object, a flush sends again what failed, and a sweep deletes
what was not listed. However many sends fail while the objects are listed, cache and inventory then
hold the listed objects and nothing else, and no more was sent than that takes.

## Key results

- `View.Offered`, `offered_of_creates`: where an identifier stands once its object has been listed
- `View.Final`: where flush and sweep lead in either order
- `reconciliation`: what holds in the end, for all identifiers together
-/

namespace InventorySync

/-! ## Stages of an identifier -/

namespace View

/-- What is known of the identifier counts as seen. -/
def Seen (v : View) : Prop := ∀ e, v.entry = some e → e.active = true

/-- An object has been listed: cache and inventory have it, or they are as `before` and it is
queued. -/
structure Offered (before : Option String) (r : Record) (v : View) : Prop where
  quiet : before = some r.contentHash → v.exchanges = []
  stage :
    (v.entry.map (·.hash) = some r.contentHash ∧ v.held = some r.contentHash ∧ v.queued = none ∧
      v.calls = if before = some r.contentHash then [] else [.ofSend .create r]) ∨
    (before ≠ some r.contentHash ∧ v.entry.map (·.hash) = before ∧ v.held = before ∧
      v.calls = [] ∧ ∃ item, v.queued = some item ∧ item.action = .create ∧ item.record = r)

/-- Cache and inventory hold `want`, nothing is queued, and these `calls` were confirmed. -/
structure Final (want : Option String) (calls : List Call) (v : View) : Prop where
  hash : v.entry.map (·.hash) = want
  held : v.held = want
  queued : v.queued = none
  calls : v.calls = calls

/-- `Offered` does not depend on the mark of the entry. -/
theorem Offered.of_hash_eq {before : Option String} {r : Record} {v : View}
    (h : v.Offered before r) {e : Option CacheEntry} (he : e.map (·.hash) = v.entry.map (·.hash)) :
    { v with entry := e }.Offered before r := by
  refine ⟨h.quiet, ?_⟩
  show (e.map (·.hash) = _ ∧ _) ∨ (_ ∧ e.map (·.hash) = _ ∧ _)
  rw [he]
  exact h.stage

theorem Final.of_hash_eq {want : Option String} {calls : List Call} {v : View}
    (h : v.Final want calls) {e : Option CacheEntry}
    (he : e.map (·.hash) = v.entry.map (·.hash)) : { v with entry := e }.Final want calls :=
  ⟨he.trans h.hash, h.held, h.queued, h.calls⟩

end View

/-- The requests that bring the inventory up to date: a creation of every object that it lacks or
has with other content, and a deletion of everything that is not an object. -/
def due (held : Holdings) (records : List Record) : List Call :=
  (records.filter fun r => held[r.identifier]? ≠ some r.contentHash).map (Call.ofSend .create) ++
    (held.keys.filter fun id => ∀ r ∈ records, r.identifier ≠ id).map fun id => ⟨.delete, id, ""⟩

namespace Session

variable {s : Session} {id : String} {before : Option String} {r : Record}

/-! ## Listing the objects -/

/-- A view of an identifier that nobody has dealt with. -/
def untouched (before : Option String) : View :=
  ⟨before.map (CacheEntry.mk · false), none, before, []⟩

theorem offered_of_create {doc : Json} (h : s.pipeline.normalizer.normalize doc = .ok r)
    (hopen : s.pipeline.cache.windowOpen = true) (hhonest : s.inventory.Honest)
    (hview : s.view r.identifier = untouched before) :
    ((s.perform (.forward .create doc)).2.view r.identifier).Offered before r ∧
      ((s.perform (.forward .create doc)).2.view r.identifier).Seen := by
  have hentry : s.pipeline.cache.get? r.identifier = before.map (CacheEntry.mk · false) :=
    congrArg View.entry hview
  have hexchanges : s.inventory.exchangesFor r.identifier = [] := congrArg View.exchanges hview
  have hhash : s.pipeline.cache.hash? r.identifier = before := by
    rw [ChangeCache.hash?, hentry, Option.map_map]
    exact Option.map_id_fun' ▸ rfl
  -- What the inventory has already is not sent; anything else is confirmed or queued.
  by_cases hsame : before = some r.contentHash
  · rw [view_create_of_unchanged h hopen (hhash.trans hsame), hview]
    refine ⟨⟨fun _ => rfl, Or.inl ⟨rfl, hsame, rfl, ?_⟩⟩, ?_⟩
    · rw [if_pos hsame]
      rfl
    · intro e he
      obtain rfl := Option.some.inj he
      rfl
  · have hchanged : s.pipeline.cache.hash? r.identifier ≠ some r.contentHash := hhash ▸ hsame
    cases hok : s.inventory.answer.reply.isOk with
    -- Confirmed: the inventory has it.
    | true =>
      rw [view_create_of_isOk h hopen hchanged hok, hview]
      refine ⟨⟨fun heq => absurd heq hsame, Or.inl ⟨rfl, rfl, rfl, ?_⟩⟩, ?_⟩
      · rw [if_neg hsame]
        simp [View.calls, View.confirmed, untouched, hok]
      · intro e he
        obtain rfl := Option.some.inj he
        rfl
    -- Refused or lost: it is queued as it is.
    | false =>
      obtain ⟨seq, hafter⟩ := view_create_of_failure h hopen hchanged hhonest hok
      rw [hafter, hview, hentry, hexchanges]
      refine ⟨⟨fun heq => absurd heq hsame, Or.inr ⟨hsame, ?_, rfl, ?_, _, rfl, rfl, rfl⟩⟩, ?_⟩
      · simp [Function.comp_def]
      · simp [View.calls, hok]
      · intro e he
        obtain ⟨e', -, rfl⟩ := Option.map_eq_some_iff.mp he
        rfl

/-- After `performAll` of creations with different identifiers, each object is `Offered`, and the
`view` of every other identifier is as it was. -/
theorem offered_of_creates {n : Normalizer} (hn : s.pipeline.normalizer = n) (held : Holdings)
    {docs : List Json} {records : List Record}
    (normal : List.Forall₂ (fun doc r => n.normalize doc = .ok r) docs records)
    (distinct : (records.map (·.identifier)).Nodup)
    (hopen : s.pipeline.cache.windowOpen = true) (hhonest : s.inventory.Honest)
    (hview : ∀ r ∈ records, s.view r.identifier = untouched held[r.identifier]?) :
    (∀ id, (∀ r ∈ records, r.identifier ≠ id) →
      (s.performAll (docs.map (.forward .create))).view id = s.view id) ∧
    ∀ r ∈ records,
      ((s.performAll (docs.map (.forward .create))).view r.identifier).Offered
        held[r.identifier]? r ∧
      ((s.performAll (docs.map (.forward .create))).view r.identifier).Seen := by
  -- The list is taken from its front: the objects still to come are untouched, and those that have
  -- been offered are left alone, since no other object has their identifiers.
  induction normal generalizing s with
  | nil => exact ⟨fun _ _ => rfl, fun r hr => by cases hr⟩
  | @cons doc r docs records hdoc normal ih =>
    obtain ⟨hr, hdistinct⟩ := List.nodup_cons.mp distinct
    have hother : ∀ r' ∈ records, r.identifier ≠ r'.identifier := fun r' hr' heq =>
      hr (List.mem_map.mpr ⟨r', hr', heq.symm⟩)
    rw [← hn] at hdoc
    obtain ⟨hkept, hoffered⟩ := ih ((normalizer_perform s (.forward .create doc)).trans hn)
      hdistinct ((windowOpen_forward .create doc).trans hopen) (honest_perform _ hhonest)
      (fun r' hr' => (view_forward_of_ne hdoc (hother r' hr')).trans
        (hview r' (List.mem_cons_of_mem _ hr')))
    refine ⟨fun id hid => ?_, fun r' hr' => ?_⟩
    · rw [List.map_cons, performAll_cons,
        hkept id fun r' hr' => hid r' (List.mem_cons_of_mem _ hr')]
      exact view_forward_of_ne hdoc (hid r List.mem_cons_self)
    · rw [List.map_cons, performAll_cons]
      rcases List.mem_cons.mp hr' with rfl | hr'
      · rw [hkept _ fun r'' hr'' => (hother r'' hr'').symm]
        exact offered_of_create hdoc hopen hhonest (hview _ List.mem_cons_self)
      · exact hoffered r' hr'

/-! ## Flush and sweep -/

theorem willing_perform (o : Operation) (h : s.inventory.Willing) :
    (s.perform o).2.inventory.Willing := by
  obtain ⟨b, -, hend⟩ := perform_induct (s := s) (I := fun s _ => s.inventory.Willing) o h
    (fun h _ => h) (fun h _ _ => h.respond _ _)
  exact hend

/-- After `perform .flush` an object that was `Offered` is `Final`, and seen. -/
theorem final_of_flush (hvalid : s.pipeline.retry.Valid) (hwilling : s.inventory.Willing)
    (h : (s.view r.identifier).Offered before r) :
    ((s.perform .flush).2.view r.identifier).Final (some r.contentHash)
        (if before = some r.contentHash then [] else [.ofSend .create r]) ∧
      (before = some r.contentHash →
        ((s.perform .flush).2.view r.identifier).exchanges = []) := by
  obtain ⟨hquiet, hstage⟩ := h
  -- The flush sends an object exactly if its creation failed.
  rcases view_flush hvalid hwilling r.identifier with
    ⟨hnone, hview⟩ | ⟨item, reply, hitem, hok, hview⟩
  · rw [hview]
    rcases hstage with ⟨hhash, hheld, hqueued, hcalls⟩ | ⟨-, -, -, -, item, hitem, -⟩
    · exact ⟨⟨hhash, hheld, hqueued, hcalls⟩, hquiet⟩
    · cases hnone.symm.trans hitem
  · rw [hview]
    rcases hstage with ⟨-, -, hqueued, -⟩ | ⟨hne, -, -, hcalls, item', hitem', haction, hrecord⟩
    · cases hqueued.symm.trans hitem
    · obtain rfl := Option.some.inj (hitem.symm.trans hitem')
      refine ⟨⟨?_, ?_, rfl, ?_⟩, fun heq => absurd heq hne⟩
      · simp only [View.confirmed, haction, hrecord]
        rfl
      · simp only [View.confirmed, haction, hrecord]
        rfl
      · rw [if_neg hne]
        simp only [View.calls, View.confirmed, haction, hrecord, List.filter_cons, hok, if_true,
          List.map_cons]
        exact congrArg _ hcalls

theorem seen_of_flush (hvalid : s.pipeline.retry.Valid) (hwilling : s.inventory.Willing)
    (hopen : s.pipeline.cache.windowOpen = true) (hseen : (s.view id).Seen) :
    ((s.perform .flush).2.view id).Seen := by
  rcases view_flush hvalid hwilling id with ⟨-, hview⟩ | ⟨item, reply, -, -, hview⟩
  · rw [hview]
    exact hseen
  · rw [hview]
    intro e he
    obtain ⟨hash, -, rfl⟩ := Option.map_eq_some_iff.mp he
    exact hopen

/-- `perform` of a sweep leaves the `view` of what was `Seen` alone, but for the mark. -/
theorem view_sweep_of_seen (owner : Owner) (hwilling : s.inventory.Willing)
    (hseen : (s.view id).Seen) :
    ∃ e, e.map (·.hash) = (s.view id).entry.map (·.hash) ∧
      (s.perform (.sweep owner)).2.view id = { s.view id with entry := e } := by
  rcases view_sweep owner hwilling id with ⟨-, he⟩ | ⟨hin, -⟩
  · exact he
  · obtain ⟨e, he, hactive⟩ := (ChangeCache.mem_inactive_iff _ id).mp hin
    rw [hseen e he] at hactive
    cases hactive

/-- After `perform` of a sweep what was `untouched` is `Final` without a hash: it was deleted, if it
was there. -/
theorem final_of_sweep_untouched (owner : Owner) (hwilling : s.inventory.Willing)
    (hview : s.view id = untouched before) :
    ((s.perform (.sweep owner)).2.view id).Final none
      (if before.isSome then [⟨.delete, id, ""⟩] else []) := by
  have hentry : s.pipeline.cache.get? id = before.map (CacheEntry.mk · false) :=
    congrArg View.entry hview
  rcases view_sweep owner hwilling id with ⟨hout, e, he, hafter⟩ | ⟨hin, reply, hok, hafter⟩
  · cases before with
    | none =>
      rw [ChangeCache.hash?, hentry] at he
      rw [hafter, hview]
      exact ⟨he, rfl, rfl, rfl⟩
    | some hash => exact absurd ((ChangeCache.mem_inactive_iff _ id).mpr ⟨_, hentry, rfl⟩) hout
  · obtain ⟨e, he, -⟩ := (ChangeCache.mem_inactive_iff _ id).mp hin
    rw [hentry] at he
    obtain ⟨hash, rfl, -⟩ := Option.map_eq_some_iff.mp he
    rw [hafter, hview]
    refine ⟨rfl, rfl, rfl, ?_⟩
    simp [View.calls, View.deleted, untouched, hok]

/-- `perform .flush` leaves the `view` of an identifier with nothing queued alone. -/
theorem view_flush_of_not_queued (hvalid : s.pipeline.retry.Valid)
    (hwilling : s.inventory.Willing) (hnone : (s.view id).queued = none) :
    (s.perform .flush).2.view id = s.view id := by
  rcases view_flush hvalid hwilling id with ⟨-, hview⟩ | ⟨item, reply, hitem, -⟩
  · exact hview
  · cases hnone.symm.trans hitem

variable {owner : Owner} {os : List Operation}

/-- After `.flush` and `.sweep`, in either order, an object that was `Offered` and `Seen` is `Final`
with its own hash. -/
theorem final_of_offered (order : os = [.flush, .sweep owner] ∨ os = [.sweep owner, .flush])
    (hvalid : s.pipeline.retry.Valid) (hwilling : s.inventory.Willing)
    (hopen : s.pipeline.cache.windowOpen = true) (h : (s.view r.identifier).Offered before r)
    (hseen : (s.view r.identifier).Seen) :
    ((s.performAll os).view r.identifier).Final (some r.contentHash)
        (if before = some r.contentHash then [] else [.ofSend .create r]) ∧
      (before = some r.contentHash → ((s.performAll os).view r.identifier).exchanges = []) := by
  -- A seen identifier is nothing to the sweep, so the flush alone decides, before or after it.
  rcases order with rfl | rfl
  · obtain ⟨hfinal, hquiet⟩ := final_of_flush hvalid hwilling h
    obtain ⟨e, he, hview⟩ := view_sweep_of_seen owner (willing_perform .flush hwilling)
      (seen_of_flush hvalid hwilling hopen hseen)
    rw [performAll_cons, performAll_cons, performAll_nil, hview]
    exact ⟨hfinal.of_hash_eq he, hquiet⟩
  · obtain ⟨e, he, hview⟩ := view_sweep_of_seen owner hwilling hseen
    rw [performAll_cons, performAll_cons, performAll_nil]
    refine final_of_flush (valid_perform _ hvalid) (willing_perform _ hwilling) ?_
    rw [hview]
    exact h.of_hash_eq he

/-- After `.flush` and `.sweep`, in either order, what was `untouched` is `Final` without a hash. -/
theorem final_of_untouched (order : os = [.flush, .sweep owner] ∨ os = [.sweep owner, .flush])
    (hvalid : s.pipeline.retry.Valid) (hwilling : s.inventory.Willing)
    (hview : s.view id = untouched before) :
    ((s.performAll os).view id).Final none
      (if before.isSome then [⟨.delete, id, ""⟩] else []) := by
  -- With nothing queued the identifier is nothing to the flush, so the sweep alone decides.
  rcases order with rfl | rfl
  · rw [performAll_cons, performAll_cons, performAll_nil]
    refine final_of_sweep_untouched owner (willing_perform _ hwilling) ?_
    rw [view_flush_of_not_queued hvalid hwilling (by rw [hview]; rfl), hview]
  · have hfinal := final_of_sweep_untouched owner hwilling hview
    rw [performAll_cons, performAll_cons, performAll_nil,
      view_flush_of_not_queued (valid_perform _ hvalid) (willing_perform _ hwilling)
        hfinal.queued]
    exact hfinal

end Session

/-! ## All identifiers together -/

/-- Two histories are a `List.Perm` of each other when they are the same for each identifier. -/
theorem perm_of_forall_uid {calls calls' : List Call}
    (h : ∀ id, calls.filter (fun c => c.uid = id) = calls'.filter fun c => c.uid = id) :
    calls.Perm calls' := by
  refine List.perm_iff_count.mpr fun c => ?_
  -- A request is counted among those for its own identifier.
  have hcount : ∀ l : List Call, (l.filter fun d => d.uid = c.uid).count c = l.count c :=
    fun l => List.count_filter (by simp)
  rw [← hcount calls, ← hcount calls', h]

/-- The `confirmed` requests for an identifier are the `calls` of its `view`. -/
theorem Session.filter_confirmed (s : Session) (id : String) :
    s.inventory.confirmed.filter (fun c => c.uid = id) = (s.view id).calls := by
  simp only [ScriptedInventory.confirmed, View.calls, Session.view, ScriptedInventory.exchangesFor,
    List.filter_map, List.filter_filter, Function.comp_def]
  simp only [Bool.and_comm]

/-- `filter` for the identifier of a record gives that record alone, in a list without repetitions.
-/
theorem filter_identifier_eq {records : List Record}
    (distinct : (records.map (·.identifier)).Nodup) {r : Record} (hr : r ∈ records) :
    records.filter (fun r' => r'.identifier = r.identifier) = [r] := by
  induction records with
  | nil => cases hr
  | cons r' rest ih =>
    obtain ⟨hout, hdistinct⟩ := List.nodup_cons.mp distinct
    rw [List.filter_cons]
    rcases List.mem_cons.mp hr with rfl | hr
    · have hnone : rest.filter (fun r' => r'.identifier = r.identifier) = [] := by
        refine List.filter_eq_nil_iff.mpr fun r' hr' heq => hout ?_
        exact List.mem_map.mpr ⟨r', hr', by simpa using heq⟩
      simp [hnone]
    · have hne : r'.identifier ≠ r.identifier := fun heq =>
        hout (List.mem_map.mpr ⟨r, hr, heq.symm⟩)
      simpa [hne] using ih hdistinct hr

theorem filter_keys_eq (held : Holdings) (id : String) :
    held.keys.filter (fun id' => id' = id) = if held[id]?.isSome then [id] else [] := by
  have hcount : held.keys.count id = if id ∈ held.keys then 1 else 0 :=
    Std.ExtTreeMap.nodup_keys.count
  have hmem : id ∈ held.keys ↔ held[id]?.isSome = true := by
    rw [Std.ExtTreeMap.mem_keys, Std.ExtTreeMap.mem_iff_isSome_getElem?]
  rw [List.filter_eq, hcount]
  simp only [hmem]
  split <;> rfl

/-- What is `due` at one identifier: the creations of the records that have it, and its deletion if
none has it. -/
theorem filter_due (held : Holdings) (records : List Record) (id : String) :
    (due held records).filter (fun c => c.uid = id) =
      ((records.filter fun r => r.identifier = id).filter fun r =>
        held[r.identifier]? ≠ some r.contentHash).map (Call.ofSend .create) ++
      ((if held[id]?.isSome then [id] else []).filter fun id =>
        ∀ r ∈ records, r.identifier ≠ id).map fun id => ⟨.delete, id, ""⟩ := by
  rw [← filter_keys_eq, due, List.filter_append, List.filter_map, List.filter_map,
    List.filter_filter, List.filter_filter, List.filter_filter, List.filter_filter]
  congr 2 <;> exact List.filter_congr fun _ _ => Bool.and_comm _ _

/-- What is `due` at the identifier of a listed record: its creation, unless it is `held` already.
-/
theorem filter_due_of_mem (held : Holdings) {records : List Record}
    (distinct : (records.map (·.identifier)).Nodup) {r : Record} (hr : r ∈ records) :
    (due held records).filter (fun c => c.uid = r.identifier) =
      if held[r.identifier]? = some r.contentHash then [] else [.ofSend .create r] := by
  have hlisted : ¬ ∀ r' ∈ records, r'.identifier ≠ r.identifier := fun h => h r hr rfl
  rw [filter_due, filter_identifier_eq distinct hr]
  have hkept : (if held[r.identifier]?.isSome then [r.identifier] else []).filter
      (fun id => ∀ r ∈ records, r.identifier ≠ id) = [] := by
    split
    · simpa using hlisted
    · rfl
  rw [hkept, List.map_nil, List.append_nil]
  by_cases hsame : held[r.identifier]? = some r.contentHash <;> simp [hsame]

/-- What is `due` at any other identifier: its deletion, if it is `held`. -/
theorem filter_due_of_not_mem (held : Holdings) {records : List Record} {id : String}
    (hid : ∀ r ∈ records, r.identifier ≠ id) :
    (due held records).filter (fun c => c.uid = id) =
      if held[id]?.isSome then [⟨.delete, id, ""⟩] else [] := by
  have hnone : records.filter (fun r => r.identifier = id) = [] :=
    List.filter_eq_nil_iff.mpr fun r hr heq => hid r hr (by simpa using heq)
  rw [filter_due, hnone]
  split
  · have hkept : [id].filter (fun id => ∀ r ∈ records, r.identifier ≠ id) = [id] :=
      List.filter_eq_self.mpr fun id' hid' => by
        obtain rfl := List.mem_singleton.mp hid'
        exact decide_eq_true hid
    rw [hkept]
    rfl
  · rfl

/-! ## The whole of a start -/

namespace Session

/-- A start from the pairs that the inventory answered with: the window is open, nothing is queued,
and every request that is answered with a failure is lost. -/
def started (n : Normalizer) (c : ChangeCache) (errors : Nat) (held : Holdings)
    (pairs : List (String × String)) (replies : List Reply) : Session :=
  ⟨⟨n, (c.init pairs).openWindow, .empty, .empty, errors⟩, ⟨held, honest replies, []⟩⟩

/-- The `pairs` that the inventory answers with are what it holds. -/
theorem perm_of_listed {held : Holdings} (named : held[""]? = none) {list : HashList}
    (listed : list.items.Perm (held.toList.map fun p => ⟨p.1, p.2⟩)) :
    list.pairs.Perm held.toList := by
  -- The empty identifier, which the answer leaves out, is not held.
  have hnamed : ∀ p ∈ held.toList, p.1 ≠ "" := by
    intro p hp hempty
    have hget := Std.ExtTreeMap.mem_toList_iff_getElem?_eq_some.mp hp
    rw [hempty, named] at hget
    cases hget
  have hkept : held.toList.filter (fun p => p.1 ≠ "") = held.toList :=
    List.filter_eq_self.mpr fun p hp => decide_eq_true (hnamed p hp)
  have hperm := (listed.filter fun i => i.uid ≠ "").map fun i => (i.uid, i.hash)
  rw [List.filter_map, List.map_map] at hperm
  refine hperm.trans (List.Perm.of_eq ?_)
  show (held.toList.filter fun p => p.1 ≠ "").map id = _
  rw [hkept, List.map_id]

/-- At the start every identifier is `untouched`. -/
theorem view_started (n : Normalizer) (c : ChangeCache) (errors : Nat) {held : Holdings}
    {pairs : List (String × String)} (hpairs : pairs.Perm held.toList) (replies : List Reply)
    (id : String) : (started n c errors held pairs replies).view id = untouched held[id]? := by
  have distinct : (pairs.map (·.1)).Nodup := by
    rw [(hpairs.map (·.1)).nodup_iff, Std.ExtTreeMap.map_fst_toList_eq_keys]
    exact Std.ExtTreeMap.nodup_keys
  have hhash : (c.init pairs).hash? id = held[id]? := Option.ext fun hash => by
    rw [c.hash?_init distinct, hpairs.mem_iff, Std.ExtTreeMap.mem_toList_iff_getElem?_eq_some]
  have hentry : (c.init pairs).openWindow.get? id = held[id]?.map (CacheEntry.mk · false) := by
    rw [ChangeCache.get?_openWindow, ChangeCache.get?_init_eq, hhash]
  simp only [view, started, hentry]
  rfl

/-- `performAll` of creations leaves `windowOpen` alone. -/
theorem windowOpen_creates (s : Session) (docs : List Json) :
    (s.performAll (docs.map (.forward .create))).pipeline.cache.windowOpen =
      s.pipeline.cache.windowOpen := by
  induction docs generalizing s with
  | nil => rfl
  | cons doc docs ih =>
    rw [List.map_cons, performAll_cons, ih, windowOpen_forward]

variable {s : Session}

/-- Every identifier is `Final`: listed objects with their own hashes, everything else without one.
-/
structure Settled (held : Holdings) (records : List Record) (s : Session) : Prop where
  stored : ∀ r ∈ records,
    (s.view r.identifier).Final (some r.contentHash)
      (if held[r.identifier]? = some r.contentHash then [] else [.ofSend .create r])
  gone : ∀ id, (∀ r ∈ records, r.identifier ≠ id) →
    (s.view id).Final none (if held[id]?.isSome then [⟨.delete, id, ""⟩] else [])

/-- After `.flush` and `.sweep`, in either order, everything is `Settled` if the listed objects were
`Offered` and the rest was `untouched`; an object that was stored before was not sent. -/
theorem settled_of_offered {held : Holdings} {records : List Record} {owner : Owner}
    {os : List Operation} (order : os = [.flush, .sweep owner] ∨ os = [.sweep owner, .flush])
    (hvalid : s.pipeline.retry.Valid) (hwilling : s.inventory.Willing)
    (hopen : s.pipeline.cache.windowOpen = true)
    (hoffered : ∀ r ∈ records, (s.view r.identifier).Offered held[r.identifier]? r ∧
      (s.view r.identifier).Seen)
    (hrest : ∀ id, (∀ r ∈ records, r.identifier ≠ id) → s.view id = untouched held[id]?) :
    (s.performAll os).Settled held records ∧
      ∀ r ∈ records, held[r.identifier]? = some r.contentHash →
        (s.performAll os).inventory.exchangesFor r.identifier = [] := by
  have hstored : ∀ r ∈ records,
      ((s.performAll os).view r.identifier).Final (some r.contentHash)
          (if held[r.identifier]? = some r.contentHash then [] else [.ofSend .create r]) ∧
        (held[r.identifier]? = some r.contentHash →
          ((s.performAll os).view r.identifier).exchanges = []) := by
    intro r hr
    obtain ⟨hoffer, hseen⟩ := hoffered r hr
    exact final_of_offered order hvalid hwilling hopen hoffer hseen
  refine ⟨⟨fun r hr => (hstored r hr).1, ?_⟩, fun r hr => (hstored r hr).2⟩
  intro id hid
  exact final_of_untouched order hvalid hwilling (hrest id hid)

/-- When everything is `Settled`, each identifier is `Final` with the hash of the record that has
it, after the requests that were `due`. -/
theorem Settled.exists_final {held : Holdings} {records : List Record}
    (h : Settled held records s) (distinct : (records.map (·.identifier)).Nodup) (id : String) :
    ∃ want, (s.view id).Final want ((due held records).filter fun c => c.uid = id) ∧
      ∀ hash, want = some hash ↔ ∃ r ∈ records, r.identifier = id ∧ r.contentHash = hash := by
  by_cases hid : ∀ r ∈ records, r.identifier ≠ id
  · refine ⟨none, ?_, fun hash => ⟨nofun, fun ⟨r, hr, heq, _⟩ => absurd heq (hid r hr)⟩⟩
    rw [filter_due_of_not_mem held hid]
    exact h.gone id hid
  · obtain ⟨r, hr, rfl⟩ : ∃ r ∈ records, r.identifier = id := by
      by_contra hnone
      exact hid fun r hr heq => hnone ⟨r, hr, heq⟩
    refine ⟨some r.contentHash, ?_, fun hash => ⟨fun heq => ⟨r, hr, rfl, Option.some.inj heq⟩, ?_⟩⟩
    · rw [filter_due_of_mem held distinct hr]
      exact h.stored r hr
    · -- No other object has the identifier.
      rintro ⟨r', hr', hid', rfl⟩
      rw [List.inj_on_of_nodup_map distinct hr' hr hid']

/-- When everything is `Settled`, inventory and cache hold the listed records and nothing else,
`retry` is empty, and the `confirmed` requests are those that were `due`. -/
theorem Settled.reconciled {held : Holdings} {records : List Record}
    (h : Settled held records s) (distinct : (records.map (·.identifier)).Nodup) :
    (∀ id hash, s.inventory.held[id]? = some hash ↔
      ∃ r ∈ records, r.identifier = id ∧ r.contentHash = hash) ∧
    (∀ id hash, s.pipeline.cache.hash? id = some hash ↔
      ∃ r ∈ records, r.identifier = id ∧ r.contentHash = hash) ∧
    s.pipeline.retry.size = 0 ∧
    s.inventory.confirmed.Perm (due held records) := by
  have hfinal := h.exists_final distinct
  refine ⟨?_, ?_, ?_, ?_⟩
  · intro id hash
    obtain ⟨want, hview, hwant⟩ := hfinal id
    rw [← hwant, ← hview.held]
    rfl
  · intro id hash
    obtain ⟨want, hview, hwant⟩ := hfinal id
    rw [← hwant, ← hview.hash]
    rfl
  · apply (RetryQueue.size_eq_zero_iff _).mpr
    intro id
    obtain ⟨want, hview, -⟩ := hfinal id
    exact hview.queued
  · apply perm_of_forall_uid
    intro id
    obtain ⟨want, hview, -⟩ := hfinal id
    rw [filter_confirmed, hview.calls]

end Session

/-- `performAll` of the creation of every listed object after a start, with failures or without,
then `.flush` and `.sweep` without failures in either order: cache and inventory hold the listed
objects and nothing else, `retry` is empty, the `confirmed` requests are those that were `due`, and
an object that the inventory had already is not sent at all. -/
theorem reconciliation (n : Normalizer) (c : ChangeCache) (errors : Nat) {held : Holdings}
    (named : held[""]? = none) {list : HashList}
    (listed : list.items.Perm (held.toList.map fun p => ⟨p.1, p.2⟩))
    {docs : List Json} {records : List Record}
    (normal : List.Forall₂ (fun doc r => n.normalize doc = .ok r) docs records)
    (distinct : (records.map (·.identifier)).Nodup) (replies : List Reply) {replies' : List Reply}
    (willing : ∀ reply ∈ replies', reply.isOk = true) {owner : Owner} {os : List Operation}
    (order : os = [.flush, .sweep owner] ∨ os = [.sweep owner, .flush]) :
    ∃ pairs, remoteHashes (.ok list) = .ok pairs ∧
    let s := (Session.started n c errors held pairs replies).performAll
      (docs.map (.forward .create))
    let s' := Session.performAll ⟨s.pipeline, { s.inventory with script := honest replies' }⟩ os
    (∀ id hash, s'.inventory.held[id]? = some hash ↔
      ∃ r ∈ records, r.identifier = id ∧ r.contentHash = hash) ∧
    (∀ id hash, s'.pipeline.cache.hash? id = some hash ↔
      ∃ r ∈ records, r.identifier = id ∧ r.contentHash = hash) ∧
    s'.pipeline.retry.size = 0 ∧
    s'.inventory.confirmed.Perm (due held records) ∧
    ∀ r ∈ records, held[r.identifier]? = some r.contentHash →
      s'.inventory.exchangesFor r.identifier = [] := by
  refine ⟨list.pairs, rfl, ?_⟩
  intro s s'
  have hpairs := Session.perm_of_listed named listed
  have hstart := Session.view_started n c errors hpairs replies
  -- First stage: the listing, in which anything may fail.
  obtain ⟨hrest, hlisted⟩ := Session.offered_of_creates
    (s := Session.started n c errors held list.pairs replies) rfl held normal distinct rfl
    ⟨replies, rfl⟩ fun r _ => hstart r.identifier
  have hvalid : s.pipeline.retry.Valid := Session.valid_performAll _ RetryQueue.valid_empty
  have hopen : s.pipeline.cache.windowOpen = true := Session.windowOpen_creates _ docs
  have hwilling : ScriptedInventory.Willing { s.inventory with script := honest replies' } := by
    intro a ha
    obtain ⟨reply, hreply, rfl⟩ := List.mem_map.mp ha
    exact willing reply hreply
  -- Second stage: flush and sweep. The new answers change no view, so every identifier starts
  -- from where the listing left it.
  obtain ⟨hsettled, hquiet⟩ := Session.settled_of_offered
    (s := ⟨s.pipeline, { s.inventory with script := honest replies' }⟩) order hvalid hwilling hopen
    hlisted fun id hid => (hrest id hid).trans (hstart id)
  obtain ⟨hheld, hcache, hsize, hconfirmed⟩ := hsettled.reconciled distinct
  exact ⟨hheld, hcache, hsize, hconfirmed, hquiet⟩

/-- The inventory before a restart: an object as it still is, one with other content, and one that
is gone from the cluster. -/
def heldBefore : Holdings :=
  .ofList [("a", "c2576de2efa1af3e8102c44aaab53d87"), ("b", "old"), ("d", "stale")] compare

/-- Its answer to the question what it holds. -/
def listedBefore : HashList :=
  ⟨[⟨"d", "stale"⟩, ⟨"b", "old"⟩, ⟨"a", "c2576de2efa1af3e8102c44aaab53d87"⟩]⟩

/-- The objects of the cluster. -/
def clusterDocs : List Json := [sampleDoc "a" "one", sampleDoc "b" "two", sampleDoc "c" "three"]

/-- The restart, in which both objects that must be sent fail at first. -/
def restarted : Session :=
  let s := (Session.started ⟨.cluster "c", .passthrough⟩ .empty 0 heldBefore listedBefore.pairs
    [.status 503, .lost "timeout"]).performAll (clusterDocs.map (.forward .create))
  Session.performAll ⟨s.pipeline, { s.inventory with script := honest [.status 201] }⟩
    [.sweep (.cluster "c"), .flush]

theorem reconciliation_restarted :
    heldBefore[""]? = none ∧ remoteHashes (.ok listedBefore) = .ok listedBefore.pairs ∧
    ∃ records, List.Forall₂ (fun doc r =>
        (Normalizer.mk (.cluster "c") .passthrough).normalize doc = .ok r) clusterDocs records ∧
      records.map (·.identifier) = ["a", "b", "c"] ∧
      restarted.inventory.confirmed.Perm (due heldBefore records) ∧
      restarted.inventory.exchangesFor "a" = [] ∧ restarted.inventory.held["d"]? = none ∧
      restarted.pipeline.retry.size = 0 := by
  -- The fixed inputs, evaluated.
  have hnamed : heldBefore[""]? = none := by decide +kernel
  have hlisted : listedBefore.items.Perm (heldBefore.toList.map fun p => ⟨p.1, p.2⟩) := by
    decide +kernel
  have hdocs : clusterDocs.map (fun doc => ((Normalizer.mk (.cluster "c") .passthrough).normalize
      doc).toOption.map (·.identifier)) = [some "a", some "b", some "c"] := by decide +kernel
  have hsame : ((Normalizer.mk (.cluster "c") .passthrough).normalize
      (sampleDoc "a" "one")).toOption.map (·.contentHash) = heldBefore["a"]? := by decide +kernel
  simp only [clusterDocs, List.map_cons, List.map_nil, List.cons.injEq, and_true] at hdocs
  obtain ⟨ha, hb, hc⟩ := hdocs
  -- The three documents are accepted, under different identifiers.
  obtain ⟨a, hdocA, hidA⟩ := exists_ok_of_map_toOption ha
  obtain ⟨b, hdocB, hidB⟩ := exists_ok_of_map_toOption hb
  obtain ⟨c, hdocC, hidC⟩ := exists_ok_of_map_toOption hc
  have hnormal : List.Forall₂ (fun doc r =>
      (Normalizer.mk (.cluster "c") .passthrough).normalize doc = .ok r) clusterDocs [a, b, c] :=
    .cons hdocA (.cons hdocB (.cons hdocC .nil))
  have hids : [a, b, c].map (·.identifier) = ["a", "b", "c"] := by
    simp only [List.map_cons, List.map_nil, hidA, hidB, hidC]
  have hdistinct : ([a, b, c].map (·.identifier)).Nodup := by
    rw [hids]
    decide
  have hwilling : ∀ reply ∈ [Reply.status 201], reply.isOk = true := by decide
  obtain ⟨pairs, hanswer, hheld, -, hsize, hconfirmed, hquiet⟩ :=
    reconciliation ⟨.cluster "c", .passthrough⟩ .empty 0 hnamed hlisted hnormal hdistinct
      [.status 503, .lost "timeout"] hwilling
      (Or.inr (Eq.refl [Operation.sweep (.cluster "c"), .flush]))
  obtain rfl : listedBefore.pairs = pairs := Except.ok.inj hanswer
  refine ⟨hnamed, rfl, [a, b, c], hnormal, hids, hconfirmed, ?_, ?_, hsize⟩
  -- `a` is in the inventory with its hash, and `d` is of no document.
  · rw [hdocA] at hsame
    rw [← hidA] at hsame ⊢
    exact hquiet a List.mem_cons_self hsame.symm
  · refine Option.eq_none_iff_forall_ne_some.mpr fun hash hhash => ?_
    obtain ⟨r, hr, hid, -⟩ := (hheld "d" hash).mp hhash
    have hmem : r.identifier ∈ ["a", "b", "c"] := hids ▸ List.mem_map_of_mem hr
    rw [hid] at hmem
    revert hmem
    decide

end InventorySync
