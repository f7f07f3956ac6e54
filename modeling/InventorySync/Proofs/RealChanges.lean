import InventorySync.Proofs.Mirror

/-!
# Only real changes are sent

Events come one after another to an inventory that accepts every request. What is sent is every
deletion, and every content that is not the one which the last request for the identifier left; so
a list of documents that has just been handed over can be replayed without a request, whatever the
cluster has changed of them in between that is no content.

## Key results

- `Holdings.left_realChanges`: what is not sent would have changed nothing
- `Session.calls_forwards`: the requests for events, one after another
- `Document.record_of_churned`: what the cluster changes by itself is no content
- `Session.only_real_changes`: the requests for events, and none for a replay
-/

namespace InventorySync

/-! ## Requests that change something -/

namespace Holdings

variable {known : Holdings} {c : Call} {calls : List Call} {id : String}

/-- A request changes something: it deletes, or its hash is not the one that the requests before it,
the newest first, have left. -/
def Changes (known : Holdings) (sent : List Call) (c : Call) : Prop :=
  c.action = .delete ∨ known.left sent c.uid ≠ some c.hash

instance (known : Holdings) (sent : List Call) (c : Call) : Decidable (known.Changes sent c) :=
  inferInstanceAs (Decidable (c.action = .delete ∨ known.left sent c.uid ≠ some c.hash))

/-- Of what is asked for, the newest first, those requests that change something, judged against
those of them that came before. -/
def realChanges (known : Holdings) : List Call → List Call
  | [] => []
  | c :: earlier =>
    let sent := known.realChanges earlier
    if known.Changes sent c then c :: sent else sent

theorem realChanges_cons_of_changes (h : known.Changes (known.realChanges calls) c) :
    known.realChanges (c :: calls) = c :: known.realChanges calls := if_pos h

theorem realChanges_cons_of_not_changes (h : ¬ known.Changes (known.realChanges calls) c) :
    known.realChanges (c :: calls) = known.realChanges calls := if_neg h

/-- A request of which `Changes` does not hold asks for what is `left` already. -/
theorem outcome_of_not_changes {sent : List Call} (h : ¬ known.Changes sent c) :
    known.left sent c.uid = c.outcome := by
  unfold Changes at h
  push Not at h
  obtain ⟨hne, hleft⟩ := h
  rw [hleft, Call.outcome]
  cases haction : c.action with
  | delete => exact absurd haction hne
  | create | update => rfl

/-- The `realChanges` leave what all the calls leave. -/
theorem left_realChanges (known : Holdings) (calls : List Call) (id : String) :
    known.left (known.realChanges calls) id = known.left calls id := by
  induction calls with
  | nil => rfl
  | cons c calls ih =>
    rw [left_cons, ← ih]
    by_cases hchanges : known.Changes (known.realChanges calls) c
    · rw [realChanges_cons_of_changes hchanges, left_cons]
    · rw [realChanges_cons_of_not_changes hchanges]
      split
      next huid => rw [← huid, outcome_of_not_changes hchanges]
      next => rfl

end Holdings

/-- The hashes that a cache holds. -/
def ChangeCache.hashes (c : ChangeCache) : Holdings := c.entries.map fun _ e => e.hash

theorem ChangeCache.getElem?_hashes (c : ChangeCache) (id : String) :
    c.hashes[id]? = c.hash? id := by
  simp [hashes, hash?, get?]

/-! ## Events, one after another -/

/-- All requests, the newest first. -/
def ScriptedInventory.calls (v : ScriptedInventory) : List Call := v.log.map (·.call)

theorem ScriptedInventory.calls_respond (v : ScriptedInventory) (action : Action) (r : Record) :
    (v.respond action r).2.calls = .ofSend action r :: v.calls := rfl

/-- A document that cannot be read adds nothing to `calls`. -/
theorem Normalizer.calls_concat_of_error {n : Normalizer} {action : Action} {doc : Json}
    {e : Malformed} (ds : List Delivery) (h : n.normalize doc = .error e) :
    n.calls (ds ++ [(action, doc)]) = n.calls ds := by
  rw [calls_append, calls, List.filterMap_cons_none (by simp [call?, h, Except.toOption])]
  rfl

namespace Session

variable {s : Session} {action : Action} {doc : Json} {r : Record}

/-- `perform` of an event with a `Willing` inventory gives its identifier the `outcome` of the event
as `hash?`, sent or not. -/
theorem hash?_forward (hwilling : s.inventory.Willing)
    (h : s.pipeline.normalizer.normalize doc = .ok r) (id : String) :
    (s.perform (.forward action doc)).2.pipeline.cache.hash? id =
      if r.identifier = id then (Call.ofSend action r).outcome
      else s.pipeline.cache.hash? id := by
  by_cases hsame : action ≠ .delete ∧ s.pipeline.cache.hash? r.identifier = some r.contentHash
  · obtain ⟨-, -, hcache, -⟩ := perform_forward_of_unchanged h hsame.1 hsame.2
    rw [hcache, Forwarding.hash?_observe]
    split
    next hid => rw [← hid, hsame.2, Call.outcome_of_ne_delete hsame.1]
    next => rfl
  · obtain ⟨-, -, hcache, -⟩ := perform_forward_of_changed h hsame
    rw [hcache, if_pos hwilling.answer, Pipeline.hash?_settle, Forwarding.hash?_observe]

/-- `perform` of an event sends it when it is a deletion or has another hash than the cache. -/
theorem calls_forward (h : s.pipeline.normalizer.normalize doc = .ok r) :
    (s.perform (.forward action doc)).2.inventory.calls =
      if action = .delete ∨ s.pipeline.cache.hash? r.identifier ≠ some r.contentHash then
        .ofSend action r :: s.inventory.calls
      else s.inventory.calls := by
  by_cases hsame : action ≠ .delete ∧ s.pipeline.cache.hash? r.identifier = some r.contentHash
  · obtain ⟨-, hinventory, -, -⟩ := perform_forward_of_unchanged h hsame.1 hsame.2
    rw [hinventory, if_neg (by simp [hsame])]
  · obtain ⟨-, hinventory, -, -⟩ := perform_forward_of_changed h hsame
    rw [hinventory, ScriptedInventory.calls_respond, if_pos (by tauto)]

/-- Events are handed over one after another. -/
def forwards (s : Session) (ds : List Delivery) : Session :=
  s.performAll (ds.map fun d => .forward d.1 d.2)

theorem forwards_concat (s : Session) (ds : List Delivery) (d : Delivery) :
    s.forwards (ds ++ [d]) = ((s.forwards ds).perform (.forward d.1 d.2)).2 := by
  rw [forwards, List.map_append, performAll_append]
  rfl

theorem normalizer_forwards (s : Session) (ds : List Delivery) :
    (s.forwards ds).pipeline.normalizer = s.pipeline.normalizer := normalizer_performAll _ _

theorem willing_forwards (h : s.inventory.Willing) (ds : List Delivery) :
    (s.forwards ds).inventory.Willing :=
  performAll_induct (P := fun s => s.inventory.Willing) willing_perform h _

/-- After `forwards`, `hash?` is what the `calls` of the deliveries have `left`. -/
theorem hash?_forwards (hwilling : s.inventory.Willing) (ds : List Delivery) (id : String) :
    (s.forwards ds).pipeline.cache.hash? id =
      s.pipeline.cache.hashes.left (s.pipeline.normalizer.calls ds) id := by
  induction ds using List.reverseRecOn with
  | nil => exact (s.pipeline.cache.getElem?_hashes id).symm
  | append_singleton ds d ih =>
    obtain ⟨action, doc⟩ := d
    have hn := s.normalizer_forwards ds
    rw [forwards_concat]
    cases h : s.pipeline.normalizer.normalize doc with
    | error e =>
      rw [perform_forward_of_malformed action (hn ▸ h), ih, Normalizer.calls_concat_of_error ds h]
    | ok r =>
      rw [hash?_forward (willing_forwards hwilling ds) (hn ▸ h), ih, Normalizer.calls_concat ds h,
        Holdings.left_cons]
      rfl

/-- The requests that `forwards` sends are the `realChanges` among the `calls` of the deliveries. -/
theorem calls_forwards (hwilling : s.inventory.Willing) (ds : List Delivery) :
    (s.forwards ds).inventory.calls =
      s.pipeline.cache.hashes.realChanges (s.pipeline.normalizer.calls ds) ++
        s.inventory.calls := by
  induction ds using List.reverseRecOn with
  | nil => rfl
  | append_singleton ds d ih =>
    obtain ⟨action, doc⟩ := d
    have hn := s.normalizer_forwards ds
    rw [forwards_concat]
    cases h : s.pipeline.normalizer.normalize doc with
    | error e =>
      rw [perform_forward_of_malformed action (hn ▸ h), ih, Normalizer.calls_concat_of_error ds h]
    | ok r =>
      -- The cache has what the requests so far have left, so it judges as they do.
      rw [calls_forward (hn ▸ h), hash?_forwards hwilling, ← Holdings.left_realChanges, ih,
        Normalizer.calls_concat ds h]
      by_cases hchanges : s.pipeline.cache.hashes.Changes
          (s.pipeline.cache.hashes.realChanges (s.pipeline.normalizer.calls ds)) (.ofSend action r)
      · rw [Holdings.realChanges_cons_of_changes hchanges]
        exact if_pos hchanges
      · rw [Holdings.realChanges_cons_of_not_changes hchanges]
        exact if_neg hchanges

end Session

/-! ## What a cluster changes by itself -/

namespace Document

open Json

/-- A member of the metadata. -/
def metadata? (doc : Json) (name : String) : Option Json :=
  (doc.get? "metadata").bind (·.get? name)

/-- What stands in the place of the annotations, without the last applied configuration; no
annotations are as good as an object without members. -/
def otherAnnotations : Option Json → Json
  | none => .object []
  | some (.object annotations) =>
    .object (Members.erase annotations "kubectl.kubernetes.io/last-applied-configuration")
  | some v => v

/-- The metadata in which a cluster writes without a change of content. -/
def clusterWritten : List String :=
  ["resourceVersion", "generation", "creationTimestamp", "managedFields", "annotations"]

/-- Two documents differ in nothing but what a cluster writes by itself; among the annotations that
is the last applied configuration: the paths apart, `get?` gives the same. -/
structure Churned (a b : Json) : Prop where
  outside : ∀ name, name ≠ "metadata" → a.get? name = b.get? name
  metadata : ∀ name, name ∉ clusterWritten → metadata? a name = metadata? b name
  annotations : otherAnnotations (metadata? a "annotations") =
    otherAnnotations (metadata? b "annotations")

/-- What is kept in the place of the annotations. -/
def keptIfAny : Json → Option Json
  | .object ms => nonEmptyObject? ms
  | v => some v

theorem bind_annotationsStripped (annotations : Option Json) :
    annotations.bind annotationsStripped = keptIfAny (otherAnnotations annotations) := by
  cases annotations with
  | none => rfl
  | some v => cases v <;> rfl

theorem get?_blanked (metadata : Members) (key : String) :
    Members.get? (blankVolatile (strip metadata)) key =
      if key ∈ volatileMetadata then some .null
      else if key = "annotations" then
        keptIfAny (otherAnnotations (Members.get? metadata "annotations"))
      else if key = "managedFields" then none
      else Members.get? metadata key := by
  rw [blankVolatile, get?_foldl_null, get?_strip, bind_annotationsStripped]

variable {a b doc : Json} {d e : Identified}

theorem metadata?_of_identify (h : identify doc = .ok d) (name : String) :
    metadata? doc name = Members.get? d.metadata name := by
  obtain ⟨rfl, -, -, -, -, hmetadata, -, -⟩ := identify_eq_ok_iff.mp h
  rw [metadata?, Json.get?, hmetadata]
  rfl

/-- `strip` and `blankVolatile` leave the same metadata of documents that are `Churned`. -/
theorem blanked_of_churned (ha : a.Canonical) (hb : b.Canonical) (h : Churned a b)
    (hd : identify a = .ok d) (he : identify b = .ok e) :
    blankVolatile (strip d.metadata) = blankVolatile (strip e.metadata) := by
  have hsorted := (identify_eq_ok_iff.mp hd).sorted_metadata ha
  have hsorted' := (identify_eq_ok_iff.mp he).sorted_metadata hb
  refine Members.ext_of_sorted (sorted_foldl_null _ (sorted_strip hsorted))
    (sorted_foldl_null _ (sorted_strip hsorted')) fun key => ?_
  rw [get?_blanked, get?_blanked, ← metadata?_of_identify hd, ← metadata?_of_identify he,
    ← metadata?_of_identify hd, ← metadata?_of_identify he, h.annotations]
  -- Outside of what the cluster writes nothing differs by assumption.
  split_ifs with hvolatile hannotated hmanaged
  · rfl
  · rfl
  · rfl
  · refine h.metadata key ?_
    simp only [volatileMetadata, List.mem_cons, List.not_mem_nil, or_false, not_or] at hvolatile
    simp [clusterWritten, hvolatile, hannotated, hmanaged]

/-- What is `fingerprinted` of documents that are `Churned` is the same. -/
theorem fingerprinted_of_churned (ha : a.Canonical) (hb : b.Canonical) (h : Churned a b)
    (hd : identify a = .ok d) (he : identify b = .ok e) :
    fingerprinted d.members (strip d.metadata) = fingerprinted e.members (strip e.metadata) := by
  have hblank := blanked_of_churned ha hb h hd he
  obtain ⟨rfl, -⟩ := identify_eq_ok_iff.mp hd
  obtain ⟨rfl, -⟩ := identify_eq_ok_iff.mp he
  rw [fingerprinted, fingerprinted, hblank]
  congr 1
  refine Members.ext_of_sorted (Members.sorted_insert _ _ ha.1) (Members.sorted_insert _ _ hb.1)
    fun key => ?_
  rw [Members.get?_insert, Members.get?_insert]
  split
  next => rfl
  next hother => exact h.outside key hother

/-- The records of documents that are `Churned` have the same `identifier` and `contentHash`,
whoever made them: what the cluster changes by itself is no content. -/
theorem record_of_churned {n m : Normalizer} (ha : a.Canonical) (hb : b.Canonical)
    (h : Churned a b) {r t : Record} (hr : n.normalize a = .ok r) (ht : m.normalize b = .ok t) :
    r.identifier = t.identifier ∧ r.contentHash = t.contentHash := by
  obtain ⟨d, hd, hid, hhash⟩ := normalize_ok hr
  obtain ⟨e, he, hid', hhash'⟩ := normalize_ok ht
  refine ⟨?_, ?_⟩
  · have huid : uid? a = uid? b := by
      show (metadata? a "uid").bind asString? = (metadata? b "uid").bind asString?
      rw [h.metadata "uid" (by decide)]
    rw [uid?_of_normalize hr, uid?_of_normalize ht] at huid
    exact Option.some.inj huid
  · rw [hhash, hhash', contentHash, contentHash, fingerprinted_of_churned ha hb h hd he]

end Document

/-! ## Replays -/

namespace Session

variable {s : Session} {ds es : List Delivery}

/-- An object that was created or updated once has its `contentHash` left by the `calls`. -/
theorem left_calls_of_mem {n : Normalizer} (known : Holdings) (hreads : n.Reads ds)
    (hnodup : (ds.map (uid? ·.2)).Nodup) {d : Delivery} (hd : d ∈ ds) (hne : d.1 ≠ .delete)
    {r : Record} (hr : n.normalize d.2 = .ok r) :
    known.left (n.calls ds) r.identifier = some r.contentHash := by
  induction ds using List.reverseRecOn with
  | nil => cases hd
  | append_singleton ds e ih =>
    obtain ⟨action, doc⟩ := e
    obtain ⟨r', hr'⟩ := Normalizer.exists_of_isOk (hreads (action, doc) (by simp))
    rw [Normalizer.calls_concat ds hr', Holdings.left_cons]
    show (if r'.identifier = r.identifier then _ else _) = _
    rcases List.mem_append.mp hd with hd | hd
    · -- The last one has another uid.
      rw [List.map_append, List.nodup_append] at hnodup
      have hother : uid? d.2 ≠ uid? doc :=
        hnodup.2.2 _ (List.mem_map_of_mem hd) _ (List.mem_map_of_mem List.mem_cons_self)
      rw [uid?_of_normalize hr, uid?_of_normalize hr'] at hother
      rw [if_neg fun hid => hother (congrArg some hid.symm)]
      exact ih hreads.left hnodup.1 hd
    · obtain rfl := List.mem_singleton.mp hd
      obtain rfl : r = r' := Except.ok.inj (hr.symm.trans hr')
      rw [if_pos rfl, Call.outcome_of_ne_delete hne]

/-- `forwards` of events whose hashes the cache has leaves the inventory alone. -/
theorem inventory_forwards_of_known
    (hknown : ∀ e ∈ es, e.1 ≠ .delete ∧ ∀ r, s.pipeline.normalizer.normalize e.2 = .ok r →
      s.pipeline.cache.hash? r.identifier = some r.contentHash) :
    (s.forwards es).inventory = s.inventory := by
  induction es generalizing s with
  | nil => rfl
  | cons e es ih =>
    obtain ⟨action, doc⟩ := e
    obtain ⟨hfirst, hrest⟩ := List.forall_mem_cons.mp hknown
    show ((s.perform (.forward action doc)).2.forwards es).inventory = _
    cases h : s.pipeline.normalizer.normalize doc with
    | error e =>
      rw [perform_forward_of_malformed action h]
      exact ih hrest
    | ok r =>
      obtain ⟨-, hinventory, hcache, -⟩ := perform_forward_of_unchanged h hfirst.1 (hfirst.2 r h)
      rw [ih, hinventory]
      -- The hashes are the same for the events that follow.
      intro e he
      rw [normalizer_perform, hcache]
      simpa using hrest e he

/-- The requests for events that come one after another, whatever cache they begin with: every one
that changes something, and no other. When no uid is among them twice and none is deleted, and the
cache has the same hashes ever since, whatever window is open and whatever was seen in it, then
these documents can be handed over again in any order, with all that a cluster writes by itself
changed, and nothing is sent. Documents that are read are canonical (`Json.canonical_of_read`). -/
theorem only_real_changes (hwilling : s.inventory.Willing) (ds : List Delivery) :
    let after := s.forwards ds
    after.inventory.calls =
      s.pipeline.cache.hashes.realChanges (s.pipeline.normalizer.calls ds) ++
        s.inventory.calls ∧
    ((ds.map (uid? ·.2)).Nodup → s.pipeline.normalizer.Reads ds →
      (∀ d ∈ ds, d.1 ≠ .delete ∧ d.2.Canonical) →
      ∀ later : Session, (∀ id, later.pipeline.cache.hash? id = after.pipeline.cache.hash? id) →
        ∀ es : List Delivery, (∀ e ∈ es, e.1 ≠ .delete ∧ e.2.Canonical ∧
            ∃ d ∈ ds, Document.Churned d.2 e.2) →
          (later.forwards es).inventory = later.inventory) := by
  intro after
  refine ⟨calls_forwards hwilling ds, ?_⟩
  intro hnodup hreads hds later hcache es hes
  refine inventory_forwards_of_known fun e he => ?_
  obtain ⟨hne, hcanonical, d, hd, hchurned⟩ := hes e he
  refine ⟨hne, fun r hr => ?_⟩
  obtain ⟨hne', hcanonical'⟩ := hds d hd
  obtain ⟨t, ht⟩ := Normalizer.exists_of_isOk (hreads d hd)
  obtain ⟨hid, hhash⟩ := Document.record_of_churned hcanonical' hcanonical hchurned ht hr
  rw [hcache, hash?_forwards hwilling, ← hid, ← hhash]
  exact left_calls_of_mem _ hreads hnodup hd hne' ht

/-- A document as it is listed first. -/
def listedDoc (uid : String) : Json :=
  .object [("apiVersion", .string "v1"), ("kind", .string "Thing"), ("metadata", .object
    [("annotations", .object [("team", .string "x")]), ("resourceVersion", .string "7"),
      ("uid", .string uid)])]

/-- The document as it is listed again. -/
def relistedDoc (uid : String) : Json :=
  .object [("apiVersion", .string "v1"), ("kind", .string "Thing"), ("metadata", .object
    [("annotations", .object [("kubectl.kubernetes.io/last-applied-configuration", .string ""),
        ("team", .string "x")]),
      ("generation", .ofNat 2), ("managedFields", .array []), ("uid", .string uid)])]

theorem canonical_listedDoc (uid : String) : (listedDoc uid).Canonical := by
  simp only [listedDoc, Json.Canonical, Json.CanonicalMembers, List.pairwise_cons,
    List.forall_mem_cons]
  decide

theorem canonical_relistedDoc (uid : String) : (relistedDoc uid).Canonical := by
  simp only [relistedDoc, Json.ofNat, Json.Canonical, Json.CanonicalMembers, Json.CanonicalItems,
    List.pairwise_cons, List.forall_mem_cons]
  decide

theorem churned_relistedDoc (uid : String) :
    Document.Churned (listedDoc uid) (relistedDoc uid) := by
  refine ⟨fun name hname => ?_, fun name hname => ?_, rfl⟩
  · simp [listedDoc, relistedDoc, Json.get?, Members.get?_cons, hname]
  · simp only [Document.clusterWritten, List.mem_cons, List.not_mem_nil, or_false, not_or] at hname
    simp [listedDoc, relistedDoc, Document.metadata?, Json.get?, Members.get?_cons, hname]

/-- A start with an empty cache, outside any window. -/
def nothingKnown : Session := fresh ⟨.cluster "c", .passthrough⟩ .empty 0 ∅ []

/-- Two documents are listed. -/
def listedTwo : List Delivery := [(.create, listedDoc "a"), (.create, listedDoc "b")]

/-- A window is open when they are listed again. -/
def inWindow : Session :=
  let after := nothingKnown.forwards listedTwo
  ⟨{ after.pipeline with cache := after.pipeline.cache.openWindow }, after.inventory⟩

/-- Two creations are sent by `forwards`, and nothing when the documents are listed again. -/
theorem only_real_changes_relisted :
    (nothingKnown.forwards listedTwo).inventory.calls.map (·.uid) = ["b", "a"] ∧
    (inWindow.forwards [(.update, relistedDoc "b"), (.update, relistedDoc "a")]).inventory =
      inWindow.inventory := by
  have hwilling : nothingKnown.inventory.Willing := nofun
  obtain ⟨hcalls, hreplay⟩ := only_real_changes hwilling listedTwo
  refine ⟨?_, hreplay (by decide +kernel) (by decide +kernel) ?_ inWindow (fun _ => rfl) _ ?_⟩
  · rw [hcalls]
    decide +kernel
  · simp [listedTwo, canonical_listedDoc]
  · intro e he
    rcases List.mem_pair.mp he with rfl | rfl
    · exact ⟨nofun, canonical_relistedDoc "b", (.create, listedDoc "b"), by simp [listedTwo],
        churned_relistedDoc "b"⟩
    · exact ⟨nofun, canonical_relistedDoc "a", (.create, listedDoc "a"), by simp [listedTwo],
        churned_relistedDoc "a"⟩

end Session
end InventorySync
