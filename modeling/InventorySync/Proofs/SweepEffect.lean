import InventorySync.Proofs.CacheHistory
import InventorySync.Proofs.Events
import InventorySync.Proofs.FlushEffect
import InventorySync.Timeline

/-!
# What one sweep does

A sweep that runs alone asks for the deletion of every unseen identifier, one after another and
whatever fails, forgets those that were confirmed, and opens the next window. What it did not
forget is unseen then; so the next sweep deletes of that what the events in between have neither
shown nor had deleted.

## Key results

- `windowsOpened_turnsAlone`, `Timeline.opened_settle`: whoever waits for windows hears of one for
  each sweep, when it is over
- `sweepRest_effect`: the loop, for every list of identifiers and all replies
- `mem_inactive_forwardNext`, `mem_inactive_runAll`: what stays unseen while events are forwarded
- `sweep_effect`: one sweep, and the one that follows it
-/

namespace InventorySync

/-! ## Windows that are heard of -/

/-- Whether a sweep is over. -/
def Wait.isSwept : Wait → Bool
  | .over (.swept _) => true
  | .gate _ | .reply .. | .over (.forwarded _) | .over (.flushed _) => false

theorem windowsOpened_cons (t : Turn Activity) (turns : List (Turn Activity)) :
    windowsOpened (t :: turns) =
      if t.opensWindow then t.pipeline.cache :: windowsOpened turns else windowsOpened turns := by
  simp only [windowsOpened, List.filter_cons]
  split <;> rfl

/-- `Sweeping.next` tells of a window when it ends the sweep. -/
theorem Sweeping.opensWindow_next (p : Pipeline) (owner : Owner) (ids : List String)
    (report : SweepReport) :
    (next p owner ids report).opensWindow =
      (Activity.sweep (next p owner ids report).stage).wait.isSwept := by
  cases ids <;> rfl

/-- `Flushing.next` never does, and it ends no sweep. -/
theorem Flushing.opensWindow_next (p : Pipeline) (visitor : Nat) (handed : Option Nat)
    (items : List RetryItem) (sent : Nat) :
    (next p visitor handed items sent).opensWindow =
      (Activity.flush (next p visitor handed items sent).stage).wait.isSwept := by
  cases items <;> rfl

namespace Activity

/-- `beginSweep` tells of a window if there is nothing to sweep. -/
theorem opensWindow_beginSweep (p : Pipeline) (owner : Owner) :
    (beginSweep p owner).opensWindow = (beginSweep p owner).stage.wait.isSwept :=
  Sweeping.opensWindow_next _ _ _ _

theorem opensWindow_admitted (p : Pipeline) {a : Activity} {v : Visit} (h : a.wait = .gate v) :
    (a.admitted p).opensWindow = (a.admitted p).stage.wait.isSwept := by
  match a with
  | .forward (.entering v action record) =>
    simp only [admitted, Forwarding.admitted, Turn.map]
    split <;> rfl
  | .flush (.entering v item rest sent) =>
    simp only [admitted, Flushing.admitted, Turn.map]
    split
    · rfl
    · exact Flushing.opensWindow_next _ _ _ _ _
  | .forward (.sending ..) | .forward (.done _) | .flush (.sending ..) | .flush (.done _)
  | .sweep (.sending ..) | .sweep (.done _) => simp [wait] at h

theorem opensWindow_replied (p : Pipeline) (reply : Reply) {a : Activity} {action : Action}
    {record : Record} (h : a.wait = .reply action record) :
    (a.replied p reply).opensWindow = (a.replied p reply).stage.wait.isSwept := by
  match a with
  | .forward (.sending v action record) =>
    simp only [replied, Forwarding.replied, Turn.map]
    split <;> rfl
  | .flush (.sending v item rest sent) =>
    simp only [replied, Flushing.replied, Turn.map]
    split
    · exact Flushing.opensWindow_next _ _ _ _ _
    · rfl
  | .sweep (.sending owner id rest report) =>
    simp only [replied, Sweeping.replied, Turn.map]
    split <;> exact Sweeping.opensWindow_next _ _ _ _
  | .forward (.entering ..) | .forward (.done _) | .flush (.entering ..) | .flush (.done _)
  | .sweep (.done _) => simp [wait] at h

variable {ρ : Type} {respond : ρ → Action → Record → Reply × ρ} (remote : ρ) {t : Turn Activity}

theorem turnsAlone_of_over {report : Report} (h : t.stage.wait = .over report) :
    turnsAlone respond remote t = [t] := by
  rw [turnsAlone]
  split
  next => rfl
  next h' => cases h.symm.trans h'
  next h' => cases h.symm.trans h'

theorem turnsAlone_of_gate {v : Visit} (h : t.stage.wait = .gate v) :
    turnsAlone respond remote t =
      t :: turnsAlone respond remote (t.stage.admitted t.pipeline) := by
  rw [turnsAlone]
  split
  next h' => cases h.symm.trans h'
  next => rfl
  next h' => cases h.symm.trans h'

theorem turnsAlone_of_reply {action : Action} {record : Record}
    (h : t.stage.wait = .reply action record) :
    turnsAlone respond remote t =
      t :: turnsAlone respond (respond remote action record).2
        (t.stage.replied t.pipeline (respond remote action record).1) := by
  rw [turnsAlone]
  split
  next h' => cases h.symm.trans h'
  next h' => cases h.symm.trans h'
  next action' record' h' =>
    obtain ⟨rfl, rfl⟩ := Wait.reply.inj (h.symm.trans h')
    rfl

/-- `windowsOpened` in `turnsAlone` is one window if the run was a sweep, the cache that its last
turn leaves, and none otherwise. The first turn is one that a step has brought about. -/
theorem windowsOpened_turnsAlone (respond : ρ → Action → Record → Reply × ρ) (remote : ρ)
    {t : Turn Activity} (ht : t.opensWindow = t.stage.wait.isSwept) :
    windowsOpened (turnsAlone respond remote t) =
      match (runAlone respond remote t.pipeline t.stage).1 with
      | .swept _ => [(runAlone respond remote t.pipeline t.stage).2.1.cache]
      | .forwarded _ | .flushed _ => [] := by
  -- The recursion is that of the run; only a turn with which a sweep is over tells of a window.
  match hwait : t.stage.wait with
  | .over report =>
    rw [turnsAlone_of_over remote hwait, runAlone_of_over remote t.pipeline hwait,
      windowsOpened_cons, ht, hwait]
    cases report <;> rfl
  | .gate v =>
    rw [turnsAlone_of_gate remote hwait, runAlone_of_gate remote t.pipeline hwait,
      windowsOpened_cons, ht, hwait]
    exact windowsOpened_turnsAlone respond remote (opensWindow_admitted t.pipeline hwait)
  | .reply action record =>
    rw [turnsAlone_of_reply remote hwait, runAlone_of_reply remote t.pipeline hwait,
      windowsOpened_cons, ht, hwait]
    exact windowsOpened_turnsAlone respond _ (opensWindow_replied t.pipeline _ hwait)
termination_by t.stage.stepsLeft
decreasing_by
  · exact stepsLeft_admitted hwait
  · exact stepsLeft_replied _ hwait

end Activity

/-! ## Timelines -/

/-- Whether an entry of a log says that a window was opened. -/
def TimelineEntry.opensWindow : TimelineEntry → Bool
  | .windowOpened _ => true
  | .call .. | .reply .. | .over .. => false

namespace Timeline

/-- How many windows a timeline has noted. -/
def opened (t : Timeline) : Nat := t.log.countP TimelineEntry.opensWindow

theorem opened_note (t : Timeline) (entry : TimelineEntry) :
    (t.note entry).opened = t.opened + if entry.opensWindow then 1 else 0 := by
  simp [opened, note, Array.countP_push]

/-- `ask` notes a request, which is no window. -/
theorem opened_ask (t : Timeline) (visitor : Nat) (action : Action) (r : Record) :
    (t.ask visitor action r).opened = t.opened :=
  t.opened_note (.call t.agenda.now (.ofSend action r))

theorem opened_finishEvent (t : Timeline) (event : Nat) (outcome : Outcome) :
    (t.finishEvent event outcome).opened = t.opened := by
  have hnote := t.opened_note (.over t.agenda.now event outcome t.pipeline)
  unfold finishEvent
  dsimp only
  split
  · exact hnote
  · exact hnote

theorem opened_finishJob (t : Timeline) : t.finishJob.opened = t.opened := by
  unfold finishJob
  split <;> rfl

/-- `finishJob` and `finishEvent` note the end of an activity, which is no window. -/
theorem opened_finish (t : Timeline) (visitor : Nat) (outcome : Outcome) :
    (if visitor = t.worker then t.finishJob else t.finishEvent visitor outcome).opened =
      t.opened := by
  split
  · exact t.opened_finishJob
  · exact t.opened_finishEvent visitor outcome

theorem opened_adopt (t : Timeline) (visitor : Nat) (turn : Turn Activity) :
    (t.adopt visitor turn).opened = t.opened + if turn.opensWindow then 1 else 0 := by
  unfold adopt
  dsimp only
  split
  · exact opened_note _ _
  · rfl

/-- `settle` notes a window with the turns that open one: what comes after `adopt` is a request or
an end. -/
theorem opened_settle (t : Timeline) (visitor : Nat) (turn : Turn Activity) :
    (t.settle visitor turn).opened = t.opened + if turn.opensWindow then 1 else 0 := by
  have hadopted := t.opened_adopt visitor turn
  unfold settle
  dsimp only
  split
  · split <;> exact hadopted
  · rw [opened_ask]
    exact hadopted
  · exact (opened_finish _ _ _).trans hadopted

end Timeline

/-! ## Identifiers by their answers -/

/-- Of identifiers that are asked for one after another, those whose request is answered with
success, or with a failure; the first reply is that of number `start`. -/
def answeredWith (ok : Bool) (replies : Nat → Reply) (start : Nat) (ids : List String) :
    List String :=
  ((ids.zipIdx start).filter fun x => (replies x.2).isOk = ok).map (·.1)

section Answered

variable {ok : Bool} {replies : Nat → Reply} {start : Nat} {id : String} {ids : List String}

theorem answeredWith_cons_of_eq (h : (replies start).isOk = ok) :
    answeredWith ok replies start (id :: ids) = id :: answeredWith ok replies (start + 1) ids := by
  rw [answeredWith, List.zipIdx_cons, List.filter_cons_of_pos (by simpa using h)]
  rfl

theorem answeredWith_cons_of_ne (h : (replies start).isOk ≠ ok) :
    answeredWith ok replies start (id :: ids) = answeredWith ok replies (start + 1) ids := by
  rw [answeredWith, List.zipIdx_cons, List.filter_cons_of_neg (by simpa using h)]
  rfl

theorem answeredWith_subset (ok : Bool) (replies : Nat → Reply) (start : Nat) (ids : List String) :
    answeredWith ok replies start ids ⊆ ids := by
  intro id h
  obtain ⟨x, hx, rfl⟩ := List.mem_map.mp h
  exact List.fst_mem_of_mem_zipIdx (List.mem_filter.mp hx).1

/-- The two lists of `answeredWith` have every identifier: every request has one answer. -/
theorem length_answeredWith (replies : Nat → Reply) (start : Nat) (ids : List String) :
    (answeredWith true replies start ids).length + (answeredWith false replies start ids).length =
      ids.length := by
  induction ids generalizing start with
  | nil => rfl
  | cons id ids ih =>
    have hrest := ih (start + 1)
    cases h : (replies start).isOk with
    | true =>
      rw [answeredWith_cons_of_eq h, answeredWith_cons_of_ne (by simp [h]), List.length_cons,
        List.length_cons]
      omega
    | false =>
      rw [answeredWith_cons_of_ne (by simp [h]), answeredWith_cons_of_eq h, List.length_cons,
        List.length_cons]
      omega

/-- An identifier that was asked for once is `answeredWith` false unless it is with true. -/
theorem mem_answeredWith_false_iff (hnodup : ids.Nodup) (start : Nat) :
    id ∈ answeredWith false replies start ids ↔
      id ∈ ids ∧ id ∉ answeredWith true replies start ids := by
  induction ids generalizing start with
  | nil => simp [answeredWith]
  | cons first ids ih =>
    obtain ⟨hfirst, hrest⟩ := List.nodup_cons.mp hnodup
    have hlater := ih hrest (start + 1)
    cases h : (replies start).isOk with
    | true =>
      rw [answeredWith_cons_of_eq h, answeredWith_cons_of_ne (by simp [h]), hlater]
      -- The first identifier is none of the others.
      grind
    | false =>
      have hnot : first ∉ answeredWith true replies (start + 1) ids :=
        fun hmem => hfirst (answeredWith_subset _ _ _ _ hmem)
      have htrue : answeredWith true replies start (first :: ids) =
          answeredWith true replies (start + 1) ids := answeredWith_cons_of_ne (by simp [h])
      rw [htrue, answeredWith_cons_of_eq h, List.mem_cons, List.mem_cons, hlater]
      grind

end Answered

/-! ## The loop -/

/-- `forget` leaves `activeCount` alone for an identifier of which `isActive` does not hold. -/
theorem ChangeCache.activeCount_forget {c : ChangeCache} {id : String}
    (h : c.isActive id = false) : (c.forget id).activeCount = c.activeCount := by
  have hsame : ((c.entries.erase id).filter fun _ e => e.active) =
      c.entries.filter fun _ e => e.active := by
    refine Std.ExtTreeMap.ext_getElem? fun {id'} => ?_
    rw [Std.ExtTreeMap.getElem?_filter', Std.ExtTreeMap.getElem?_filter',
      Std.ExtTreeMap.getElem?_erase]
    split
    next hid =>
      obtain rfl := Std.compare_eq_iff_eq.mp hid
      have hnone : (c.get? id).filter (·.active) = none := by
        rw [Option.filter_eq_none_iff]
        intro e he
        simpa [ChangeCache.isActive, Option.mem_def.mp he] using h
      exact hnone.symm
    next => rfl
  exact congrArg Std.ExtTreeMap.size hsame

/-- What a sweep leaves in which `deleted` were deleted: the others are unseen, with their hashes,
in the next window. -/
structure Pipeline.Swept (p : Pipeline) (deleted : List String) (p' : Pipeline) : Prop where
  entry : ∀ id, p'.cache.get? id =
    if id ∈ deleted then none else (p.cache.get? id).map fun e => { e with active := false }
  windowOpen : p'.cache.windowOpen = true
  retry : p'.retry = p.retry
  normalizer : p'.normalizer = p.normalizer

/-- `Swept` after a deletion that failed, which leaves the cache as it is. -/
theorem Pipeline.Swept.of_cache_eq {p p₁ p' : Pipeline} {deleted : List String}
    (hcache : p₁.cache = p.cache) (hretry : p₁.retry = p.retry)
    (hnormalizer : p₁.normalizer = p.normalizer) (h : p₁.Swept deleted p') :
    p.Swept deleted p' where
  entry id := by rw [h.entry, hcache]
  windowOpen := h.windowOpen
  retry := h.retry.trans hretry
  normalizer := h.normalizer.trans hnormalizer

/-- `Swept` with one identifier more, which `forget` took out first. -/
theorem Pipeline.Swept.cons {p p₁ p' : Pipeline} {id : String} {deleted : List String}
    (hcache : p₁.cache = p.cache.forget id) (hretry : p₁.retry = p.retry)
    (hnormalizer : p₁.normalizer = p.normalizer) (h : p₁.Swept deleted p') :
    p.Swept (id :: deleted) p' where
  entry id' := by
    rw [h.entry, hcache, ChangeCache.get?_forget]
    by_cases hid : id = id'
    · simp [hid]
    · simp [hid, Ne.symm hid]
  windowOpen := h.windowOpen
  retry := h.retry.trans hretry
  normalizer := h.normalizer.trans hnormalizer

/-- The request of a sweep. -/
def deletion (owner : Owner) (id : String) : Action × Record :=
  (.delete, ⟨id, "", "", "", owner, .null⟩)

namespace Sweeping

/-- A sweep goes on alone with the identifiers that it has not seen to. -/
def sweepRest (replies : Nat → Reply) (asked : List (Action × Record)) (p : Pipeline)
    (owner : Owner) (ids : List String) (report : SweepReport) :
    Report × Pipeline × List (Action × Record) :=
  let turn := next p owner ids report
  Activity.runAlone (answering replies) asked turn.pipeline (.sweep turn.stage)

variable {replies : Nat → Reply} {asked : List (Action × Record)} {p : Pipeline} (owner : Owner)
  (id : String) (rest : List String) (report : SweepReport)

theorem sweepRest_nil :
    sweepRest replies asked p owner [] report =
      (.swept { report with marked := p.cache.activeCount },
        { p with cache := p.cache.closeWindow.openWindow }, asked) :=
  Activity.runAlone_of_over asked _ rfl

/-- `sweepRest` goes on from the answer to the request for an identifier. -/
theorem sweepRest_cons :
    sweepRest replies asked p owner (id :: rest) report =
      let turn := replied p owner id rest report (replies asked.length)
      Activity.runAlone (answering replies) (asked ++ [deletion owner id]) turn.pipeline
        (.sweep turn.stage) :=
  Activity.runAlone_of_reply asked p rfl

/-- `sweepRest` after a reply that `isOk` has the identifier forgotten, counts it as `deleted`, and
goes on. -/
theorem sweepRest_cons_of_isOk (hok : (replies asked.length).isOk = true) :
    ∃ p₁, p₁.cache = p.cache.forget id ∧ p₁.retry = p.retry ∧ p₁.normalizer = p.normalizer ∧
      sweepRest replies asked p owner (id :: rest) report =
        sweepRest replies (asked ++ [deletion owner id]) p₁ owner rest
          { report with deleted := report.deleted + 1 } := by
  rw [sweepRest_cons]
  simp only [replied, if_pos hok]
  let counted := p.countReply (replies asked.length)
  exact ⟨{ counted with cache := counted.cache.forget id }, rfl, rfl, rfl, rfl⟩

/-- `sweepRest` after a failure counts it as `failed`, and goes on. -/
theorem sweepRest_cons_of_failure (hfailed : (replies asked.length).isOk = false) :
    ∃ p₁, p₁.cache = p.cache ∧ p₁.retry = p.retry ∧ p₁.normalizer = p.normalizer ∧
      sweepRest replies asked p owner (id :: rest) report =
        sweepRest replies (asked ++ [deletion owner id]) p₁ owner rest
          { report with failed := report.failed + 1 } := by
  rw [sweepRest_cons]
  simp only [replied, hfailed, Bool.false_eq_true, if_false]
  exact ⟨p.countReply (replies asked.length), rfl, rfl, rfl, rfl⟩

variable {owner id rest}

/-- `sweepRest` from any point on: it asks for every identifier once, and leaves those `Swept` that
are answered with true. -/
theorem sweepRest_effect {ids : List String} (hunseen : ∀ id ∈ ids, p.cache.isActive id = false)
    (replies : Nat → Reply) (asked : List (Action × Record)) (owner : Owner)
    (report : SweepReport) :
    ∃ p', p.Swept (answeredWith true replies asked.length ids) p' ∧
      sweepRest replies asked p owner ids report =
        (.swept ⟨report.inactive,
            report.deleted + (answeredWith true replies asked.length ids).length,
            report.failed + (answeredWith false replies asked.length ids).length,
            p.cache.activeCount⟩,
          p', asked ++ ids.map (deletion owner)) := by
  induction ids generalizing p asked report with
  | nil =>
    refine ⟨{ p with cache := p.cache.closeWindow.openWindow }, ⟨?_, rfl, rfl, rfl⟩, ?_⟩
    · intro id
      exact p.cache.get?_closeWindow id
    · rw [sweepRest_nil, List.map_nil, List.append_nil]
      rfl
  | cons id rest ih =>
    obtain ⟨hid, hrest⟩ := List.forall_mem_cons.mp hunseen
    have hnext : (asked ++ [deletion owner id]).length = asked.length + 1 := by simp
    cases hreply : (replies asked.length).isOk with
    -- Deleted: one more is forgotten.
    | true =>
      obtain ⟨p₁, hcache, hretry, hnormalizer, hrun⟩ :=
        sweepRest_cons_of_isOk owner id rest report hreply
      -- What is forgotten was unseen, so nothing that was seen is lost.
      have hunseen₁ : ∀ other ∈ rest, p₁.cache.isActive other = false := by
        intro other hother
        rw [hcache, ChangeCache.isActive_forget]
        split
        · rfl
        · exact hrest other hother
      obtain ⟨p', hswept, hrun'⟩ := ih hunseen₁ (asked ++ [deletion owner id])
        { report with deleted := report.deleted + 1 }
      rw [hnext] at hswept hrun'
      have hfailures : answeredWith false replies asked.length (id :: rest) =
          answeredWith false replies (asked.length + 1) rest :=
        answeredWith_cons_of_ne (by simp [hreply])
      rw [answeredWith_cons_of_eq hreply, hfailures]
      refine ⟨p', hswept.cons hcache hretry hnormalizer, ?_⟩
      rw [hrun, hrun', hcache, ChangeCache.activeCount_forget hid]
      simp [Nat.add_assoc, Nat.add_comm 1]
    -- Failed: the cache stays as it was.
    | false =>
      obtain ⟨p₁, hcache, hretry, hnormalizer, hrun⟩ :=
        sweepRest_cons_of_failure owner id rest report hreply
      obtain ⟨p', hswept, hrun'⟩ := ih (hcache.symm ▸ hrest) (asked ++ [deletion owner id])
        { report with failed := report.failed + 1 }
      rw [hnext] at hswept hrun'
      have hsuccesses : answeredWith true replies asked.length (id :: rest) =
          answeredWith true replies (asked.length + 1) rest :=
        answeredWith_cons_of_ne (by simp [hreply])
      rw [answeredWith_cons_of_eq hreply, hsuccesses]
      refine ⟨p', hswept.of_cache_eq hcache hretry hnormalizer, ?_⟩
      rw [hrun, hrun', hcache]
      simp [Nat.add_assoc, Nat.add_comm 1]

end Sweeping

/-! ## What stays unseen -/

/-- `inactive` after a sweep are the cached identifiers that it did not delete. -/
theorem Pipeline.Swept.mem_inactive_iff {p p' : Pipeline} {deleted : List String}
    (h : p.Swept deleted p') (id : String) :
    id ∈ p'.cache.inactive ↔ id ∉ deleted ∧ (p.cache.get? id).isSome = true := by
  rw [ChangeCache.mem_inactive_iff, h.entry]
  by_cases hid : id ∈ deleted
  · simp [hid]
  · cases p.cache.get? id <;> simp [hid]

/-- An event, with what became of it, takes an identifier out of what is unseen: it shows the
identifier, or it had it deleted. -/
def Normalizer.Clears (n : Normalizer) (id : String) (x : Delivery × Report) : Prop :=
  n.identifier? x.1 = some id ∧ (x.1.1 ≠ .delete ∨ x.2 = .forwarded .sent)

/-- `observe` of an event other than a deletion marks the entry of its identifier as `active`, while
a window is open. -/
theorem Forwarding.active_observe {p : Pipeline} {action : Action} {r : Record}
    (hopen : p.cache.windowOpen = true) (ha : action ≠ .delete) {e : CacheEntry}
    (he : (observe p action r).cache.get? r.identifier = some e) : e.active = true := by
  rw [get?_observe, if_pos ⟨ha, hopen, rfl⟩] at he
  obtain ⟨e', -, rfl⟩ := Option.map_eq_some_iff.mp he
  rfl

namespace Pipeline

variable {ρ : Type} (respond : ρ → Action → Record → Reply × ρ) (visitor : Nat)
  {s : Pipeline × ρ}

/-- `forwardNext` of a creation or an update leaves its entry `active`, sent or not. -/
theorem active_forwardNext (hopen : s.1.cache.windowOpen = true) {d : Delivery} (ha : d.1 ≠ .delete)
    {id : String} (hd : s.1.normalizer.identifier? d = some id) {e : CacheEntry}
    (he : (forwardNext respond visitor s d).2.1.cache.get? id = some e) : e.active = true := by
  obtain ⟨r, hdoc, rfl⟩ := Normalizer.identifier?_eq_some_iff.mp hd
  unfold forwardNext at he
  by_cases hsame : d.1 ≠ .delete ∧ s.1.cache.hash? r.identifier = some r.contentHash
  · obtain ⟨p', heq, -, hcache, -⟩ :=
      forwardAlone_of_unchanged respond s.2 visitor hdoc hsame.1 hsame.2
    rw [heq, hcache] at he
    exact Forwarding.active_observe hopen ha he
  · obtain ⟨p', heq, -, hcache, -⟩ := forwardAlone_of_changed respond s.2 visitor hdoc hsame
    rw [heq, hcache] at he
    split at he
    · -- A confirmed identifier counts as seen in the open window.
      rw [get?_settle, if_pos rfl, Forwarding.windowOpen_observe, hopen] at he
      obtain ⟨hash, -, rfl⟩ := Option.map_eq_some_iff.mp he
      rfl
    · exact Forwarding.active_observe hopen ha he

/-- `forwardNext` of a deletion has its identifier forgotten if it is `.sent`, and leaves its entry
alone if it is `.queued`. -/
theorem get?_forwardNext_delete {d : Delivery} (ha : d.1 = .delete) {id : String}
    (hd : s.1.normalizer.identifier? d = some id) :
    ((forwardNext respond visitor s d).1 = .forwarded .sent ∧
        (forwardNext respond visitor s d).2.1.cache.get? id = none) ∨
      ((forwardNext respond visitor s d).1 = .forwarded .queued ∧
        (forwardNext respond visitor s d).2.1.cache.get? id = s.1.cache.get? id) := by
  obtain ⟨r, hdoc, rfl⟩ := Normalizer.identifier?_eq_some_iff.mp hd
  obtain ⟨p', heq, -, hcache, -⟩ :=
    forwardAlone_of_changed respond s.2 visitor hdoc fun hsame => hsame.1 ha
  unfold forwardNext
  rw [heq, hcache, ha]
  cases (respond s.2 .delete r).1.isOk with
  | true => exact Or.inl ⟨rfl, (get?_settle _ _ _ _).trans (if_pos rfl)⟩
  | false => exact Or.inr ⟨rfl, rfl⟩

/-- An identifier stays `inactive` through `forwardNext` unless the event `Clears` it, and none
becomes so. -/
theorem mem_inactive_forwardNext (hopen : s.1.cache.windowOpen = true) (d : Delivery)
    (id : String) :
    id ∈ (forwardNext respond visitor s d).2.1.cache.inactive ↔
      id ∈ s.1.cache.inactive ∧
        ¬ s.1.normalizer.Clears id (d, (forwardNext respond visitor s d).1) := by
  by_cases hd : s.1.normalizer.identifier? d = some id
  · by_cases ha : d.1 = .delete
    · rcases get?_forwardNext_delete respond visitor ha hd with ⟨hreport, hentry⟩ |
        ⟨hreport, hentry⟩
      · simp [ChangeCache.mem_inactive_iff, hentry, Normalizer.Clears, hd, hreport]
      · simp [ChangeCache.mem_inactive_iff, hentry, Normalizer.Clears, ha, hreport]
    · have hseen : id ∉ (forwardNext respond visitor s d).2.1.cache.inactive := by
        rw [ChangeCache.mem_inactive_iff]
        rintro ⟨e, he, hunseen⟩
        rw [active_forwardNext respond visitor hopen ha hd he] at hunseen
        cases hunseen
      simp [hseen, Normalizer.Clears, hd, ha]
  · rw [ChangeCache.mem_inactive_iff, (forwardNext_of_other respond visitor hd).1,
      ← ChangeCache.mem_inactive_iff]
    simp [Normalizer.Clears, hd]

/-- `inactive` after events are the identifiers that were so before, and that none of the events
`Clears`. -/
theorem mem_inactive_runAll (hopen : s.1.cache.windowOpen = true) (events : List Delivery)
    (id : String) :
    id ∈ (runAll (forwardNext respond visitor) s events).2.1.cache.inactive ↔
      id ∈ s.1.cache.inactive ∧
        ∀ x ∈ events.zip (runAll (forwardNext respond visitor) s events).1,
          ¬ s.1.normalizer.Clears id x := by
  induction events generalizing s with
  | nil => simp [runAll]
  | cons d events ih =>
    obtain ⟨hnormalizer, hwindow⟩ := forwardNext_keeps respond visitor s d
    rw [runAll_cons, ih (hwindow.trans hopen), hnormalizer, mem_inactive_forwardNext _ _ hopen,
      List.zip_cons_cons, List.forall_mem_cons, and_assoc]

/-! ## One sweep and the next -/

/-- A sweep that runs alone, from its beginning to its end: its report, the pipeline, and what the
remote side was asked. -/
def sweepAlone (p : Pipeline) (owner : Owner) (replies : Nat → Reply) :
    Report × Pipeline × List (Action × Record) :=
  let begun := Activity.beginSweep p owner
  Activity.runAlone (answering replies) [] begun.pipeline begun.stage

theorem deletion_mem_map_iff {owner : Owner} {id : String} {ids : List String} :
    deletion owner id ∈ ids.map (deletion owner) ↔ id ∈ ids := by
  refine List.mem_map_of_injective fun id id' h => ?_
  exact congrArg (fun c => c.2.identifier) h

/-- `sweepAlone` asks for everything that is `inactive` at its beginning, and leaves it `Swept`. -/
theorem sweepAlone_effect (p : Pipeline) (owner : Owner) (replies : Nat → Reply) :
    ∃ p', p.Swept (answeredWith true replies 0 p.cache.inactive) p' ∧
      p.sweepAlone owner replies =
        (.swept ⟨p.cache.inactive.length, (answeredWith true replies 0 p.cache.inactive).length,
            (answeredWith false replies 0 p.cache.inactive).length, p.cache.activeCount⟩,
          p', p.cache.inactive.map (deletion owner)) := by
  have hunseen : ∀ id ∈ p.cache.inactive, p.cache.isActive id = false := fun id hid =>
    ((p.cache.mem_inactive_iff_isActive id).mp hid).2
  obtain ⟨p', hswept, hrun⟩ := Sweeping.sweepRest_effect hunseen replies [] owner
    ⟨p.cache.inactive.length, 0, 0, 0⟩
  refine ⟨p', hswept, hrun.trans ?_⟩
  simp only [List.length_nil, Nat.zero_add, List.nil_append]

/-- `windowsOpened` in a sweep that runs alone is one window, the cache when the sweep is over. -/
theorem windowsOpened_sweepAlone (p : Pipeline) (owner : Owner) (replies : Nat → Reply) :
    windowsOpened (Activity.turnsAlone (answering replies) [] (Activity.beginSweep p owner)) =
      [(p.sweepAlone owner replies).2.1.cache] := by
  obtain ⟨p', -, hrun⟩ := p.sweepAlone_effect owner replies
  have hreport : (Activity.runAlone (answering replies) [] (Activity.beginSweep p owner).pipeline
      (Activity.beginSweep p owner).stage).1 = _ := congrArg Prod.fst hrun
  rw [Activity.windowsOpened_turnsAlone _ _ (Activity.opensWindow_beginSweep p owner), hreport]
  rfl

/-- `inactive` after a sweep are the identifiers whose deletion failed and those that were seen
before. -/
theorem Swept.mem_inactive_iff_failed {p p' : Pipeline} {replies : Nat → Reply}
    (h : p.Swept (answeredWith true replies 0 p.cache.inactive) p') (id : String) :
    id ∈ p'.cache.inactive ↔
      id ∈ answeredWith false replies 0 p.cache.inactive ∨ p.cache.isActive id = true := by
  have hsubset : id ∈ answeredWith true replies 0 p.cache.inactive → id ∈ p.cache.inactive :=
    fun hmem => answeredWith_subset _ _ _ _ hmem
  have hactive : p.cache.isActive id = true → (p.cache.hash? id).isSome = true := by
    rw [ChangeCache.isActive, ChangeCache.isSome_hash?]
    cases p.cache.get? id <;> simp
  rw [h.mem_inactive_iff, mem_answeredWith_false_iff p.cache.nodup_inactive]
  rw [ChangeCache.mem_inactive_iff_isActive, ← ChangeCache.isSome_hash?] at *
  -- What is known is unseen or seen, and only what is unseen was asked for.
  cases hseen : p.cache.isActive id <;> grind

/-- `sweepAlone`, whatever the cache has and whatever is answered: every `inactive` identifier is
asked for once, in increasing order; those that are `answeredWith` true are forgotten and all others
are unseen, with their hashes, in the window that is opened then, which `windowsOpened` hears of.
The next sweep asks for those that failed or were seen before, unless an event in between `Clears`
them. -/
theorem sweep_effect (p : Pipeline) (owner : Owner) (replies : Nat → Reply) :
    let ids := p.cache.inactive
    let deleted := answeredWith true replies 0 ids
    let failed := answeredWith false replies 0 ids
    let (report, p', asked) := p.sweepAlone owner replies
    (∀ id, id ∈ ids ↔ ∃ e, p.cache.get? id = some e ∧ e.active = false) ∧
    ids.Pairwise (· < ·) ∧
    asked = ids.map (fun id => (.delete, ⟨id, "", "", "", owner, .null⟩)) ∧
    (∀ id, p'.cache.get? id =
      if id ∈ deleted then none else (p.cache.get? id).map fun e => { e with active := false }) ∧
    p'.cache.windowOpen = true ∧
    windowsOpened (Activity.turnsAlone (answering replies) [] (Activity.beginSweep p owner)) =
      [p'.cache] ∧
    p'.retry = p.retry ∧
    (∃ seen : List String, seen.Nodup ∧ (∀ id, id ∈ seen ↔ p.cache.isActive id = true) ∧
      report = .swept ⟨ids.length, deleted.length, failed.length, seen.length⟩) ∧
    deleted.length + failed.length = ids.length ∧
    (∀ (ρ : Type) (respond : ρ → Action → Record → Reply × ρ) (remote : ρ) (visitor : Nat)
      (events : List Delivery) (owner' : Owner) (replies' : Nat → Reply) (id : String),
      let (outcomes, p₁, _) := runAll (forwardNext respond visitor) (p', remote) events
      (.delete, ⟨id, "", "", "", owner', .null⟩) ∈ (p₁.sweepAlone owner' replies').2.2 ↔
        (id ∈ failed ∨ p.cache.isActive id = true) ∧
          ∀ x ∈ events.zip outcomes, ¬ p.normalizer.Clears id x) := by
  intro ids deleted failed
  obtain ⟨p', hswept, hrun⟩ := p.sweepAlone_effect owner replies
  obtain ⟨seen, hnodup, hseen, hcount⟩ := p.cache.activeCount_eq
  have hheard := p.windowsOpened_sweepAlone owner replies
  rw [hrun] at hheard ⊢
  refine ⟨p.cache.mem_inactive_iff, p.cache.pairwise_inactive, rfl, hswept.entry,
    hswept.windowOpen, hheard, hswept.retry, ⟨seen, hnodup, hseen, by rw [hcount]⟩,
    length_answeredWith replies 0 ids, ?_⟩
  intro ρ respond remote visitor events owner' replies' id
  obtain ⟨p₂, -, hnext⟩ := (runAll (forwardNext respond visitor) (p', remote)
    events).2.1.sweepAlone_effect owner' replies'
  have hasked := congrArg (fun run => run.2.2) hnext
  dsimp only at hasked ⊢
  rw [hasked, ← hswept.mem_inactive_iff_failed, ← hswept.normalizer]
  exact deletion_mem_map_iff.trans
    (mem_inactive_runAll respond visitor hswept.windowOpen events id)

end Pipeline
end InventorySync
