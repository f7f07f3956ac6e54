import InventorySync.Proofs.Activity

/-!
# One operation after another

Events, flushes and sweeps that run alone, each to its end before the next begins, against an
inventory whose answers are prepared. An answer that is a failure may hide a request that was
carried out all the same.

## Key results

- `perform_induct`, `performAll_induct`: what every step of an activity keeps, its run to the end
  keeps; what every operation keeps, a sequence of operations keeps
- `forwardAlone_of_unchanged`, `forwardAlone_of_changed`: what becomes of an event, whatever
  answers
-/

namespace InventorySync

/-! ## Runs to the end -/

namespace Activity

variable {ρ : Type} {respond : ρ → Action → Record → Reply × ρ}

theorem runAlone_of_over (remote : ρ) (p : Pipeline) {a : Activity} {report : Report}
    (h : a.wait = .over report) : runAlone respond remote p a = (report, p, remote) := by
  rw [runAlone]
  split
  next report' h' =>
    obtain rfl := Wait.over.inj (h.symm.trans h')
    rfl
  next h' => cases h.symm.trans h'
  next h' => cases h.symm.trans h'

theorem runAlone_of_gate (remote : ρ) (p : Pipeline) {a : Activity} {v : Visit}
    (h : a.wait = .gate v) :
    runAlone respond remote p a =
      runAlone respond remote (a.admitted p).pipeline (a.admitted p).stage := by
  rw [runAlone]
  split
  next h' => cases h.symm.trans h'
  next => rfl
  next h' => cases h.symm.trans h'

theorem runAlone_of_reply (remote : ρ) (p : Pipeline) {a : Activity} {action : Action}
    {record : Record} (h : a.wait = .reply action record) :
    runAlone respond remote p a =
      runAlone respond (respond remote action record).2
        (a.replied p (respond remote action record).1).pipeline
        (a.replied p (respond remote action record).1).stage := by
  rw [runAlone]
  split
  next h' => cases h.symm.trans h'
  next h' => cases h.symm.trans h'
  next action' record' h' =>
    obtain ⟨rfl, rfl⟩ := Wait.reply.inj (h.symm.trans h')
    rfl

/-- What `admitted` and `replied` keep holds at the end of `runAlone`. -/
theorem runAlone_induct {I : ρ → Pipeline → Activity → Prop}
    (pass : ∀ {s p a v}, I s p a → a.wait = .gate v →
      I s (a.admitted p).pipeline (a.admitted p).stage)
    (answer : ∀ {s p a action record}, I s p a → a.wait = .reply action record →
      I (respond s action record).2 (a.replied p (respond s action record).1).pipeline
        (a.replied p (respond s action record).1).stage)
    (s : ρ) (p : Pipeline) (a : Activity) (h : I s p a) :
    ∃ b, b.wait = .over (runAlone respond s p a).1 ∧
      I (runAlone respond s p a).2.2 (runAlone respond s p a).2.1 b := by
  -- The recursion is that of the run: on the steps that the activity still has to take.
  match hwait : a.wait with
  | .over report =>
    rw [runAlone_of_over s p hwait]
    exact ⟨a, hwait, h⟩
  | .gate v =>
    rw [runAlone_of_gate s p hwait]
    exact runAlone_induct pass answer _ _ _ (pass h hwait)
  | .reply action record =>
    rw [runAlone_of_reply s p hwait]
    exact runAlone_induct pass answer _ _ _ (answer h hwait)
termination_by a.stepsLeft
decreasing_by
  · exact stepsLeft_admitted hwait
  · exact stepsLeft_replied _ hwait

end Activity

/-! ## One event alone -/

/-- An object as it is handed to the pipeline: what has happened to it, and what it is now. -/
abbrev Delivery := Action × Json

namespace Pipeline

variable {ρ : Type} (respond : ρ → Action → Record → Reply × ρ) (remote : ρ)

/-- An event is forwarded from its arrival to its end: what becomes of it, the pipeline, and the
remote side. -/
def forwardAlone (p : Pipeline) (visitor : Nat) (action : Action) (doc : Json) :
    Report × Pipeline × ρ :=
  let begun := Activity.beginForward p visitor action doc
  Activity.runAlone respond remote begun.pipeline begun.stage

variable {p : Pipeline} {action : Action} {doc : Json} {r : Record} (visitor : Nat)

theorem forwardAlone_of_malformed (action : Action) {e : Malformed}
    (h : p.normalizer.normalize doc = .error e) :
    forwardAlone respond remote p visitor action doc = (.forwarded .dropped, p, remote) := by
  have hbegin : Activity.beginForward p visitor action doc =
      ⟨p, .forward (.done .dropped), none, false⟩ := by
    simp only [Activity.beginForward, Forwarding.start, h, Turn.map]
  rw [forwardAlone, hbegin]
  exact Activity.runAlone_of_over _ _ rfl

/-- `forwardAlone` takes a well-formed event to the gate with `enter`, and goes on from `admitted`.
-/
theorem forwardAlone_eq (action : Action) (h : p.normalizer.normalize doc = .ok r) :
    ∃ a : Activity, a = .forward (.entering (p.enter r.identifier visitor).1 action r) ∧
      forwardAlone respond remote p visitor action doc =
        Activity.runAlone respond remote (a.admitted (p.enter r.identifier visitor).2).pipeline
          (a.admitted (p.enter r.identifier visitor).2).stage := by
  refine ⟨_, rfl, ?_⟩
  have hbegin : Activity.beginForward p visitor action doc =
      ⟨(p.enter r.identifier visitor).2,
        .forward (.entering (p.enter r.identifier visitor).1 action r), none, false⟩ := by
    simp only [Activity.beginForward, Forwarding.start, h, Turn.map]
  rw [forwardAlone, hbegin]
  exact Activity.runAlone_of_gate _ _ rfl

/-- `forwardAlone` does not send an event whose hash the cache holds: it ends as `.unchanged`. -/
theorem forwardAlone_of_unchanged (h : p.normalizer.normalize doc = .ok r) (ha : action ≠ .delete)
    (hc : p.cache.hash? r.identifier = some r.contentHash) :
    ∃ p', forwardAlone respond remote p visitor action doc =
        (.forwarded .unchanged, p', remote) ∧
      p'.normalizer = p.normalizer ∧ p'.cache = (Forwarding.observe p action r).cache ∧
      p'.retry = (p.retry.remove r.identifier).2 := by
  obtain ⟨a, rfl, heq⟩ := forwardAlone_eq respond remote visitor action h
  obtain ⟨hstage, hretry⟩ := Activity.admitted_forward_of_unchanged
    (p := (p.enter r.identifier visitor).2) (p.enter r.identifier visitor).1 ha hc
  rw [heq, hstage, Activity.runAlone_of_over _ _ rfl]
  refine ⟨_, rfl, Activity.normalizer_admitted _ _, ?_, hretry⟩
  exact (Activity.cache_admitted_forward _ _ _ _).trans (by cases action <;> rfl)

/-- `forwardAlone` sends any other event: after a reply that `isOk` it is settled in the cache and
nothing is queued for it, otherwise it is queued. -/
theorem forwardAlone_of_changed (h : p.normalizer.normalize doc = .ok r)
    (hc : ¬ (action ≠ .delete ∧ p.cache.hash? r.identifier = some r.contentHash)) :
    let (reply, remote') := respond remote action r
    ∃ p', forwardAlone respond remote p visitor action doc =
        (.forwarded (if reply.isOk then .sent else .queued), p', remote') ∧
      p'.normalizer = p.normalizer ∧
      p'.cache = (if reply.isOk then ((Forwarding.observe p action r).settle action r).cache
        else (Forwarding.observe p action r).cache) ∧
      p'.retry = (if reply.isOk then (p.retry.remove r.identifier).2
        else (p.retry.add r action).2) := by
  obtain ⟨a, rfl, heq⟩ := forwardAlone_eq respond remote visitor action h
  have hsent := Activity.admitted_forward_of_changed
    (p := (p.enter r.identifier visitor).2) (p.enter r.identifier visitor).1 hc
  rw [heq, hsent, Activity.runAlone_of_reply _ _ rfl]
  -- The answer ends the activity, with the success noted or the failure queued.
  cases hok : (respond remote action r).1.isOk with
  | true =>
    simp only [Activity.replied, Forwarding.replied, hok, if_true, Turn.stage_map,
      Turn.pipeline_map]
    rw [Activity.runAlone_of_over _ _ rfl]
    refine ⟨_, rfl, ?_, ?_, ?_⟩ <;> cases action <;> rfl
  | false =>
    simp only [Activity.replied, Forwarding.replied, hok, Bool.false_eq_true, if_false,
      Turn.stage_map, Turn.pipeline_map]
    rw [Activity.runAlone_of_over _ _ rfl]
    refine ⟨_, rfl, ?_, ?_, ?_⟩ <;> cases action <;> rfl

end Pipeline

/-! ## An inventory with prepared answers -/

/-- A `Reply`, and whether a request that is answered with a failure is carried out all the same. -/
structure PreparedAnswer where
  reply : Reply
  lands : Bool
deriving DecidableEq, Repr, Inhabited

/-- A request, its answer, and whether it was carried out. -/
structure Exchange where
  call : Call
  reply : Reply
  landed : Bool
deriving DecidableEq, Repr, Inhabited

/-- What is `held`, the answers that are prepared, after which it answers with success, and what it
was asked so far, the newest `Exchange` first. -/
structure ScriptedInventory where
  held : Holdings
  script : List PreparedAnswer
  log : List Exchange

namespace ScriptedInventory

/-- The next answer. -/
def answer (v : ScriptedInventory) : PreparedAnswer := v.script.headD ⟨.status 200, true⟩

/-- Whether the next request will be carried out: if it is answered with success, and perhaps if it
is answered with a failure. -/
def lands (v : ScriptedInventory) : Bool := v.answer.reply.isOk || v.answer.lands

/-- A request is answered. -/
def respond (v : ScriptedInventory) (action : Action) (r : Record) : Reply × ScriptedInventory :=
  let c := Call.ofSend action r
  (v.answer.reply,
    { held := if v.lands then v.held.carryOut c else v.held
      script := v.script.tail
      log := ⟨c, v.answer.reply, v.lands⟩ :: v.log })

/-- The requests that were answered with success, the newest first. -/
def confirmed (v : ScriptedInventory) : List Call :=
  (v.log.filter fun e => e.reply.isOk).map (·.call)

theorem held_respond (v : ScriptedInventory) (action : Action) (r : Record) (id : String) :
    (v.respond action r).2.held[id]? =
      if v.lands ∧ r.identifier = id then (Call.ofSend action r).outcome else v.held[id]? := by
  show (if v.lands then v.held.carryOut (.ofSend action r) else v.held)[id]? = _
  by_cases hlands : v.lands = true
  · simp only [hlands, if_true, true_and, Holdings.getElem?_carryOut]
    rfl
  · simp only [hlands, Bool.false_eq_true, if_false, false_and]

end ScriptedInventory

/-! ## Operations -/

/-- What a `Session` can `perform`. -/
inductive Operation where
  | forward (action : Action) (doc : Json)
  | flush
  | sweep (owner : Owner)

/-- A pipeline and the inventory that it sends to. -/
structure Session where
  pipeline : Pipeline
  inventory : ScriptedInventory

namespace Session

/-- The activity begins that carries an operation out. -/
def begin (s : Session) : Operation → Turn Activity
  | .forward action doc => Activity.beginForward s.pipeline 0 action doc
  | .flush => Activity.beginFlush s.pipeline 0
  | .sweep owner => Activity.beginSweep s.pipeline owner

/-- An activity goes on to its end. -/
def finish (s : Session) (a : Activity) : Report × Session :=
  let (report, p, v) := Activity.runAlone ScriptedInventory.respond s.inventory s.pipeline a
  (report, ⟨p, v⟩)

/-- An operation is carried out from its beginning to its end. -/
def perform (s : Session) (o : Operation) : Report × Session :=
  finish ⟨(s.begin o).pipeline, s.inventory⟩ (s.begin o).stage

/-- Operations are carried out one after another. -/
def performAll (s : Session) (os : List Operation) : Session :=
  os.foldl (fun s o => (s.perform o).2) s

/-- The session after an activity has been let through the gate. -/
def pass (s : Session) (a : Activity) : Session := ⟨(a.admitted s.pipeline).pipeline, s.inventory⟩

/-- The session after a request of an activity has been answered. -/
def exchange (s : Session) (a : Activity) (action : Action) (r : Record) : Session :=
  ⟨(a.replied s.pipeline s.inventory.answer.reply).pipeline, (s.inventory.respond action r).2⟩

/-- What `Session.pass` and `Session.exchange` keep holds when an activity is over, at the end of
`finish`. -/
theorem finish_induct {I : Session → Activity → Prop}
    (pass : ∀ {s a v}, I s a → a.wait = .gate v → I (s.pass a) (a.admitted s.pipeline).stage)
    (exchange : ∀ {s a action r}, I s a → a.wait = .reply action r →
      I (s.exchange a action r) (a.replied s.pipeline s.inventory.answer.reply).stage)
    {s : Session} {a : Activity} (h : I s a) :
    ∃ b, b.wait = .over (s.finish a).1 ∧ I (s.finish a).2 b :=
  Activity.runAlone_induct (I := fun v p a => I ⟨p, v⟩ a) pass exchange s.inventory s.pipeline a h

/-- What `begin` starts with, and `pass` and `exchange` keep, holds after `perform`. -/
theorem perform_induct {I : Session → Activity → Prop} {s : Session} (o : Operation)
    (begins : I ⟨(s.begin o).pipeline, s.inventory⟩ (s.begin o).stage)
    (pass : ∀ {s a v}, I s a → a.wait = .gate v → I (s.pass a) (a.admitted s.pipeline).stage)
    (exchange : ∀ {s a action r}, I s a → a.wait = .reply action r → a.Queued s.pipeline.retry →
      I (s.exchange a action r) (a.replied s.pipeline s.inventory.answer.reply).stage) :
    ∃ b, b.wait = .over (s.perform o).1 ∧ I (s.perform o).2 b := by
  have hqueued : (s.begin o).stage.Queued (s.begin o).pipeline.retry := by
    intro item hitem
    -- Nothing has been sent again at the beginning.
    cases o with
    | forward action doc =>
      rw [begin, Activity.resent?_beginForward] at hitem
      cases hitem
    | flush => cases (Flushing.resent?_next _ _ _ _ _).symm.trans hitem
    | sweep owner => cases hitem
  obtain ⟨b, hover, hend, -⟩ := finish_induct
    (I := fun s a => I s a ∧ a.Queued s.pipeline.retry)
    (fun h hwait => ⟨pass h.1 hwait, Activity.queued_of_gate hwait⟩)
    (fun {s a action r} h hwait => by
      refine ⟨exchange h.1 hwait h.2, fun item hitem => ?_⟩
      rw [Activity.resent?_replied _ (Activity.request?_of_reply hwait)] at hitem
      cases hitem)
    ⟨begins, hqueued⟩
  exact ⟨b, hover, hend⟩

@[simp] theorem normalizer_perform (s : Session) (o : Operation) :
    (s.perform o).2.pipeline.normalizer = s.pipeline.normalizer := by
  obtain ⟨b, -, hend⟩ := perform_induct (s := s) (o := o)
    (I := fun s' _ => s'.pipeline.normalizer = s.pipeline.normalizer)
    (by
      cases o with
      | forward action doc => exact Activity.normalizer_beginForward _ _ _ _
      | flush => exact Activity.normalizer_beginFlush _ _
      | sweep owner => exact Activity.normalizer_beginSweep _ _)
    (fun h _ => (Activity.normalizer_admitted _ _).trans h)
    (fun h _ _ => (Activity.normalizer_replied _ _ _).trans h)
  exact hend

/-! ## Events -/

theorem perform_forward_eq (s : Session) (action : Action) (doc : Json) :
    s.perform (.forward action doc) =
      let (report, pipeline, inventory) :=
        Pipeline.forwardAlone ScriptedInventory.respond s.inventory s.pipeline 0 action doc
      (report, ⟨pipeline, inventory⟩) := rfl

theorem perform_forward_of_malformed {s : Session} (action : Action) {doc : Json}
    {e : Malformed} (h : s.pipeline.normalizer.normalize doc = .error e) :
    s.perform (.forward action doc) = (.forwarded .dropped, s) := by
  rw [perform_forward_eq, Pipeline.forwardAlone_of_malformed _ _ _ action h]

/-- `perform` does not send an event whose hash the cache holds: it ends as `.unchanged`. -/
theorem perform_forward_of_unchanged {s : Session} {action : Action} {doc : Json} {r : Record}
    (h : s.pipeline.normalizer.normalize doc = .ok r) (ha : action ≠ .delete)
    (hc : s.pipeline.cache.hash? r.identifier = some r.contentHash) :
    (s.perform (.forward action doc)).1 = .forwarded .unchanged ∧
      (s.perform (.forward action doc)).2.inventory = s.inventory ∧
      (s.perform (.forward action doc)).2.pipeline.cache =
        (Forwarding.observe s.pipeline action r).cache ∧
      (s.perform (.forward action doc)).2.pipeline.retry =
        (s.pipeline.retry.remove r.identifier).2 := by
  obtain ⟨p', heq, -, hcache, hretry⟩ := Pipeline.forwardAlone_of_unchanged
    ScriptedInventory.respond s.inventory 0 h ha hc
  rw [perform_forward_eq, heq]
  exact ⟨rfl, rfl, hcache, hretry⟩

/-- `perform` sends any other event: after a reply that `isOk` it is settled in the cache and
nothing is queued for it, otherwise it is queued. -/
theorem perform_forward_of_changed {s : Session} {action : Action} {doc : Json} {r : Record}
    (h : s.pipeline.normalizer.normalize doc = .ok r)
    (hc : ¬ (action ≠ .delete ∧ s.pipeline.cache.hash? r.identifier = some r.contentHash)) :
    (s.perform (.forward action doc)).1 =
        .forwarded (if s.inventory.answer.reply.isOk then .sent else .queued) ∧
      (s.perform (.forward action doc)).2.inventory = (s.inventory.respond action r).2 ∧
      (s.perform (.forward action doc)).2.pipeline.cache =
        (if s.inventory.answer.reply.isOk then
          ((Forwarding.observe s.pipeline action r).settle action r).cache
        else (Forwarding.observe s.pipeline action r).cache) ∧
      (s.perform (.forward action doc)).2.pipeline.retry =
        (if s.inventory.answer.reply.isOk then (s.pipeline.retry.remove r.identifier).2
        else (s.pipeline.retry.add r action).2) := by
  obtain ⟨p', heq, -, hcache, hretry⟩ := Pipeline.forwardAlone_of_changed
    ScriptedInventory.respond s.inventory 0 h hc
  rw [perform_forward_eq, heq]
  exact ⟨rfl, rfl, hcache, hretry⟩

/-! ## Starts -/

/-- A start from the inventory's own list, with nothing queued. -/
def fresh (n : Normalizer) (c : ChangeCache) (errors : Nat) (held : Holdings)
    (script : List PreparedAnswer) : Session :=
  ⟨⟨n, c.init held.toList, .empty, .empty, errors⟩, ⟨held, script, []⟩⟩

theorem performAll_nil (s : Session) : s.performAll [] = s := rfl

theorem performAll_cons (s : Session) (o : Operation) (os : List Operation) :
    s.performAll (o :: os) = (s.perform o).2.performAll os := rfl

/-- What every `perform` keeps, `performAll` keeps. -/
theorem performAll_induct {P : Session → Prop} (keeps : ∀ {s} o, P s → P (s.perform o).2)
    {s : Session} (h : P s) (os : List Operation) : P (s.performAll os) := by
  induction os generalizing s with
  | nil => exact h
  | cons o os ih => exact ih (keeps o h)

theorem normalizer_performAll (s : Session) (os : List Operation) :
    (s.performAll os).pipeline.normalizer = s.pipeline.normalizer :=
  performAll_induct (P := fun s' => s'.pipeline.normalizer = s.pipeline.normalizer)
    (fun o h => (normalizer_perform _ o).trans h) rfl os

end Session
end InventorySync
