import InventorySync.Proofs.Chronicle
import Mathlib.Data.String.Basic

/-!
# What a sweep deletes

A sweep takes the unseen identifiers when it begins and asks for the deletion of each, one after
another. Unseen is what is cached and was neither confirmed nor seen at the gate since the window
was opened; so an object whose event was dealt with in the window is left alone, whatever became
of the event.

## Key results

- `Chronicle.attended_step`: an event of the window still stands at the gate, or its identifier is
  not unseen
- `Chronicle.sweeps_run`: a sweep sends a deletion for each identifier that it began with, in order
- `Chronicle.mark_and_sweep`: both together, over any run
-/

namespace InventorySync

/-- The request to delete an identifier. -/
def Call.deletion (id : String) : Call := ⟨.delete, id, ""⟩

/-- Whether activity `i` is answered. -/
def Move.answers (i : Nat) : Move → Bool
  | .reply j _ => j == i
  | .event .. | .flush _ | .sweep .. | .pass _ | .land _ => false

/-! ## Who has sent what -/

theorem sentIn_ofTurn (i j : Nat) (t : Turn Activity) :
    sentIn j (Note.ofTurn i t) = if i = j then t.stage.request?.toList else [] := by
  unfold Note.ofTurn Activity.request?
  rcases t.stage.wait with v | ⟨action, r⟩ | report
  · simp [sentIn]
  · by_cases hij : i = j <;> simp [sentIn, Note.sentBy?, hij]
  · cases report <;> simp [sentIn, Note.sentBy?]

theorem sentIn_eq_nil {notes : List Note}
    (h : ∀ note ∈ notes, (∃ id, note = .marked id) ∨ ∃ call, note = .settled call) (j : Nat) :
    sentIn j notes = [] := by
  refine List.filterMap_eq_nil_iff.mpr fun note hnote => ?_
  rcases h note (List.mem_reverse.mp hnote) with ⟨_, rfl⟩ | ⟨_, rfl⟩ <;> rfl

namespace World

/-- The `notes` of a move tell of nothing that is sent in another name. -/
theorem sentIn_notes_of_ne (w : World) {m : Move} {j : Nat} (h : j ≠ m.visitor) :
    sentIn j (w.notes m) = [] := by
  rcases w.exists_notes_eq m with ⟨i, action, doc, r, -, -, hnotes⟩ | hnotes |
    ⟨t, before, hnotes, hbefore⟩
  · rw [hnotes]
    rfl
  · rw [hnotes]
    rfl
  · rw [hnotes, sentIn_append, sentIn_eq_nil hbefore, sentIn_ofTurn, if_neg (Ne.symm h),
      List.append_nil]

/-- A `Step` leaves the activities of others than its `visitor` alone. -/
theorem activity?_step_of_ne {w w' : World} {m : Move} (h : Step w m w') {j : Nat}
    (hj : j ≠ m.visitor) : w'.activity? j = w.activity? j := by
  cases h with
  | event | flush | sweep | pass | reply => exact activity?_turn_of_ne w _ hj
  | land i a c task sent => exact activity?_land c task j

/-- After a `Step` its `visitor` has an activity. -/
theorem activity?_visitor {w w' : World} {m : Move} (h : Step w m w') :
    w'.activity? m.visitor ≠ none := by
  have moved : ∀ i t, (w.turn i t).activity? i ≠ none := by
    intro i t
    rw [activity?_turn, if_pos rfl]
    exact Option.some_ne_none _
  cases h with
  | event i action doc free => exact moved i _
  | flush i free => exact moved i _
  | sweep i owner free => exact moved i _
  | pass i a landed v task waits free => exact moved i _
  | reply i a c r task sent => exact moved i _
  | land i a c task sent =>
    rw [show (Move.land i).visitor = i from rfl, activity?_land c task i, activity?_of_task task]
    exact Option.some_ne_none _

/-- What has `.arrived` in the notes of a move is its normalized event. -/
theorem normalize_of_arrived {w : World} {m : Move} {i : Nat} {action : Action} {r : Record}
    (h : .arrived i action r ∈ w.notes m) :
    ∃ doc, m = .event i action doc ∧ w.pipeline.normalizer.normalize doc = .ok r := by
  rcases w.exists_notes_eq m with ⟨i', action', doc, r', hm, hdoc, hnotes⟩ | hnotes |
    ⟨t, before, hnotes, hbefore⟩
  · rw [hnotes] at h
    obtain ⟨rfl, rfl, rfl⟩ := Note.arrived.inj (List.mem_singleton.mp h)
    exact ⟨doc, hm, hdoc⟩
  · rw [hnotes] at h
    cases h
  · rw [hnotes] at h
    rcases List.mem_append.mp h with h | h
    · unfold Note.ofTurn at h
      split at h
      · cases List.mem_singleton.mp h
      · cases List.mem_singleton.mp h
      all_goals cases h
    · rcases hbefore _ h with ⟨_, h⟩ | ⟨_, h⟩ <;> cases h

/-! ## Single activities -/

/-- After `admitted`, the identifier of an event that is no deletion is not `inactive`. -/
theorem not_mem_inactive_admitted {p : Pipeline} (hopen : p.cache.windowOpen = true) (v : Visit)
    {action : Action} (ha : action ≠ .delete) (r : Record) :
    r.identifier ∉
      ((Activity.forward (.entering v action r)).admitted p).pipeline.cache.inactive := by
  have hcache : ((Activity.forward (.entering v action r)).admitted p).pipeline.cache =
      p.cache.markActive r.identifier := by
    rw [Activity.cache_admitted_forward]
    cases action with
    | delete => exact absurd rfl ha
    | create | update => rfl
  rw [hcache, ChangeCache.mem_inactive_iff]
  rintro ⟨e, he, hfalse⟩
  rw [ChangeCache.get?_markActive, if_pos ⟨hopen, rfl⟩] at he
  obtain ⟨e', -, rfl⟩ := Option.map_eq_some_iff.mp he
  cases hfalse

/-- After a `Step` with a well-formed `.event`, the event is `.entering`. -/
theorem activity?_event {w w' : World} {i : Nat} {action : Action} {doc : Json} {r : Record}
    (h : Step w (.event i action doc) w') (hdoc : w.pipeline.normalizer.normalize doc = .ok r) :
    ∃ v, w'.activity? i = some (.forward (.entering v action r)) := by
  cases h with
  | event _ _ _ free =>
    refine ⟨(w.pipeline.enter r.identifier i).1, ?_⟩
    rw [activity?_turn, if_pos rfl]
    simp only [Activity.beginForward, Forwarding.start, hdoc, Turn.map]

/-- An event that is `.entering` stays so with every `Step`, until its identifier is not `inactive`.
-/
theorem entering_step {w w' : World} {m : Move} (hopen : w.pipeline.cache.windowOpen = true)
    (h : Step w m w') {i : Nat} {v : Visit} {action : Action} (ha : action ≠ .delete) {r : Record}
    (hv : w.activity? i = some (.forward (.entering v action r))) :
    w'.activity? i = some (.forward (.entering v action r)) ∨
      r.identifier ∉ w'.pipeline.cache.inactive := by
  by_cases hi : i = m.visitor
  · subst hi
    cases h with
    | event i action' doc free => cases (activity?_eq_none free).symm.trans hv
    | flush i free => cases (activity?_eq_none free).symm.trans hv
    | sweep i owner free => cases (activity?_eq_none free).symm.trans hv
    | pass i a landed u task waits free =>
      obtain rfl := Option.some.inj ((activity?_of_task task).symm.trans hv)
      exact Or.inr (not_mem_inactive_admitted hopen v ha r)
    | land i a d task sent => exact Or.inl ((activity?_land d task _).trans hv)
    | reply i a d reply task sent =>
      obtain rfl := Option.some.inj ((activity?_of_task task).symm.trans hv)
      cases sent
  · exact Or.inl ((activity?_step_of_ne h hi).trans hv)

/-- What `Sweeping.next` sends, and what is left after that, are the deletions of its identifiers.
-/
theorem sentIn_next (p : Pipeline) (i : Nat) (owner : Owner) (ids : List String)
    (report : SweepReport) :
    sentIn i (Note.ofTurn i ((Sweeping.next p owner ids report).map .sweep)) ++
        (ids.drop 1).map .deletion = ids.map .deletion := by
  rw [sentIn_ofTurn, if_pos rfl]
  cases ids <;> rfl

/-- `replied` brings a sweep to its next identifier, by `Sweeping.next`. -/
theorem exists_replied_sweep (p : Pipeline) (owner : Owner) (id : String) (rest : List String)
    (report : SweepReport) (reply : Reply) :
    ∃ p' report', (Activity.sweep (.sending owner id rest report)).replied p reply =
      (Sweeping.next p' owner rest report').map .sweep := by
  simp only [Activity.replied, Sweeping.replied]
  split
  · exact ⟨_, _, rfl⟩
  · exact ⟨_, _, rfl⟩

/-- A `Step` that `answers` a sweep takes one identifier from those that it has still to ask for; no
other step touches it. -/
theorem sweeping_step {w w' : World} {m : Move} (h : Step w m w') {i : Nat} {f : Sweeping}
    (hf : w.activity? i = some (.sweep f)) :
    ∃ f', w'.activity? i = some (.sweep f') ∧
      f'.stepsLeft + (if m.answers i then 1 else 0) = f.stepsLeft ∧
      sentIn i (w.notes m) ++ ((Activity.sweep f').unswept.drop 1).map .deletion =
        ((Activity.sweep f).unswept.drop 1).map .deletion := by
  by_cases hi : i = m.visitor
  · subst hi
    -- Of its own moves a sweep that goes on makes two: its request is carried out, or answered.
    cases h with
    | event i action doc free => cases (activity?_eq_none free).symm.trans hf
    | flush i free => cases (activity?_eq_none free).symm.trans hf
    | sweep i owner free => cases (activity?_eq_none free).symm.trans hf
    | pass i a landed v task waits free =>
      obtain rfl := Option.some.inj ((activity?_of_task task).symm.trans hf)
      cases f <;> cases waits
    | land i a d task sent => exact ⟨f, (activity?_land d task _).trans hf, rfl, rfl⟩
    | reply i a d reply task sent =>
      obtain rfl := Option.some.inj ((activity?_of_task task).symm.trans hf)
      match f with
      | .sending owner id rest report =>
        obtain ⟨p, report', hnext⟩ := exists_replied_sweep w.pipeline owner id rest report reply
        refine ⟨(Sweeping.next p owner rest report').stage, ?_, ?_, ?_⟩
        · show (w.turn i _).activity? i = _
          rw [activity?_turn, if_pos rfl, hnext]
          rfl
        · rw [Sweeping.stepsLeft_next]
          simp [Sweeping.stepsLeft, Move.answers, Move.visitor]
        -- What it sends now is the first of what was left.
        · simp only [notes, Move.visitor, activity?_of_task task, sentIn_append,
            sentIn_eq_nil fun _ h => Or.inr (eq_settled_of_mem_settlements h), List.nil_append,
            hnext, Sweeping.unswept_next]
          exact sentIn_next p i owner rest report'
      | .done _ => cases sent
  -- A move of somebody else is no answer to the sweep, and sends nothing in its name.
  · refine ⟨f, (activity?_step_of_ne h hi).trans hf, ?_, ?_⟩
    · have hnot : m.answers i = false := by
        cases m with
        | reply j reply => exact beq_eq_false_iff_ne.mpr (Ne.symm hi)
        | event | flush | sweep | pass | land => rfl
      rw [hnot]
      rfl
    · rw [sentIn_notes_of_ne _ hi, List.nil_append]

/-- A sweep that begins has the `inactive` identifiers to ask for, and asks for the first at once.
-/
theorem sweeping_begin {w w' : World} {i : Nat} {owner : Owner} (h : Step w (.sweep i owner) w') :
    w.activity? i = none ∧ ∃ f, w'.activity? i = some (.sweep f) ∧
      f.stepsLeft = w.pipeline.cache.inactive.length ∧
      sentIn i (w.notes (.sweep i owner)) ++ ((Activity.sweep f).unswept.drop 1).map .deletion =
        w.pipeline.cache.inactive.map .deletion := by
  cases h with
  | sweep _ _ free =>
    refine ⟨activity?_eq_none free, (Sweeping.start w.pipeline owner).stage, ?_, ?_, ?_⟩
    · rw [activity?_turn, if_pos rfl]
      rfl
    · rw [Sweeping.start, Sweeping.stepsLeft_next]
    · rw [Sweeping.start, Sweeping.unswept_next]
      exact sentIn_next _ _ _ _ _

end World

namespace Chronicle

variable {c c' : Chronicle} {m : Move}

theorem sentBy_step (h : Step c m c') (i : Nat) :
    c'.sentBy i = c.sentBy i ++ sentIn i (c.world.notes m) := by
  rw [sentBy, h.past, sentIn_append]
  rfl

/-- Whoever has not begun has sent nothing. -/
def Fair (c : Chronicle) : Prop := ∀ i, c.world.activity? i = none → c.sentBy i = []

theorem fair_step (hc : c.Fair) (h : Step c m c') : c'.Fair := by
  intro i hi
  have hother : i ≠ m.visitor := by
    rintro rfl
    exact World.activity?_visitor h.world hi
  rw [World.activity?_step_of_ne h.world hother] at hi
  rw [sentBy_step h, hc i hi, World.sentIn_notes_of_ne _ hother, List.nil_append]

/-- An event that has arrived in the window, other than a deletion, still stands at the gate, or its
identifier is not unseen. -/
def Attended (c : Chronicle) : Prop :=
  ∀ i action r, .arrived i action r ∈ c.thisWindow → action ≠ .delete →
    (∃ v, c.world.activity? i = some (.forward (.entering v action r))) ∨
      r.identifier ∉ c.world.pipeline.cache.inactive

theorem attended_step (hopen : c.world.pipeline.cache.windowOpen = true)
    (horder : c.world.Orderly) (hc : c.Attended) (h : Step c m c') : c'.Attended := by
  intro i action r harrived haction
  -- After the opening of a window nothing has arrived in it.
  rcases h.window with hnone | ⟨hclosed, hwindow⟩
  · rw [hnone] at harrived
    cases harrived
  rw [hwindow] at harrived
  rcases List.mem_append.mp harrived with hnew | hold
  · obtain ⟨doc, rfl, hdoc⟩ := World.normalize_of_arrived hnew
    exact Or.inl (World.activity?_event h.world hdoc)
  · rcases hc i action r hold haction with ⟨v, hv⟩ | hnot
    · exact (World.entering_step hopen h.world haction hv).imp_left fun hstays => ⟨v, hstays⟩
    · refine Or.inr ?_
      rw [World.cache_step horder h.world]
      exact not_mem_inactive_replay hopen hclosed hnot

/-- The sweep `f` of activity `i`, which began with `ids`: what it has sent, with what is `unswept`,
are their deletions. -/
structure Sweeps (ids : List String) (i : Nat) (c : Chronicle) (f : Sweeping) : Prop where
  activity : c.world.activity? i = some (.sweep f)
  sent : c.sentBy i ++ ((Activity.sweep f).unswept.drop 1).map .deletion = ids.map .deletion

theorem sweeps_begin {i : Nat} {owner : Owner} (hc : c.Fair) (h : Step c (.sweep i owner) c') :
    ∃ f, Sweeps c.world.pipeline.cache.inactive i c' f ∧
      f.stepsLeft = c.world.pipeline.cache.inactive.length := by
  obtain ⟨hfree, f, hf, hsteps, hsent⟩ := World.sweeping_begin h.world
  refine ⟨f, ⟨hf, ?_⟩, hsteps⟩
  rw [sentBy_step h, hc i hfree, List.nil_append]
  exact hsent

/-- A `Step` keeps `Sweeps`, and takes one from `stepsLeft` if it `answers` the sweep. -/
theorem Sweeps.step {ids : List String} {i : Nat} {f : Sweeping} (hc : Sweeps ids i c f)
    (h : Step c m c') :
    ∃ f', Sweeps ids i c' f' ∧ f'.stepsLeft + (if m.answers i then 1 else 0) = f.stepsLeft := by
  obtain ⟨f', hf', hsteps, hsent⟩ := World.sweeping_step h.world hc.activity
  refine ⟨f', ⟨hf', ?_⟩, hsteps⟩
  rw [sentBy_step h, List.append_assoc, hsent]
  exact hc.sent

/-- A run keeps `Sweeps`, and takes from `stepsLeft` as many as it `answers` the sweep. -/
theorem sweeps_run {ids : List String} {i : Nat} {f : Sweeping} {moves : List Move}
    (hc : Sweeps ids i c f) (h : c.run? moves = some c') :
    ∃ f', Sweeps ids i c' f' ∧ f'.stepsLeft + moves.countP (Move.answers i) = f.stepsLeft := by
  induction moves generalizing c f with
  | nil =>
    obtain rfl := Option.some.inj h
    exact ⟨f, hc, rfl⟩
  | cons m moves ih =>
    obtain ⟨d, hd, h⟩ := run?_cons h
    obtain ⟨f₁, hf₁, hsteps₁⟩ := hc.step (step_of_next? hd)
    obtain ⟨f₂, hf₂, hsteps₂⟩ := ih hf₁ h
    refine ⟨f₂, hf₂, ?_⟩
    rw [List.countP_cons]
    omega

/-! ## Mark and sweep -/

/-- What every run from a fresh start with an open window keeps: the cache is `Recorded`, and the
past is `Fair` and `Attended`. -/
structure Kept (cache : ChangeCache) (c : Chronicle) : Prop extends Recorded cache c where
  fair : c.Fair
  attended : c.Attended

theorem kept_start {p : Pipeline} (held : Holdings) (gate : p.gate = .empty) :
    Kept p.cache (start p held) where
  toRecorded := recorded_start held gate
  fair _ _ := rfl
  attended _ _ _ h := by cases h

theorem kept_step {cache : ChangeCache} (hopen : cache.windowOpen = true) (hc : Kept cache c)
    (h : Step c m c') : Kept cache c' where
  toRecorded := recorded_step hc.toRecorded h
  fair := fair_step hc.fair h
  attended := by
    have hwindow : c.world.pipeline.cache.windowOpen = true := by
      rw [hc.cache]
      exact windowOpen_replay hopen c.past
    exact attended_step hwindow hc.orderly hc.attended h

/-- After `init` and `openWindow`, no entry is `active`. -/
theorem active_init {c : ChangeCache} {remote : List (String × String)} {id : String}
    {e : CacheEntry} (h : (c.init remote).openWindow.get? id = some e) : e.active = false := by
  rw [ChangeCache.get?_openWindow, ChangeCache.get?_init_eq] at h
  obtain ⟨hash, -, rfl⟩ := Option.map_eq_some_iff.mp h
  rfl

/-- Events, flushes and sweeps in any interleaving and with any answers, from a fresh start with the
window open. A sweep takes the identifiers that are `inactive` when it begins. It asks for the
deletion of each of them once, in increasing order and of nothing else, and is over after as many
answers. Unseen are the identifiers that are cached and that no note of `thisWindow` `Shows`: no
event other than a deletion passed the gate while they were cached, and no creation or update was
confirmed. So an event other than a deletion that `.arrived` in the window and has been dealt with
when the sweep begins keeps the sweep from its identifier, whatever became of it. -/
theorem mark_and_sweep {p : Pipeline} {c : ChangeCache} {remote : List (String × String)}
    (cache : p.cache = (c.init remote).openWindow) (gate : p.gate = .empty) (held : Holdings)
    {moves : List Move} {before : Chronicle} (run : (start p held).run? moves = some before)
    {i : Nat} {owner : Owner} {begun : Chronicle}
    (begins : before.next? (.sweep i owner) = some begun)
    {later : List Move} {after : Chronicle} (goesOn : begun.run? later = some after) :
    let ids := before.world.pipeline.cache.inactive
    ids.Pairwise (· < ·) ∧
    after.sentBy i <+: ids.map .deletion ∧
    ((∃ report, after.world.activity? i = some (.sweep (.done report))) →
      after.sentBy i = ids.map .deletion) ∧
    ((∃ report, after.world.activity? i = some (.sweep (.done report))) ↔
      later.countP (Move.answers i) = ids.length) ∧
    (∀ id, id ∈ ids ↔ (before.world.pipeline.cache.get? id).isSome ∧
      ∀ note ∈ before.thisWindow, ¬ note.Shows id) ∧
    ∀ j action r outcome, .arrived j action r ∈ before.thisWindow → action ≠ .delete →
      before.world.activity? j = some (.forward (.done outcome)) →
      .deletion r.identifier ∉ after.sentBy i := by
  intro ids
  have hopen : p.cache.windowOpen = true := by rw [cache]; rfl
  have hkept : Kept p.cache before :=
    run?_preserves (fun hc h => kept_step hopen hc h) (kept_start held gate) run
  have hfresh : ∀ {id e}, p.cache.get? id = some e → e.active = false := by
    rw [cache]
    exact active_init
  -- The sweep, from its beginning to where it stands now.
  obtain ⟨f₀, hbegun, hlength⟩ := sweeps_begin hkept.fair (step_of_next? begins)
  obtain ⟨f, hafter, hsteps⟩ := sweeps_run hbegun goesOn
  have htotal : f.stepsLeft + later.countP (Move.answers i) = ids.length := hsteps.trans hlength
  have hfirst : after.sentBy i <+: ids.map .deletion := ⟨_, hafter.sent⟩
  refine ⟨?_, hfirst, ?_, ?_, hkept.mem_inactive_iff hopen hfresh, ?_⟩
  · exact Std.ExtTreeMap.ordered_keys.imp compare_lt_iff_lt.mp
  · rintro ⟨report, hdone⟩
    obtain rfl := Activity.sweep.inj (Option.some.inj (hafter.activity.symm.trans hdone))
    exact (List.append_nil _).symm.trans hafter.sent
  · rw [hafter.activity]
    constructor
    · rintro ⟨report, hdone⟩
      obtain rfl := Activity.sweep.inj (Option.some.inj hdone)
      simp only [Sweeping.stepsLeft] at htotal
      omega
    · intro hall
      cases f with
      | done report => exact ⟨report, rfl⟩
      | sending owner id rest report =>
        simp only [Sweeping.stepsLeft] at htotal
        omega
  · intro j action r outcome harrived haction hdone hmem
    -- The event is past the gate, so its identifier is not among those of the sweep.
    rcases hkept.attended j action r harrived haction with ⟨v, hv⟩ | hnot
    · cases hv.symm.trans hdone
    · obtain ⟨id, hid, heq⟩ := List.mem_map.mp (hfirst.subset hmem)
      obtain rfl : id = r.identifier := (Call.mk.inj heq).2.1
      exact hnot hid

/-- Three objects of the inventory, none of them seen. -/
def unseenStart : Chronicle :=
  start ⟨⟨.cluster "c", .passthrough⟩,
    (ChangeCache.empty.init [("c", "old"), ("a", "h"), ("b", "old")]).openWindow,
    .empty, .empty, 0⟩ ∅

/-- One of them is seen with new content, and the request for it fails. -/
def queuedUpdate : List Move :=
  [.event 1 .update (sampleDoc "b" "new"), .pass 1, .reply 1 (.status 503)]

/-- The sweep of the other two, of which the second fails. -/
def twoAnswers : List Move := [.land 0, .reply 0 (.status 200), .reply 0 (.status 503)]

theorem mark_and_sweep_two : ∃ before begun after,
    unseenStart.run? queuedUpdate = some before ∧
    before.next? (.sweep 0 (.cluster "c")) = some begun ∧ begun.run? twoAnswers = some after ∧
    before.world.activity? 1 = some (.forward (.done .queued)) ∧
    after.sentBy 0 = [.deletion "a", .deletion "c"] := by
  have hrun : ((unseenStart.run? queuedUpdate).bind fun before =>
      (before.next? (.sweep 0 (.cluster "c"))).bind fun begun =>
        (begun.run? twoAnswers).map fun _ =>
          (before.world.activity? 1, before.world.pipeline.cache.inactive)) =
      some (some (.forward (.done .queued)), ["a", "c"]) := by decide +kernel
  obtain ⟨before, hbefore, hrun⟩ := Option.bind_eq_some_iff.mp hrun
  obtain ⟨begun, hbegun, hrun⟩ := Option.bind_eq_some_iff.mp hrun
  obtain ⟨after, hafter, hend⟩ := Option.map_eq_some_iff.mp hrun
  obtain ⟨hqueued, hinactive⟩ := Prod.mk.inj hend
  obtain ⟨-, -, hall, hover, -⟩ := mark_and_sweep rfl rfl ∅ hbefore hbegun hafter
  have hanswers : twoAnswers.countP (Move.answers 0) =
      before.world.pipeline.cache.inactive.length := by
    rw [hinactive]
    rfl
  have hsent := hall (hover.mpr hanswers)
  rw [hinactive] at hsent
  exact ⟨before, begun, after, hbefore, hbegun, hafter, hqueued, hsent⟩

end Chronicle
end InventorySync
