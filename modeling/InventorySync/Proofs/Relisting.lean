import InventorySync.Proofs.MarkAndSweep
import InventorySync.Proofs.Strides

/-!
# A watcher beside the sweeps

A watcher lists the objects of a cluster and hands each to the pipeline, while sweeps go by the
marks that this leaves. The opening of a window asks the watcher to list again, but no sweep waits
for that: an object is spared once a list that was begun in the window has been completed with it.

## Key results

- `Agent.watched_step`: the objects of a list begun in this window are still to be handled, or are
  not unseen
- `Agent.spared_of_listed`: no deletion of a listed object by a sweep that begins after a list was
  begun and completed in its window
- `Agent.deleted_before_list`: a run in which a sweep comes first
-/

namespace InventorySync

/-! ## Watchers -/

namespace PagedWatcher

/-- The objects of the current page that are still to be handled. -/
def todo (w : PagedWatcher) : List Json :=
  match w.stage with
  | .storing object rest _ => object :: rest
  | .idle | .asking _ | .opening | .listening | .delivering .. | .resting _ => []

theorem todo_eq_nil_of_wait {w : PagedWatcher} (h : w.wait = none) : w.todo = [] := by
  unfold todo
  split
  next object rest page hstage =>
    simp only [wait, hstage] at h
    cases h
  all_goals rfl

/-- After `store`, the objects of the page are `todo`; only an empty rest of a page adds to `lists`.
-/
theorem todo_store (w : PagedWatcher) (s : Signals) (page : ListPage) (rest : List Json) :
    (w.store s page rest).todo = rest ∧
      ((w.store s page rest).lists = w.lists ∨ rest = []) := by
  cases rest with
  | cons object rest => exact ⟨rfl, Or.inl rfl⟩
  | nil =>
    refine ⟨?_, Or.inr rfl⟩
    simp only [store]
    split
    · unfold ask
      split <;> rfl
    · rfl

theorem todo_listen (w : PagedWatcher) (s : Signals) :
    (w.listen s).todo = [] ∧ (w.listen s).lists = w.lists := by
  unfold listen
  split
  · exact ⟨rfl, rfl⟩
  · split
    · exact ⟨rfl, rfl⟩
    · exact ⟨rfl, rfl⟩

theorem todo_begin (w : PagedWatcher) (s : Signals) :
    (w.begin s).todo = [] ∧ (w.begin s).lists = w.lists := by
  unfold begin
  split
  next => exact ⟨rfl, rfl⟩
  next hgoes =>
    split
    next => exact ⟨rfl, rfl⟩
    next =>
      unfold ask
      split <;> exact ⟨rfl, rfl⟩
    all_goals exact ⟨rfl, rfl⟩

theorem todo_received (w : PagedWatcher) (s : Signals) (event : StreamEvent) :
    (w.received s event).todo = [] ∧ (w.received s event).lists = w.lists := by
  have hadvance : ∀ version, (w.advance version).lists = w.lists := by
    intro version
    unfold advance
    split <;> rfl
  cases event with
  | added object | modified object | deleted object => exact ⟨rfl, hadvance _⟩
  | bookmark version =>
    obtain ⟨htodo, hlists⟩ := todo_listen (w.advance version) s
    exact ⟨htodo, hlists.trans (hadvance version)⟩
  | refused | failed | closed => exact ⟨rfl, rfl⟩

/-- `interrupted` leaves `todo` and `lists` alone: a look at the signals interrupts no object. -/
theorem todo_interrupted (w : PagedWatcher) (s : Signals) :
    (w.interrupted s).todo = w.todo ∧ (w.interrupted s).lists = w.lists := by
  have hstop : (if s.cancelled = true then w.stop else w).lists = w.lists := by
    split <;> rfl
  unfold interrupted
  split
  case h_4 hstage =>
    obtain ⟨htodo, hlists⟩ := w.todo_listen s
    exact ⟨htodo.trans (by simp only [todo, hstage]), hlists⟩
  case h_1 hstage | h_2 hstage | h_3 hstage =>
    refine ⟨?_, hstop⟩
    split
    · simp only [todo, hstage, stop, settle]
    · rfl
  all_goals exact ⟨rfl, rfl⟩

/-- `answered` leaves a watcher alone that waits for its `.handle`, unless the answer is `.handled`.
-/
theorem answered_of_handle {w : PagedWatcher} (s : Signals) {x : Answer} (hx : x ≠ .handled)
    {action : Action} {object : Json} (h : w.wait = some (.handle action object)) :
    w.answered s x = w := by
  cases hstage : w.stage with
  | storing | delivering =>
    cases x with
    | handled => exact absurd rfl hx
    | page | opened | event | rested => simp only [answered, hstage]
  | idle | asking | opening | listening | resting =>
    simp only [wait, hstage] at h
    cases h

theorem interrupted_of_handle {w : PagedWatcher} (s : Signals) {action : Action} {object : Json}
    (h : w.wait = some (.handle action object)) : w.interrupted s = w := by
  cases hstage : w.stage with
  | storing | delivering => simp only [interrupted, hstage]
  | idle | asking | opening | listening | resting =>
    simp only [wait, hstage] at h
    cases h

theorem todo_rest (w : PagedWatcher) : w.rest.todo = [] ∧ w.rest.lists = w.lists := by
  rw [rest_eq]
  exact ⟨rfl, rfl⟩

/-- `answered` leaves `todo` and `lists` alone for every answer of the source but a `.page`. -/
theorem todo_answered {w : PagedWatcher} (s : Signals) {x : Answer} (hx : x ≠ .handled)
    (hpage : ∀ token page, w.stage = .asking token → x ≠ .page (some page)) :
    (w.answered s x).todo = w.todo ∧ (w.answered s x).lists = w.lists := by
  have hnone : ∀ {v : PagedWatcher}, w.todo = [] → v.todo = [] ∧ v.lists = w.lists →
      v.todo = w.todo ∧ v.lists = w.lists := fun hw hv => ⟨hv.1.trans hw.symm, hv.2⟩
  -- Whoever waits for the source has nothing to hand over, before the answer or after it.
  cases hstage : w.stage with
  | asking token =>
    have htodo : w.todo = [] := by simp only [todo, hstage]
    simp only [answered, hstage]
    cases x with
    | page page =>
      cases page with
      | none => exact hnone htodo (todo_rest _)
      | some page => exact absurd rfl (hpage token page hstage)
    | handled | opened | event | rested => exact ⟨rfl, rfl⟩
  | opening =>
    have htodo : w.todo = [] := by simp only [todo, hstage]
    simp only [answered, hstage]
    cases x with
    | opened isOpen =>
      cases isOpen with
      | false => exact hnone htodo (todo_rest _)
      | true => exact hnone htodo (todo_listen _ s)
    | handled | page | event | rested => exact ⟨rfl, rfl⟩
  | listening =>
    have htodo : w.todo = [] := by simp only [todo, hstage]
    simp only [answered, hstage]
    cases x with
    | event event => exact hnone htodo (w.todo_received s event)
    | handled | page | opened | rested => exact ⟨rfl, rfl⟩
  | resting delay =>
    have htodo : w.todo = [] := by simp only [todo, hstage]
    simp only [answered, hstage]
    cases x with
    | rested => exact hnone htodo ⟨rfl, rfl⟩
    | handled | page | opened | event => exact ⟨rfl, rfl⟩
  -- Whoever waits for its handler is not answered by the source.
  | storing object rest page =>
    have hwait : w.wait = some (.handle .create object) := by simp only [wait, hstage]
    rw [answered_of_handle s hx hwait]
    exact ⟨rfl, rfl⟩
  | delivering action object =>
    have hwait : w.wait = some (.handle action object) := by simp only [wait, hstage]
    rw [answered_of_handle s hx hwait]
    exact ⟨rfl, rfl⟩
  | idle => simp only [answered, hstage, and_self]

end PagedWatcher

/-! ## Lists in a history -/

namespace Chronicle

/-- Something happens beside the world. -/
def note (c : Chronicle) (n : Note) : Chronicle := { c with past := n :: c.past }

/-- Since the window was opened, a list of these objects was begun and completed. -/
def Lists (c : Chronicle) (objects : List Json) : Prop :=
  [.listed objects, .listBegan].Sublist c.thisWindow

/-- The object's identifier, if it has one, is not unseen. -/
def Spares (c : Chronicle) (doc : Json) : Prop :=
  ∀ r, c.world.pipeline.normalizer.normalize doc = .ok r →
    r.identifier ∉ c.world.pipeline.cache.inactive

end Chronicle

namespace World

@[simp] theorem normalizer_step {w w' : World} {m : Move} (h : Step w m w') :
    w'.pipeline.normalizer = w.pipeline.normalizer := by
  cases h with
  | event => exact Activity.normalizer_beginForward _ _ _ _
  | flush => exact Activity.normalizer_beginFlush _ _
  | sweep => exact Activity.normalizer_beginSweep _ _
  | pass => exact Activity.normalizer_admitted _ _
  | land => rfl
  | reply => exact Activity.normalizer_replied _ _ _

/-- The `notes` of a move of the world are about no list. -/
theorem not_list_of_mem_notes {w : World} {m : Move} {note : Note} (h : note ∈ w.notes m) :
    note ≠ .listBegan ∧ ∀ objects, note ≠ .listed objects := by
  rcases w.exists_notes_eq m with ⟨i, action, doc, r, -, -, hnotes⟩ | hnotes |
    ⟨t, before, hnotes, hbefore⟩
  · rw [hnotes] at h
    obtain rfl := List.mem_singleton.mp h
    exact ⟨nofun, nofun⟩
  · rw [hnotes] at h
    cases h
  · rw [hnotes] at h
    rcases List.mem_append.mp h with h | h
    · unfold Note.ofTurn at h
      split at h
      · obtain rfl := List.mem_singleton.mp h
        exact ⟨nofun, nofun⟩
      · obtain rfl := List.mem_singleton.mp h
        exact ⟨nofun, nofun⟩
      all_goals cases h
    · rcases hbefore note h with ⟨_, rfl⟩ | ⟨_, rfl⟩ <;> exact ⟨nofun, nofun⟩

end World

namespace Chronicle

/-- What stays as it was with everything that happens in a window: what `.arrived`, and which
objects `Spares` holds of. A list in the new window is one in the old. -/
structure Continues (c c' : Chronicle) : Prop where
  began : .listBegan ∈ c'.thisWindow → .listBegan ∈ c.thisWindow
  arrived : ∀ {i action r}, .arrived i action r ∈ c.thisWindow → .arrived i action r ∈ c'.thisWindow
  lists : ∀ {objects}, c'.Lists objects → c.Lists objects
  spares : ∀ {doc}, c.Spares doc → c'.Spares doc

theorem sublist_of_append {a b : Note} {notes past : List Note} (h : a ∉ notes)
    (hsub : [a, b].Sublist (notes ++ past)) : [a, b].Sublist past := by
  induction notes with
  | nil => exact hsub
  | cons note notes ih =>
    obtain ⟨hne, hrest⟩ := not_or.mp (h ∘ List.mem_cons.mpr)
    cases hsub with
    | cons _ hsub => exact ih hrest hsub
    | cons_cons _ hsub => exact absurd rfl hne

/-- After a `Step`, `thisWindow` is empty, or it `Continues` the old one. -/
theorem continues_step {c c' : Chronicle} {m : Move} {cache : ChangeCache}
    (hopen : cache.windowOpen = true) (hc : Recorded cache c) (h : Step c m c') :
    c'.thisWindow = [] ∨ Continues c c' := by
  rcases h.window with hnone | ⟨hclosed, hwindow⟩
  · exact Or.inl hnone
  refine Or.inr ⟨fun hbegan => ?_, fun harrived => ?_, fun hlists => ?_, fun {doc} hdoc r hr => ?_⟩
  · rw [hwindow] at hbegan
    refine (List.mem_append.mp hbegan).resolve_left fun hnote => ?_
    exact (World.not_list_of_mem_notes hnote).1 rfl
  · rw [hwindow]
    exact List.mem_append_right _ harrived
  · unfold Lists at hlists
    rw [hwindow] at hlists
    exact sublist_of_append (fun hnote => (World.not_list_of_mem_notes hnote).2 _ rfl) hlists
  · have hwindowOpen : c.world.pipeline.cache.windowOpen = true := by
      rw [hc.cache]
      exact windowOpen_replay hopen c.past
    rw [World.normalizer_step h.world] at hr
    rw [World.cache_step hc.orderly h.world]
    exact not_mem_inactive_replay hwindowOpen hclosed (hdoc r hr)

end Chronicle

/-! ## The agent -/

/-- A `PagedWatcher` that hands its objects to the pipeline, beside everything else that shares it.
-/
structure Agent where
  chronicle : Chronicle
  watcher : PagedWatcher
  signals : Signals
  /-- The activity that handles an object of the watcher. -/
  handling : Option Nat
  /-- The objects of the latest list, as far as its pages have come. -/
  received : List Json

/-- What can happen next to an `Agent`. -/
inductive Deed where
  /-- A move of the world; if it opens a window, the watcher is asked to start over. -/
  | work (m : Move)
  /-- The watcher begins its next step. -/
  | begin
  /-- The source answers the watcher, with a page, a stream or a failure, or a delay is over. -/
  | answer (x : Answer)
  /-- The watcher looks at the signals. -/
  | look
  /-- The watcher's object becomes event `i`. -/
  | hand (i : Nat)
  /-- That event has been dealt with. -/
  | handled
  /-- The watcher is asked to stop. -/
  | cancel

namespace Agent

/-- Nothing has happened yet; the watcher listens for requests to start over. -/
def start (p : Pipeline) (held : Holdings) (pageSize : Nat) (backoff : Backoff) : Agent :=
  ⟨.start p held, .new pageSize backoff (some 0), {}, none, []⟩

/-- The opening of a window is a request to start over. -/
def hear (s : Signals) (notes : List Note) : Signals :=
  { s with resyncs := s.resyncs + notes.countP Note.isOpened }

/-- The watcher has gone on; if this completed a list, it is noted. -/
def goOn (a : Agent) (w : PagedWatcher) : Agent :=
  { a with
    watcher := w
    chronicle :=
      if w.lists = a.watcher.lists then a.chronicle else a.chronicle.note (.listed a.received) }

/-- The watcher begins its next step; if this is a list, it is noted. -/
def begin (a : Agent) : Agent :=
  let w := a.watcher.begin a.signals
  if w.stage = .asking none then
    { a with watcher := w, chronicle := a.chronicle.note .listBegan, received := [] }
  else a.goOn w

/-- The objects that come with an answer. -/
def objects (w : PagedWatcher) (x : Answer) : List Json :=
  match w.stage, x with
  | .asking _, .page (some page) => page.items
  | _, _ => []

/-- The watcher is answered. -/
def answer (a : Agent) (x : Answer) : Agent :=
  { a with received := a.received ++ objects a.watcher x }.goOn (a.watcher.answered a.signals x)

/-- What can happen next, and what it does. -/
def next? (a : Agent) : Deed → Option Agent
  | .work m => (a.chronicle.next? m).map fun c =>
    { a with chronicle := c, signals := hear a.signals (a.chronicle.world.notes m) }
  | .begin => if a.watcher.wait = none then some a.begin else none
  | .answer x => if x = .handled then none else some (a.answer x)
  | .look => some (a.goOn (a.watcher.interrupted a.signals))
  | .hand i =>
    match a.watcher.wait, a.handling with
    | some (.handle action object), none =>
      (a.chronicle.next? (.event i action object)).map fun c =>
        { a with chronicle := c, handling := some i }
    | _, _ => none
  | .handled =>
    match a.handling.bind a.chronicle.world.activity? with
    | some (.forward (.done _)) =>
      some { a.goOn (a.watcher.answered a.signals .handled) with handling := none }
    | _ => none
  | .cancel => some { a with signals.cancelled := true }

/-- The agent after some of this has happened, if it can. -/
def run? (a : Agent) (deeds : List Deed) : Option Agent := deeds.foldlM next? a

/-- What happens next, as `next?` has it. -/
inductive Step (a : Agent) : Deed → Agent → Prop
  | work (m c) (step : Chronicle.Step a.chronicle m c) :
    Step a (.work m)
      { a with chronicle := c, signals := hear a.signals (a.chronicle.world.notes m) }
  | begin (idle : a.watcher.wait = none) : Step a .begin a.begin
  | answer (x) (other : x ≠ .handled) : Step a (.answer x) (a.answer x)
  | look : Step a .look (a.goOn (a.watcher.interrupted a.signals))
  | hand (i action object c) (waits : a.watcher.wait = some (.handle action object))
    (free : a.handling = none) (step : Chronicle.Step a.chronicle (.event i action object) c) :
    Step a (.hand i) { a with chronicle := c, handling := some i }
  | handled (i outcome) (busy : a.handling = some i)
    (done : a.chronicle.world.activity? i = some (.forward (.done outcome))) :
    Step a .handled { a.goOn (a.watcher.answered a.signals .handled) with handling := none }
  | cancel : Step a .cancel { a with signals.cancelled := true }

theorem step_of_next? {a b : Agent} {d : Deed} (h : a.next? d = some b) : Step a d b := by
  -- What the guard of each deed asks for is what the step says of the agent before it.
  cases d with
  | work m =>
    obtain ⟨c, hc, rfl⟩ := Option.map_eq_some_iff.mp h
    exact .work m c (Chronicle.step_of_next? hc)
  | begin =>
    simp only [next?] at h
    split at h
    next hidle =>
      obtain rfl := Option.some.inj h
      exact .begin hidle
    next => cases h
  | answer x =>
    simp only [next?] at h
    split at h
    next => cases h
    next hother =>
      obtain rfl := Option.some.inj h
      exact .answer x hother
  | look =>
    obtain rfl := Option.some.inj h
    exact .look
  | hand i =>
    simp only [next?] at h
    split at h
    next action object hwaits hfree =>
      obtain ⟨c, hc, rfl⟩ := Option.map_eq_some_iff.mp h
      exact .hand i action object c hwaits hfree (Chronicle.step_of_next? hc)
    next => cases h
  | handled =>
    simp only [next?] at h
    split at h
    next outcome hdone =>
      -- The activity that is done is the one that has the object in hand.
      obtain rfl := Option.some.inj h
      obtain ⟨i, hbusy, hdone⟩ := Option.bind_eq_some_iff.mp hdone
      exact .handled i outcome hbusy hdone
    next => cases h
  | cancel =>
    obtain rfl := Option.some.inj h
    exact .cancel

/-- What every `Step` keeps, `run?` keeps. -/
theorem run?_preserves {P : Agent → Prop} (keeps : ∀ {a b d}, P a → Step a d b → P b)
    {deeds : List Deed} {a b : Agent} (ha : P a) (h : a.run? deeds = some b) : P b :=
  foldlM_preserves (K := fun _ => True) (fun _ ha h => keeps ha (step_of_next? h))
    (fun _ _ => trivial) ha h

/-! ## Sweeps beside the watcher -/

/-- A `Step` of the agent makes a `Chronicle.Step`, or adds at most a note about a list. -/
theorem chronicle_step {a b : Agent} {d : Deed} (h : Step a d b) :
    (∃ m, Chronicle.Step a.chronicle m b.chronicle) ∨ b.chronicle = a.chronicle ∨
      b.chronicle = a.chronicle.note .listBegan ∨
      ∃ objects, b.chronicle = a.chronicle.note (.listed objects) := by
  -- Going on notes nothing but a list that is over.
  have hgoOn : ∀ (a' : Agent) w, a'.chronicle = a.chronicle →
      (a'.goOn w).chronicle = a.chronicle ∨
        ∃ objects, (a'.goOn w).chronicle = a.chronicle.note (.listed objects) := by
    intro a' w hsame
    simp only [goOn, hsame]
    split
    · exact Or.inl rfl
    · exact Or.inr ⟨_, rfl⟩
  cases h with
  | work m c step => exact Or.inl ⟨m, step⟩
  | hand i action object c waits free step => exact Or.inl ⟨_, step⟩
  | begin idle =>
    unfold begin
    dsimp only
    split
    · exact Or.inr (Or.inr (Or.inl rfl))
    · exact Or.inr ((hgoOn a _ rfl).imp_right Or.inr)
  | answer x other =>
    exact Or.inr ((hgoOn { a with received := a.received ++ objects a.watcher x } _ rfl).imp_right
      Or.inr)
  | look => exact Or.inr ((hgoOn a _ rfl).imp_right Or.inr)
  | handled i outcome busy done => exact Or.inr ((hgoOn a _ rfl).imp_right Or.inr)
  | cancel => exact Or.inr (Or.inl rfl)

theorem normalizer_step {a b : Agent} {d : Deed} (h : Step a d b) :
    b.chronicle.world.pipeline.normalizer = a.chronicle.world.pipeline.normalizer := by
  rcases chronicle_step h with ⟨m, hstep⟩ | hsame | hsame | ⟨objects, hsame⟩
  · exact World.normalizer_step hstep.world
  · rw [hsame]
  · rw [hsame, Chronicle.note]
  · rw [hsame, Chronicle.note]

/-- A `Step` of the agent keeps `Chronicle.Sweeps`: a sweep sends nothing but the deletions of its
identifiers. -/
theorem sweeps_step {ids : List String} {i : Nat} {a b : Agent} {d : Deed} (h : Step a d b)
    (ha : ∃ f, Chronicle.Sweeps ids i a.chronicle f) :
    ∃ f, Chronicle.Sweeps ids i b.chronicle f := by
  obtain ⟨f, hf⟩ := ha
  rcases chronicle_step h with ⟨m, hstep⟩ | hsame | hsame | ⟨objects, hsame⟩
  · obtain ⟨f', hf', -⟩ := hf.step hstep
    exact ⟨f', hf'⟩
  · exact ⟨f, hsame ▸ hf⟩
  -- A note about a list is no request.
  all_goals
    rw [hsame]
    refine ⟨f, hf.activity, ?_⟩
    have hsent : ∀ n, n.sentBy? i = none →
        (a.chronicle.note n).sentBy i = a.chronicle.sentBy i := by
      intro n hn
      show sentIn i ([n] ++ a.chronicle.past) = _
      rw [sentIn_append]
      simp [sentIn, hn, Chronicle.sentBy]
    rw [hsent _ rfl]
    exact hf.sent

/-! ## What a list leaves behind -/

open Chronicle (Kept Recorded Continues)

theorem kept_note {cache : ChangeCache} {c : Chronicle} (hc : Kept cache c) {n : Note}
    (hn : n = .listBegan ∨ ∃ objects, n = .listed objects) : Kept cache (c.note n) := by
  have hwindow : (c.note n).thisWindow = n :: c.thisWindow := by
    rcases hn with rfl | ⟨objects, rfl⟩ <;> rfl
  refine ⟨⟨hc.orderly, ?_⟩, fun i hi => ?_, fun i action r harrived => ?_⟩
  · rcases hn with rfl | ⟨objects, rfl⟩ <;> exact hc.cache
  · have hnone := hc.fair i hi
    show sentIn i ([n] ++ c.past) = []
    rw [sentIn_append, show sentIn i c.past = [] from hnone]
    rcases hn with rfl | ⟨objects, rfl⟩ <;> rfl
  · rw [hwindow] at harrived
    refine hc.attended i action r ((List.mem_cons.mp harrived).resolve_left ?_)
    rcases hn with rfl | ⟨objects, rfl⟩ <;> exact nofun

/-- What every `Step` of the agent keeps. The event that the watcher waits for has `.arrived` in
this window, if a list was begun in it; and the objects of such a list are still `todo`, or `Spares`
holds of them. -/
structure Watched (cache : ChangeCache) (a : Agent) : Prop where
  kept : Kept cache a.chronicle
  handling : ∀ i, a.handling = some i → ∃ action object,
    a.watcher.wait = some (.handle action object) ∧
      (.listBegan ∈ a.chronicle.thisWindow → ∀ r,
        a.chronicle.world.pipeline.normalizer.normalize object = .ok r →
          .arrived i action r ∈ a.chronicle.thisWindow)
  received : .listBegan ∈ a.chronicle.thisWindow → ∀ doc ∈ a.received,
    doc ∈ a.watcher.todo ∨ a.chronicle.Spares doc
  listed : ∀ objects, a.chronicle.Lists objects → ∀ doc ∈ objects, a.chronicle.Spares doc

theorem watched_start {p : Pipeline} (gate : p.gate = .empty) (held : Holdings) (pageSize : Nat)
    (backoff : Backoff) : Watched p.cache (start p held pageSize backoff) where
  kept := Chronicle.kept_start held gate
  handling i h := by cases h
  received h := by cases h
  listed objects h := by cases h

/-- `goOn` keeps `Watched`. If it completes a list, `Spares` holds of every object in it. -/
theorem Watched.goOn {cache : ChangeCache} {a : Agent} {w : PagedWatcher}
    (kept : Kept cache a.chronicle)
    (handling : ∀ i, a.handling = some i → ∃ action object,
      w.wait = some (.handle action object) ∧
        (.listBegan ∈ a.chronicle.thisWindow → ∀ r,
          a.chronicle.world.pipeline.normalizer.normalize object = .ok r →
            .arrived i action r ∈ a.chronicle.thisWindow))
    (received : .listBegan ∈ a.chronicle.thisWindow → ∀ doc ∈ a.received,
      doc ∈ w.todo ∨ a.chronicle.Spares doc)
    (listed : ∀ objects, a.chronicle.Lists objects → ∀ doc ∈ objects, a.chronicle.Spares doc)
    (hlists : w.lists = a.watcher.lists ∨ w.todo = []) : Watched cache (a.goOn w) := by
  by_cases hsame : w.lists = a.watcher.lists
  · have hgoOn : a.goOn w = { a with watcher := w } := by simp only [Agent.goOn, hsame, if_true]
    rw [hgoOn]
    exact ⟨kept, handling, received, listed⟩
  · have hgoOn : a.goOn w =
        { a with watcher := w, chronicle := a.chronicle.note (.listed a.received) } := by
      simp only [Agent.goOn, if_neg hsame]
    have hdone := hlists.resolve_left hsame
    have hbegan : .listBegan ∈ (a.chronicle.note (.listed a.received)).thisWindow →
        .listBegan ∈ a.chronicle.thisWindow :=
      fun h => (List.mem_cons.mp h).resolve_left nofun
    rw [hgoOn]
    refine ⟨kept_note kept (Or.inr ⟨_, rfl⟩), fun i hi => ?_, fun h => received (hbegan h),
      fun objects hobjects doc hdoc => ?_⟩
    · obtain ⟨action, object, hwait, harrived⟩ := handling i hi
      exact ⟨action, object, hwait, fun h r hr => List.mem_cons_of_mem _ (harrived (hbegan h) r hr)⟩
    · -- Of the list that is completed now nothing is left to be handled.
      cases hobjects with
      | cons _ hobjects => exact listed objects hobjects doc hdoc
      | cons_cons _ hbegun =>
        rcases received (List.singleton_sublist.mp hbegun) doc hdoc with htodo | hspared
        · rw [hdone] at htodo
          cases htodo
        · exact hspared

/-- A `Chronicle.Step` keeps `Watched`. A new window knows of no list yet; in the same window
nothing is lost. -/
theorem Watched.work {cache : ChangeCache} (hopen : cache.windowOpen = true) {a : Agent}
    (ha : Watched cache a) {m : Move} {c : Chronicle} (h : Chronicle.Step a.chronicle m c)
    (signals : Signals) {handling : Option Nat}
    (hhandling : ∀ i, handling = some i → ∃ action object,
      a.watcher.wait = some (.handle action object) ∧
        (.listBegan ∈ c.thisWindow → ∀ r,
          c.world.pipeline.normalizer.normalize object = .ok r →
            .arrived i action r ∈ c.thisWindow)) :
    Watched cache { a with chronicle := c, signals, handling } := by
  have hkept := Chronicle.kept_step hopen ha.kept h
  rcases Chronicle.continues_step hopen ha.kept.toRecorded h with hnone | hsame
  · refine ⟨hkept, hhandling, fun hbegan => ?_, fun objects hobjects => ?_⟩
    · change _ ∈ c.thisWindow at hbegan
      rw [hnone] at hbegan
      cases hbegan
    · change List.Sublist _ c.thisWindow at hobjects
      rw [hnone] at hobjects
      cases hobjects
  · refine ⟨hkept, hhandling, fun hbegan doc hdoc => ?_, fun objects hobjects doc hdoc => ?_⟩
    · exact (ha.received (hsame.began hbegan) doc hdoc).imp_right hsame.spares
    · exact hsame.spares (ha.listed objects (hsame.lists hobjects) doc hdoc)

/-- An event that is `.done` has spared its object. -/
theorem Watched.spares {cache : ChangeCache} {a : Agent} (ha : Watched cache a) {i : Nat}
    {outcome : Forwarded} (busy : a.handling = some i)
    (done : a.chronicle.world.activity? i = some (.forward (.done outcome))) {object : Json}
    (hwait : a.watcher.wait = some (.handle .create object))
    (hbegan : .listBegan ∈ a.chronicle.thisWindow) : a.chronicle.Spares object := by
  intro r hr
  obtain ⟨action, object', hwait', harrived⟩ := ha.handling i busy
  obtain ⟨rfl, rfl⟩ := Request.handle.inj (Option.some.inj (hwait.symm.trans hwait'))
  have hcreate : Action.create ≠ .delete := by decide
  rcases ha.kept.attended i _ r (harrived hbegan r hr) hcreate with ⟨v, hv⟩ | hnot
  · cases hv.symm.trans done
  · exact hnot

/-- `answer` keeps `Watched`: an answer of the source brings at most objects that are `todo`. -/
theorem Watched.answer {cache : ChangeCache} {a : Agent} (ha : Watched cache a) {x : Answer}
    (other : x ≠ .handled) : Watched cache (a.answer x) := by
  by_cases hpage : ∃ token page, a.watcher.stage = .asking token ∧ x = .page (some page)
  · obtain ⟨token, page, hstage, rfl⟩ := hpage
    -- A page brings its objects, all of them still to be handed over.
    have hobjects : objects a.watcher (.page (some page)) = page.items := by
      simp only [objects, hstage]
    have hanswered : a.watcher.answered a.signals (.page (some page)) =
        PagedWatcher.store { a.watcher with backoff := a.watcher.backoff.reset } a.signals page
          page.items := by
      simp only [PagedWatcher.answered, hstage]
    obtain ⟨htodo, hlists⟩ := PagedWatcher.todo_store
      { a.watcher with backoff := a.watcher.backoff.reset } a.signals page page.items
    have hidle : a.watcher.todo = [] := by simp only [PagedWatcher.todo, hstage]
    unfold Agent.answer
    rw [hobjects, hanswered]
    refine Watched.goOn ha.kept (fun i hi => ?_) (fun hbegan doc hdoc => ?_) ha.listed
      (hlists.imp_right fun hnil => htodo.trans hnil)
    · -- Whoever asks for a page has nothing handled.
      obtain ⟨action, object, hwait, -⟩ := ha.handling i hi
      simp only [PagedWatcher.wait, hstage] at hwait
      cases hwait
    · rcases List.mem_append.mp hdoc with hold | hnew
      · exact Or.inr ((ha.received hbegan doc hold).resolve_left (by simp [hidle]))
      · rw [htodo]
        exact Or.inl hnew
  · have hother : ∀ token page, a.watcher.stage = .asking token → x ≠ .page (some page) :=
      fun token page hstage hx => hpage ⟨token, page, hstage, hx⟩
    -- No other answer brings any, and what is still to come stays the same.
    have hobjects : objects a.watcher x = [] := by
      unfold objects
      split
      next token page hstage => exact absurd rfl (hother token page hstage)
      next => rfl
    obtain ⟨htodo, hlists⟩ := PagedWatcher.todo_answered a.signals other hother
    unfold Agent.answer
    rw [hobjects, List.append_nil]
    refine Watched.goOn ha.kept (fun i hi => ?_) ?_ ha.listed (Or.inl hlists)
    · obtain ⟨action, object, hwait, harrived⟩ := ha.handling i hi
      refine ⟨action, object, ?_, harrived⟩
      rw [PagedWatcher.answered_of_handle a.signals other hwait]
      exact hwait
    · rw [htodo]
      exact ha.received

/-- The answer `.handled` keeps `Watched`: its object is spared, and the others of its page are
still `todo`. -/
theorem Watched.handled {cache : ChangeCache} {a : Agent} (ha : Watched cache a) {i : Nat}
    {outcome : Forwarded} (busy : a.handling = some i)
    (done : a.chronicle.world.activity? i = some (.forward (.done outcome))) :
    Watched cache { a.goOn (a.watcher.answered a.signals .handled) with handling := none } := by
  obtain ⟨action, object, hwait, -⟩ := ha.handling i busy
  have hgoes : ∀ w : PagedWatcher, (.listBegan ∈ a.chronicle.thisWindow → ∀ doc ∈ a.received,
      doc ∈ w.todo ∨ a.chronicle.Spares doc) → (w.lists = a.watcher.lists ∨ w.todo = []) →
      Watched cache { a.goOn w with handling := none } := by
    intro w hreceived hlists
    exact Watched.goOn (a := { a with handling := none }) ha.kept (fun i hi => by cases hi)
      hreceived ha.listed hlists
  cases hstage : a.watcher.stage with
  -- The first object of what was left of a page.
  | storing object' rest page =>
    have hhandled : a.watcher.wait = some (.handle .create object') := by
      simp only [PagedWatcher.wait, hstage]
    have hanswered : a.watcher.answered a.signals .handled =
        a.watcher.store a.signals page rest := by
      simp only [PagedWatcher.answered, hstage]
    obtain ⟨htodo, hlists⟩ := a.watcher.todo_store a.signals page rest
    rw [hanswered]
    refine hgoes _ (fun hbegan doc hdoc => ?_) (hlists.imp_right fun hnil => htodo.trans hnil)
    rw [htodo]
    rcases ha.received hbegan doc hdoc with hold | hspared
    · simp only [PagedWatcher.todo, hstage] at hold
      rcases List.mem_cons.mp hold with rfl | hrest
      · exact Or.inr (ha.spares busy done hhandled hbegan)
      · exact Or.inl hrest
    · exact Or.inr hspared
  -- An object from a stream: nothing of a list is left to come.
  | delivering action' object' =>
    have hanswered : a.watcher.answered a.signals .handled = a.watcher.listen a.signals := by
      simp only [PagedWatcher.answered, hstage]
    obtain ⟨htodo, hlists⟩ := a.watcher.todo_listen a.signals
    have hidle : a.watcher.todo = [] := by simp only [PagedWatcher.todo, hstage]
    rw [hanswered]
    refine hgoes _ (fun hbegan doc hdoc => ?_) (Or.inl hlists)
    exact Or.inr ((ha.received hbegan doc hdoc).resolve_left (by simp [hidle]))
  | idle | asking | opening | listening | resting =>
    simp only [PagedWatcher.wait, hstage] at hwait
    cases hwait

theorem watched_step {cache : ChangeCache} (hopen : cache.windowOpen = true) {a b : Agent}
    {d : Deed} (ha : Watched cache a) (h : Step a d b) : Watched cache b := by
  cases h with
  -- The object in hand has arrived in this window, if a list was begun in it.
  | work m c step =>
    refine ha.work hopen step _ fun i hi => ?_
    obtain ⟨action, object, hwait, harrived⟩ := ha.handling i hi
    refine ⟨action, object, hwait, fun hbegan r hr => ?_⟩
    rcases Chronicle.continues_step hopen ha.kept.toRecorded step with hnone | hsame
    · rw [hnone] at hbegan
      cases hbegan
    · rw [World.normalizer_step step.world] at hr
      exact hsame.arrived (harrived (hsame.began hbegan) r hr)
  | hand i action object c waits free step =>
    refine ha.work hopen step a.signals fun j hj => ?_
    obtain rfl := Option.some.inj hj
    refine ⟨action, object, waits, fun _ r hr => ?_⟩
    -- The event arrives with this very move.
    rw [World.normalizer_step step.world] at hr
    have hnotes : a.chronicle.world.notes (.event i action object) = [.arrived i action r] := by
      simp only [World.notes, hr]
    unfold Chronicle.thisWindow
    rw [step.past, hnotes]
    exact List.mem_cons_self
  | begin idle =>
    have hfree : ∀ i, a.handling ≠ some i := by
      intro i hi
      obtain ⟨action, object, hwait, -⟩ := ha.handling i hi
      cases idle.symm.trans hwait
    obtain ⟨htodo, hlists⟩ := a.watcher.todo_begin a.signals
    unfold Agent.begin
    dsimp only
    split
    · -- A list begins, of which nothing has come yet.
      refine ⟨kept_note ha.kept (Or.inl rfl), fun i hi => absurd hi (hfree i),
        fun _ doc hdoc => (by cases hdoc), fun objects hobjects doc hdoc => ?_⟩
      cases hobjects with
      | cons _ hobjects => exact ha.listed objects hobjects doc hdoc
    · refine Watched.goOn ha.kept (fun i hi => absurd hi (hfree i)) (fun hbegan doc hdoc => ?_)
        ha.listed (Or.inr htodo)
      have hidle := PagedWatcher.todo_eq_nil_of_wait idle
      exact Or.inr ((ha.received hbegan doc hdoc).resolve_left (by simp [hidle]))
  | answer x other => exact ha.answer other
  -- A look at the signals takes nothing from what is still to come.
  | look =>
    obtain ⟨htodo, hlists⟩ := a.watcher.todo_interrupted a.signals
    refine Watched.goOn ha.kept (fun i hi => ?_) ?_ ha.listed (Or.inl hlists)
    · obtain ⟨action, object, hwait, harrived⟩ := ha.handling i hi
      refine ⟨action, object, ?_, harrived⟩
      rw [PagedWatcher.interrupted_of_handle a.signals hwait]
      exact hwait
    · rw [htodo]
      exact ha.received
  | handled i outcome busy done => exact ha.handled busy done
  | cancel => exact ⟨ha.kept, ha.handling, ha.received, ha.listed⟩

/-- A watcher beside events, flushes and sweeps in any interleaving and with any answers, from a
fresh `start` with the window open; whatever its source does, and whenever the sweeps begin. Of an
object that is in everything that was `.listed`, a sweep sends no deletion if it begins when the
window `Lists` some objects: the watcher has begun and completed a list in it. -/
theorem spared_of_listed {p : Pipeline} {c : ChangeCache} {remote : List (String × String)}
    (cache : p.cache = (c.init remote).openWindow) (gate : p.gate = .empty) (held : Holdings)
    (pageSize : Nat) (backoff : Backoff) {deeds : List Deed} {before : Agent}
    (run : (start p held pageSize backoff).run? deeds = some before) {i : Nat} {owner : Owner}
    {begun : Agent} (begins : before.next? (.work (.sweep i owner)) = some begun)
    {later : List Deed} {after : Agent} (goesOn : begun.run? later = some after) {id : String}
    (live : ∀ objects, .listed objects ∈ before.chronicle.past →
      ∃ doc ∈ objects, ∃ r, p.normalizer.normalize doc = .ok r ∧ r.identifier = id)
    (covered : ∃ objects, before.chronicle.Lists objects) :
    .deletion id ∉ after.chronicle.sentBy i := by
  have hopen : p.cache.windowOpen = true := by rw [cache]; rfl
  have hwatched : Watched p.cache before :=
    run?_preserves (fun ha h => watched_step hopen ha h) (watched_start gate held pageSize backoff)
      run
  have hnormalizer : before.chronicle.world.pipeline.normalizer = p.normalizer :=
    run?_preserves (P := fun a => a.chronicle.world.pipeline.normalizer = p.normalizer)
      (fun ha h => (normalizer_step h).trans ha) rfl run
  -- The object was in the list, so its identifier is not among those that the sweep takes.
  obtain ⟨objects, hobjects⟩ := covered
  have hpast : .listed objects ∈ before.chronicle.past :=
    (List.takeWhile_sublist _).subset (hobjects.subset List.mem_cons_self)
  obtain ⟨doc, hdoc, r, hr, rfl⟩ := live objects hpast
  have hnot : r.identifier ∉ before.chronicle.world.pipeline.cache.inactive :=
    hwatched.listed objects hobjects doc hdoc r (hnormalizer ▸ hr)
  -- And it sends deletions of those only.
  have hbegun : ∃ f, Chronicle.Sweeps before.chronicle.world.pipeline.cache.inactive i
      begun.chronicle f := by
    cases step_of_next? begins with
    | work m c step =>
      obtain ⟨f, hf, -⟩ := Chronicle.sweeps_begin hwatched.kept.fair step
      exact ⟨f, hf⟩
  obtain ⟨f, hafter⟩ := run?_preserves
    (P := fun a => ∃ f, Chronicle.Sweeps before.chronicle.world.pipeline.cache.inactive i
      a.chronicle f) (fun ha h => sweeps_step h ha) hbegun goesOn
  intro hsent
  have hfirst : after.chronicle.sentBy i <+:
      before.chronicle.world.pipeline.cache.inactive.map .deletion := ⟨_, hafter.sent⟩
  obtain ⟨id, hid, heq⟩ := List.mem_map.mp (hfirst.subset hsent)
  obtain rfl : id = r.identifier := (Call.mk.inj heq).2.1
  exact hnot hid

/-- The inventory has two objects, of which the cluster still has the first. -/
def listingStart : Agent :=
  start ⟨⟨.cluster "c", .passthrough⟩,
    (ChangeCache.empty.init [("a", "h"), ("b", "h")]).openWindow, .empty, .empty, 0⟩ ∅ 500
    (.new (.ofSeconds 1) (.ofSeconds 30))

/-- The list of the cluster. -/
def onlyPage : ListPage := ⟨[sampleDoc "a" "one"], "7", none⟩

/-- The watcher lists the object, and the request for it fails. -/
def listedFirst : List Deed :=
  [.begin, .begin, .answer (.page (some onlyPage)), .hand 1, .work (.pass 1),
    .work (.reply 1 (.status 503)), .handled]

theorem spared_of_listed_once : ∃ before begun after,
    listingStart.run? listedFirst = some before ∧
    before.next? (.work (.sweep 0 (.cluster "c"))) = some begun ∧
    begun.run? [.work (.land 0), .work (.reply 0 (.status 200))] = some after ∧
    .deletion "a" ∉ after.chronicle.sentBy 0 := by
  -- One evaluation of the run gives all that is asked of it: the lists, and that they came in the
  -- window.
  have hrun : ((listingStart.run? listedFirst).bind fun before =>
      (before.next? (.work (.sweep 0 (.cluster "c")))).bind fun begun =>
        (begun.run? [.work (.land 0), .work (.reply 0 (.status 200))]).map fun _ =>
          (before.chronicle.past.all fun
              | .listed objects => objects == onlyPage.items
              | .arrived .. | .marked _ | .sent .. | .settled _ | .opened | .listBegan => true,
            decide ([.listed onlyPage.items, .listBegan].Sublist before.chronicle.thisWindow))) =
      some (true, true) := by decide +kernel
  have hdoc : ((Normalizer.mk (.cluster "c") .passthrough).normalize
      (sampleDoc "a" "one")).toOption.map (·.identifier) = some "a" := by decide +kernel
  obtain ⟨before, hbefore, hrun⟩ := Option.bind_eq_some_iff.mp hrun
  obtain ⟨begun, hbegun, hrun⟩ := Option.bind_eq_some_iff.mp hrun
  obtain ⟨after, hafter, hend⟩ := Option.map_eq_some_iff.mp hrun
  simp only [Prod.mk.injEq, List.all_eq_true, decide_eq_true_iff] at hend
  obtain ⟨hpast, hlists⟩ := hend
  obtain ⟨r, hr, hid⟩ := exists_ok_of_map_toOption hdoc
  refine ⟨before, begun, after, hbefore, hbegun, hafter, ?_⟩
  refine spared_of_listed rfl rfl ∅ 500 _ hbefore hbegun hafter (fun objects hobjects => ?_)
    ⟨onlyPage.items, hlists⟩
  obtain rfl : objects = onlyPage.items := beq_iff_eq.mp (hpast _ hobjects)
  exact ⟨_, List.mem_singleton_self _, r, hr, hid⟩

/-! ## When a sweep comes first -/

/-- The first list fails; before the watcher lists again, a sweep begins. Then a list is completed
with the object. -/
def lateList : List Deed :=
  [.begin, .begin, .answer (.page none), .work (.sweep 0 (.cluster "c")), .begin, .answer .rested,
    .begin, .answer (.page (some onlyPage)), .hand 1, .work (.pass 1), .work (.land 1),
    .work (.reply 1 (.status 200)), .handled]

/-- After `lateList` everything that was `.listed` has the object, and no deletion of it has
`.arrived`; but the sweep deletes it, because it begins before any list is complete. -/
theorem deleted_before_list : ∃ after, listingStart.run? lateList = some after ∧
    after.watcher.lists = 1 ∧
    (∀ objects, .listed objects ∈ after.chronicle.past → sampleDoc "a" "one" ∈ objects) ∧
    (∀ i r, .arrived i .delete r ∉ after.chronicle.past) ∧
    ((Normalizer.mk (.cluster "c") .passthrough).normalize
      (sampleDoc "a" "one")).toOption.map (·.identifier) = some "a" ∧
    .deletion "a" ∈ after.chronicle.sentBy 0 := by
  have hrun : (listingStart.run? lateList).map (fun after => (after.watcher.lists,
      after.chronicle.past.all fun
        | .listed objects => decide (sampleDoc "a" "one" ∈ objects)
        | .arrived _ action _ => action != .delete
        | .marked _ | .sent .. | .settled _ | .opened | .listBegan => true,
      after.chronicle.sentBy 0)) = some (1, true, [.deletion "a"]) := by decide +kernel
  obtain ⟨after, hafter, hend⟩ := Option.map_eq_some_iff.mp hrun
  simp only [Prod.mk.injEq, List.all_eq_true] at hend
  obtain ⟨hlists, hpast, hsent⟩ := hend
  refine ⟨after, hafter, hlists, fun objects hobjects => ?_, fun i r harrived => ?_,
    by decide +kernel, ?_⟩
  · exact of_decide_eq_true (hpast _ hobjects)
  · cases hpast _ harrived
  · rw [hsent]
    exact List.mem_singleton_self _

end Agent
end InventorySync
