import InventorySync.Watch.Paged

/-!
# The strides of a paged watcher

A watcher goes on when a step begins, and when what it waits for has come. `Stride` says what it
does then, one case for each place where it can stand; only how a page is stored and how a watcher
comes to wait for an event are cases of their own.

## Key results

- `stride_begin`, `stride_answered`: whatever a watcher does is a stride
- `store_cases`, `listen_cases`: what follows an object of a page, and what comes before a wait
- `Paced.stride`: each stage belongs to its phase
-/

namespace InventorySync

/-! ## Events of a stream -/

namespace StreamEvent

/-- What an event means to a handler, if it is about an object. -/
def change? : StreamEvent → Option (Action × Json)
  | .added object => some (.create, object)
  | .modified object => some (.update, object)
  | .deleted object => some (.delete, object)
  | .bookmark _ | .refused _ _ | .failed | .closed => none

/-- Whether nothing follows the event. -/
def isLast : StreamEvent → Bool
  | .refused _ _ | .failed | .closed => true
  | .added _ | .modified _ | .deleted _ | .bookmark _ => false

end StreamEvent

/-- The phase that a stage belongs to; a watcher can be idle in any. -/
def PagedStage.phase? : PagedStage → Option Phase
  | .idle => none
  | .asking _ | .storing .. => some .listing
  | .opening | .listening | .delivering .. => some .watching
  | .resting delay => some (.backoff delay)

/-- Whether an answer is one to a request. -/
def Answer.answers : Answer → Request → Bool
  | .page _, .page _ _ | .handled, .handle _ _ | .opened _, .watch _ | .event _, .event
  | .rested, .sleep _ => true
  | _, _ => false

namespace PagedWatcher

variable {w w' : PagedWatcher} {s : Signals}

/-! ## Ends of a step -/

@[simp] theorem wait_settle (w : PagedWatcher) (phase : Phase) : (w.settle phase).wait = none := rfl

@[simp] theorem wait_stop (w : PagedWatcher) : w.stop.wait = none := rfl

@[simp] theorem wait_relist (w : PagedWatcher) : w.relist.wait = none := rfl

@[simp] theorem wait_rest (w : PagedWatcher) : w.rest.wait = none := rfl

theorem rest_eq (w : PagedWatcher) :
    w.rest = { w with
      backoff := w.backoff.next.2
      phase := .backoff w.backoff.next.1
      stage := .idle } := by
  unfold rest settle
  rfl

theorem stage_eq_idle_iff (w : PagedWatcher) : w.wait = none ↔ w.stage = .idle := by
  cases hstage : w.stage <;> simp [wait, hstage]

/-! ## Strides -/

/-- What a watcher does when a step begins, which is no answer, or when it is `answered`;
`stride_begin` and `stride_answered` say so. -/
inductive Stride (s : Signals) (w : PagedWatcher) : Option Answer → PagedWatcher → Prop
  -- A step begins.
  | stop (idle : w.stage = .idle) (ending : s.cancelled = true ∨ w.phase = .stopped) :
    Stride s w none w.stop
  | init (idle : w.stage = .idle) (phase : w.phase = .init) (goes : s.cancelled = false) :
    Stride s w none w.relist
  | list (idle : w.stage = .idle) (phase : w.phase = .listing) (goes : s.cancelled = false) :
    Stride s w none { w.catchUp s with stage := .asking none }
  | connect (idle : w.stage = .idle) (phase : w.phase = .watching) (goes : s.cancelled = false) :
    Stride s w none { w with stage := .opening }
  | pause (delay) (idle : w.stage = .idle) (phase : w.phase = .backoff delay)
    (goes : s.cancelled = false) : Stride s w none { w with stage := .resting delay }
  -- A page was asked for.
  | unlisted (token) (stage : w.stage = .asking token) :
    Stride s w (some (.page none)) ({ w with cursor := "" } : PagedWatcher).rest
  | paged (token page) (stage : w.stage = .asking token) :
    Stride s w (some (.page (some page)))
      (({ w with backoff := w.backoff.reset } : PagedWatcher).store s page page.items)
  | stored (object rest page) (stage : w.stage = .storing object rest page) :
    Stride s w (some .handled) (w.store s page rest)
  -- A stream was asked for.
  | opened (stage : w.stage = .opening) :
    Stride s w (some (.opened true))
      (({ w with backoff := w.backoff.reset } : PagedWatcher).listen s)
  | unopened (stage : w.stage = .opening) : Stride s w (some (.opened false)) w.rest
  -- An event was waited for.
  | changed (event action object) (stage : w.stage = .listening)
    (change : event.change? = some (action, object)) :
    Stride s w (some (.event event)) (w.deliver action object)
  | marked (version) (stage : w.stage = .listening) :
    Stride s w (some (.event (.bookmark version))) ((w.advance version).listen s)
  | ended (event) (stage : w.stage = .listening) (last : event.isLast = true) :
    Stride s w (some (.event event)) w.relist
  | delivered (action object) (stage : w.stage = .delivering action object) :
    Stride s w (some .handled) (w.listen s)
  | rested (delay) (stage : w.stage = .resting delay) :
    Stride s w (some .rested) (w.settle (if w.cursor = "" then .listing else .watching))

/-- An `.event` comes to a watcher that is `.listening`. -/
theorem Stride.stage_of_event {event : StreamEvent} (h : Stride s w (some (.event event)) w') :
    w.stage = .listening := by
  cases h with
  | changed _ action object stage => exact stage
  | marked version stage => exact stage
  | ended _ stage => exact stage

/-- A `Stride` without an answer begins a step: the stage is `.idle`. -/
theorem Stride.eq_none_iff {x : Option Answer} (h : Stride s w x w') :
    x = none ↔ w.stage = .idle := by
  cases h with
  | stop idle | init idle | list idle | connect idle | pause _ idle =>
    exact ⟨fun _ => idle, fun _ => rfl⟩
  | unlisted _ stage | paged _ _ stage | stored _ _ _ stage | opened stage | unopened stage
  | changed _ _ _ stage | marked _ stage | ended _ stage | delivered _ _ stage
  | rested _ stage =>
    rw [stage]
    exact ⟨nofun, nofun⟩

theorem stride_begin (s : Signals) (idle : w.wait = none) : Stride s w none (w.begin s) := by
  have hidle := w.stage_eq_idle_iff.mp idle
  unfold begin
  split
  next hcancelled => exact .stop hidle (Or.inl hcancelled)
  next hgoes =>
    have hgoes : s.cancelled = false := by simpa using hgoes
    split
    next hphase => exact .init hidle hphase hgoes
    next hphase =>
      rw [ask, if_neg (by simp [hgoes])]
      exact .list hidle hphase hgoes
    next hphase => exact .connect hidle hphase hgoes
    next delay hphase => exact .pause delay hidle hphase hgoes
    next hphase => exact .stop hidle (Or.inr hphase)

theorem stride_answered (s : Signals) {r : Request} {x : Answer} (waits : w.wait = some r)
    (fits : x.answers r = true) : Stride s w (some x) (w.answered s x) := by
  -- What the watcher waits for is decided by its stage; no other answer fits.
  cases hstage : w.stage with
  | idle => simp [wait, hstage] at waits
  | asking token =>
    obtain rfl : Request.page w.pageSize token = r := by simpa [wait, hstage] using waits
    cases x with
    | page page =>
      cases page with
      | none => simpa [answered, hstage] using Stride.unlisted (s := s) token hstage
      | some page => simpa [answered, hstage] using Stride.paged (s := s) token page hstage
    | handled | opened | event | rested => cases fits
  | storing object rest page =>
    obtain rfl : Request.handle .create object = r := by simpa [wait, hstage] using waits
    cases x with
    | handled => simpa [answered, hstage] using Stride.stored (s := s) object rest page hstage
    | page | opened | event | rested => cases fits
  | opening =>
    obtain rfl : Request.watch w.cursor = r := by simpa [wait, hstage] using waits
    cases x with
    | opened isOpen =>
      cases isOpen with
      | false => simpa [answered, hstage] using Stride.unopened (s := s) hstage
      | true => simpa [answered, hstage] using Stride.opened (s := s) hstage
    | page | handled | event | rested => cases fits
  | listening =>
    obtain rfl : Request.event = r := by simpa [wait, hstage] using waits
    cases x with
    | event event =>
      simp only [answered, hstage]
      cases event with
      | added object => exact .changed _ _ _ hstage rfl
      | modified object => exact .changed _ _ _ hstage rfl
      | deleted object => exact .changed _ _ _ hstage rfl
      | bookmark version => exact .marked version hstage
      | refused code message => exact .ended _ hstage rfl
      | failed => exact .ended _ hstage rfl
      | closed => exact .ended _ hstage rfl
    | page | handled | opened | rested => cases fits
  | delivering action object =>
    obtain rfl : Request.handle action object = r := by simpa [wait, hstage] using waits
    cases x with
    | handled => simpa [answered, hstage] using Stride.delivered (s := s) action object hstage
    | page | opened | event | rested => cases fits
  | resting delay =>
    obtain rfl : Request.sleep delay = r := by simpa [wait, hstage] using waits
    cases x with
    | rested => simpa [answered, hstage] using Stride.rested (s := s) delay hstage
    | page | handled | opened | event => cases fits

/-! ## Ways on -/

/-- `store` goes on with the next object of a page; without one it asks for the next page, or the
list is complete. -/
theorem store_cases (w : PagedWatcher) (s : Signals) (page : ListPage) (rest : List Json) :
    (∃ object later, rest = object :: later ∧
      w.store s page rest = { w with stage := .storing object later page }) ∨
    (rest = [] ∧ ∃ token, page.next = some token ∧ s.cancelled = true ∧
      w.store s page rest = w.stop) ∨
    (rest = [] ∧ ∃ token, page.next = some token ∧ s.cancelled = false ∧
      w.store s page rest = { w with stage := .asking (some token) }) ∨
    (rest = [] ∧ page.next = none ∧ w.store s page rest =
      ({ w with cursor := page.resourceVersion, lists := w.lists + 1 } : PagedWatcher).settle
        .watching) := by
  cases rest with
  | cons object later => exact Or.inl ⟨object, later, rfl, rfl⟩
  | nil =>
    refine Or.inr ?_
    cases hnext : page.next with
    | none => exact Or.inr (Or.inr ⟨rfl, rfl, by simp only [store, hnext]⟩)
    | some token =>
      -- A cancelled watcher asks for no further page.
      cases hcancelled : s.cancelled with
      | true => exact Or.inl ⟨rfl, token, rfl, rfl, by simp [store, hnext, ask, hcancelled]⟩
      | false =>
        exact Or.inr (Or.inl ⟨rfl, token, rfl, rfl, by simp [store, hnext, ask, hcancelled]⟩)

/-- `listen` waits for an event unless it is told to stop or to start over. -/
theorem listen_cases (w : PagedWatcher) (s : Signals) :
    (s.cancelled = true ∧ w.listen s = w.stop) ∨
    (s.cancelled = false ∧ s.resyncDue w.seen = true ∧ w.listen s = (w.catchUp s).relist) ∨
    (s.cancelled = false ∧ s.resyncDue w.seen = false ∧
      w.listen s = { w with stage := .listening }) := by
  unfold listen
  cases hcancelled : s.cancelled with
  | true => exact Or.inl ⟨rfl, rfl⟩
  | false =>
    cases hdue : s.resyncDue w.seen with
    | true => exact Or.inr (Or.inl ⟨rfl, rfl, rfl⟩)
    | false => exact Or.inr (Or.inr ⟨rfl, rfl, rfl⟩)

/-- `interrupted` changes nothing, stops the watcher, or is a `listen`. -/
theorem interrupted_cases (w : PagedWatcher) (s : Signals) :
    w.interrupted s = w ∨ (s.cancelled = true ∧ w.interrupted s = w.stop) ∨
      (w.stage = .listening ∧ w.interrupted s = w.listen s) := by
  unfold interrupted
  cases hstage : w.stage with
  | asking | opening | resting =>
    cases hcancelled : s.cancelled with
    | true => exact Or.inr (Or.inl ⟨rfl, rfl⟩)
    | false => exact Or.inl rfl
  | listening => exact Or.inr (Or.inr ⟨rfl, rfl⟩)
  | idle | storing | delivering => exact Or.inl rfl

theorem exists_advance (w : PagedWatcher) (version : String) :
    ∃ cursor, w.advance version = { w with cursor } := by
  unfold advance
  split
  · exact ⟨w.cursor, rfl⟩
  · exact ⟨version, rfl⟩

/-! ## Stages and phases -/

/-- The watcher stands at a stage of its phase. -/
def Paced (w : PagedWatcher) : Prop := ∀ phase, w.stage.phase? = some phase → w.phase = phase

theorem Paced.of_idle (h : w.stage = .idle) : w.Paced := by
  intro phase hphase
  rw [h] at hphase
  cases hphase

theorem Paced.of_phase {phase : Phase} (h : w.phase = phase) (hs : w.stage.phase? = some phase) :
    w.Paced := by
  intro phase' hphase
  exact h.trans (Option.some.inj (hs.symm.trans hphase))

theorem Paced.store (hw : w.phase = .listing) (s : Signals) (page : ListPage) (rest : List Json) :
    (w.store s page rest).Paced := by
  rcases w.store_cases s page rest with ⟨object, later, -, h⟩ | ⟨-, token, -, -, h⟩ |
    ⟨-, token, -, -, h⟩ | ⟨-, -, h⟩
  · rw [h]
    exact .of_phase hw rfl
  · rw [h]
    exact .of_idle rfl
  · rw [h]
    exact .of_phase hw rfl
  · rw [h]
    exact .of_idle rfl

theorem Paced.listen (hw : w.phase = .watching) (s : Signals) : (w.listen s).Paced := by
  rcases w.listen_cases s with ⟨-, h⟩ | ⟨-, -, h⟩ | ⟨-, -, h⟩
  · rw [h]
    exact .of_idle rfl
  · rw [h]
    exact .of_idle rfl
  · rw [h]
    exact .of_phase hw rfl

/-- A `Stride` of a watcher that is `Paced` leads to a stage of its phase again. -/
theorem Paced.stride {x : Option Answer} (hw : w.Paced) (h : Stride s w x w') : w'.Paced := by
  cases h with
  | stop | init | unlisted | unopened | ended | rested => exact .of_idle rfl
  | list idle phase => exact .of_phase phase rfl
  | connect idle phase => exact .of_phase phase rfl
  | pause delay idle phase => exact .of_phase phase rfl
  -- The stages that read a list or a stream know their phase from before.
  | paged token page stage =>
    have hphase : w.phase = .listing := hw _ (by rw [stage]; rfl)
    exact Paced.store (w := { w with backoff := w.backoff.reset }) hphase s page page.items
  | stored object rest page stage => exact .store (hw _ (by rw [stage]; rfl)) s page rest
  | opened stage =>
    have hphase : w.phase = .watching := hw _ (by rw [stage]; rfl)
    exact Paced.listen (w := { w with backoff := w.backoff.reset }) hphase s
  | delivered action object stage => exact .listen (hw _ (by rw [stage]; rfl)) s
  | changed event action object stage =>
    obtain ⟨cursor, hcursor⟩ := w.exists_advance (objectVersion object)
    refine .of_phase ?_ rfl
    simp only [deliver, hcursor]
    exact hw _ (by rw [stage]; rfl)
  | marked version stage =>
    have hphase : w.phase = .watching := hw _ (by rw [stage]; rfl)
    obtain ⟨cursor, hcursor⟩ := w.exists_advance version
    rw [hcursor]
    exact Paced.listen (w := { w with cursor }) hphase s

theorem Paced.interrupted (hw : w.Paced) (s : Signals) : (w.interrupted s).Paced := by
  rcases w.interrupted_cases s with h | ⟨-, h⟩ | ⟨hstage, h⟩
  · rwa [h]
  · rw [h]
    exact .of_idle rfl
  · rw [h]
    exact .listen (hw _ (by rw [hstage]; rfl)) s

end PagedWatcher
end InventorySync
