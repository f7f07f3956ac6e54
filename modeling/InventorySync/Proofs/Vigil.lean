import InventorySync.Proofs.Strides
import InventorySync.Proofs.World

/-!
# A watcher and what happens to it

A paged watcher stands between a source that answers and somebody who signals. A `Vigil` is the
watcher with its signals, and with notes of all that was asked, answered and signalled, the newest
first. `next?` lets any of it happen in any order: an answer may come before the watcher has looked
at a signal that was sent before. Statements about a run are statements about its notes.

## Key results

- `step_of_next?`: whatever happens is a stride, a wait that is given up, or a signal
- `run?_preserves`: what every step keeps, every run keeps
-/

namespace InventorySync

/-! ## Notes -/

/-- What a reader of the watcher's traffic would write down, and the signals between. -/
inductive WatchNote where
  /-- The watcher begins to wait. -/
  | asked (request : Request)
  /-- What it waited for has come. -/
  | came (answer : Answer)
  /-- The watcher has given up a wait. -/
  | left
  /-- Somebody asks for a fresh start. -/
  | resync
  /-- Somebody asks for an end. -/
  | cancel
deriving DecidableEq, Repr, Inhabited

namespace WatchNote

/-- Whether it was a signal. -/
def isSignal : WatchNote → Bool
  | .resync | .cancel => true
  | .asked _ | .came _ | .left => false

/-- Whether the first page of a list was asked for. -/
def beginsList : WatchNote → Bool
  | .asked (.page _ none) => true
  | .asked _ | .came _ | .left | .resync | .cancel => false

/-- Whether an event of a stream came. -/
def isEvent : WatchNote → Bool
  | .came (.event _) => true
  | .asked _ | .came _ | .left | .resync | .cancel => false

end WatchNote

/-- What there is to note when a watcher has gone on: first what came, if anything, then what it
waits for now. -/
def PagedWatcher.notes (w : PagedWatcher) (x : Option Answer) : List WatchNote :=
  (w.wait.map WatchNote.asked).toList ++ (x.map WatchNote.came).toList

theorem PagedWatcher.notes_eq (w : PagedWatcher) (x : Option Answer) :
    w.notes x = w.notes none ++ (x.map WatchNote.came).toList := by
  simp [notes]

theorem PagedWatcher.mem_notes {w : PagedWatcher} {x : Option Answer} {n : WatchNote} :
    n ∈ w.notes x ↔ (∃ r, w.wait = some r ∧ n = .asked r) ∨ ∃ a, x = some a ∧ n = .came a := by
  simp only [notes, List.mem_append, Option.mem_toList, Option.map_eq_some_iff,
    @eq_comm _ n]

/-- None of the `notes` of a step `isSignal`. -/
theorem PagedWatcher.isSignal_of_mem_notes {w : PagedWatcher} {x : Option Answer} {n : WatchNote}
    (h : n ∈ w.notes x) : n.isSignal = false := by
  rcases mem_notes.mp h with ⟨r, -, rfl⟩ | ⟨a, -, rfl⟩
  · rfl
  · rfl

/-- What the watcher has `asked` for is no event. -/
theorem PagedWatcher.isEvent_of_mem_asked {w : PagedWatcher} {n : WatchNote}
    (h : n ∈ (w.wait.map WatchNote.asked).toList) : n.isEvent = false := by
  obtain ⟨r, -, rfl⟩ := Option.map_eq_some_iff.mp (Option.mem_toList.mp h)
  rfl

/-- Of the `notes` of a step, one `beginsList` only where the first page is asked for. -/
theorem PagedWatcher.beginsList_of_mem_notes {w : PagedWatcher} {x : Option Answer} {n : WatchNote}
    (hw : w.stage ≠ .asking none) (h : n ∈ w.notes x) : n.beginsList = false := by
  rcases mem_notes.mp h with ⟨r, hwait, rfl⟩ | ⟨a, -, rfl⟩
  · unfold wait at hwait
    cases hstage : w.stage with
    | idle =>
      rw [hstage] at hwait
      cases hwait
    | asking token =>
      rw [hstage] at hwait
      obtain rfl := Option.some.inj hwait
      cases token with
      | none => exact absurd hstage hw
      | some token => rfl
    | storing | opening | listening | delivering | resting =>
      rw [hstage] at hwait
      obtain rfl := Option.some.inj hwait
      rfl
  · rfl

/-- Where a note stands in a past that has just been extended with `notes` that do not have it. -/
theorem exists_of_append_eq_append {notes past new old : List WatchNote} {n : WatchNote}
    (hn : n ∉ notes) (h : notes ++ past = new ++ n :: old) :
    ∃ between, new = notes ++ between ∧ past = between ++ n :: old := by
  rcases List.append_eq_append_iff.mp h with ⟨between, hnew, hpast⟩ | ⟨between, hnotes, hold⟩
  · exact ⟨between, hnew, hpast⟩
  · cases between with
    -- The note is the first of the past.
    | nil => exact ⟨[], by simpa using hnotes.symm, hold.symm⟩
    -- It would be one of the new notes.
    | cons m between =>
      obtain ⟨rfl, -⟩ := List.cons.inj hold
      exact absurd (hnotes ▸ List.mem_append_right new List.mem_cons_self) hn

/-! ## Vigils -/

/-- A `PagedWatcher`, what it hears, and what has happened so far. -/
structure Vigil where
  watcher : PagedWatcher
  signals : Signals
  /-- Whether there is still somebody who could ask for a fresh start. -/
  connected : Bool
  /-- What has happened, the newest first. -/
  past : List WatchNote
deriving DecidableEq, Repr

/-- Something that happens to the watcher of a `Vigil`. -/
inductive Occasion where
  /-- The next step begins. -/
  | begin
  /-- What the watcher waits for comes. -/
  | answer (answer : Answer)
  /-- The watcher looks at the signals while it waits. -/
  | look
  | resync
  | cancel
  /-- Whoever asked for fresh starts is gone. -/
  | disconnect
deriving DecidableEq, Repr

namespace Vigil

/-- A watcher before its first step. One that listens for requests to start over does so from now
on. -/
def start (pageSize : Nat) (backoff : Backoff) (listens : Bool) (resyncs : Nat) : Vigil :=
  ⟨.new pageSize backoff (if listens then some resyncs else none), { resyncs }, true, []⟩

/-- The watcher goes on, by itself or with an answer, and may wait for something else. -/
def goOn (v : Vigil) (x : Option Answer) (w : PagedWatcher) : Vigil :=
  { v with watcher := w, past := w.notes x ++ v.past }

/-- What follows when something happens; none when it cannot happen now. -/
def next? (v : Vigil) : Occasion → Option Vigil
  | .begin =>
    if v.watcher.wait = none then some (v.goOn none (v.watcher.begin v.signals)) else none
  | .answer x =>
    match v.watcher.wait with
    | some r =>
      if x.answers r = true then some (v.goOn (some x) (v.watcher.answered v.signals x)) else none
    | none => none
  | .look =>
    let w := v.watcher.interrupted v.signals
    if w = v.watcher then some v else some { v with watcher := w, past := .left :: v.past }
  | .resync =>
    if v.connected = true then
      some { v with
        signals := { v.signals with resyncs := v.signals.resyncs + 1 }
        past := .resync :: v.past }
    else none
  | .cancel =>
    some { v with signals := { v.signals with cancelled := true }, past := .cancel :: v.past }
  | .disconnect => some { v with connected := false }

/-- A run: these things happen in this order. -/
def run? (v : Vigil) (occasions : List Occasion) : Option Vigil := occasions.foldlM next? v

/-! ## Steps -/

/-- What can happen, seen from its result: the inversion of `next?`. -/
inductive Step (v : Vigil) : Occasion → Vigil → Prop
  | begin {w} (idle : v.watcher.wait = none) (stride : v.watcher.Stride v.signals none w) :
    Step v .begin (v.goOn none w)
  | answer {x w} (stride : v.watcher.Stride v.signals (some x) w) :
    Step v (.answer x) (v.goOn (some x) w)
  | stay (stays : v.watcher.interrupted v.signals = v.watcher) : Step v .look v
  | leave (leaves : v.watcher.interrupted v.signals ≠ v.watcher) :
    Step v .look
      { v with watcher := v.watcher.interrupted v.signals, past := .left :: v.past }
  | resync (connected : v.connected = true) :
    Step v .resync
      { v with
        signals := { v.signals with resyncs := v.signals.resyncs + 1 }
        past := .resync :: v.past }
  | cancel :
    Step v .cancel
      { v with signals := { v.signals with cancelled := true }, past := .cancel :: v.past }
  | disconnect : Step v .disconnect { v with connected := false }

theorem step_of_next? {v v' : Vigil} {o : Occasion} (h : v.next? o = some v') : Step v o v' := by
  unfold next? at h
  cases o with
  -- A watcher begins when it waits for nothing, and an answer has to fit what it waits for.
  | begin =>
    dsimp only at h
    split at h
    next hidle =>
      obtain rfl := Option.some.inj h
      exact .begin hidle (PagedWatcher.stride_begin v.signals hidle)
    next => cases h
  | answer x =>
    dsimp only at h
    split at h
    next r hwait =>
      split at h
      next hfits =>
        obtain rfl := Option.some.inj h
        exact .answer (PagedWatcher.stride_answered v.signals hwait hfits)
      next => cases h
    next => cases h
  -- A look at the signals changes the watcher or not, which tells whether a wait is given up.
  | look =>
    dsimp only at h
    split at h
    next hstays =>
      obtain rfl := Option.some.inj h
      exact .stay hstays
    next hleaves =>
      obtain rfl := Option.some.inj h
      exact .leave hleaves
  -- The signals come from outside: a request needs a connection, and the others are always
  -- possible.
  | resync =>
    dsimp only at h
    split at h
    next hconnected =>
      obtain rfl := Option.some.inj h
      exact .resync hconnected
    next => cases h
  | cancel =>
    obtain rfl := Option.some.inj h
    exact .cancel
  | disconnect =>
    obtain rfl := Option.some.inj h
    exact .disconnect

/-- What every `Step` keeps, `run?` keeps. -/
theorem run?_preserves {P : Vigil → Prop}
    (keeps : ∀ {v v' o}, P v → Step v o v' → P v') {occasions : List Occasion} {v v' : Vigil}
    (hv : P v) (h : v.run? occasions = some v') : P v' :=
  foldlM_preserves (K := fun _ => True) (fun _ hv h => keeps hv (step_of_next? h))
    (fun _ _ => trivial) hv h

end Vigil

/-! ## Waits that are given up -/

namespace PagedWatcher

/-- A watcher that `interrupted` changes waits for nothing afterwards: it is stopped, or it starts
over. -/
theorem leave_cases {w : PagedWatcher} {s : Signals} (h : w.interrupted s ≠ w) :
    (s.cancelled = true ∧ w.interrupted s = w.stop) ∨
      (w.stage = .listening ∧ s.cancelled = false ∧ s.resyncDue w.seen = true ∧
        w.interrupted s = (w.catchUp s).relist) := by
  rcases w.interrupted_cases s with hsame | hstop | ⟨hstage, hlisten⟩
  · exact absurd hsame h
  · exact Or.inl hstop
  · rcases w.listen_cases s with ⟨hcancelled, hw⟩ | ⟨hgoes, hdue, hw⟩ | ⟨-, -, hw⟩
    · exact Or.inl ⟨hcancelled, hlisten.trans hw⟩
    · exact Or.inr ⟨hstage, hgoes, hdue, hlisten.trans hw⟩
    · -- Nothing was to be heard, and the wait goes on.
      refine absurd ?_ h
      rw [hlisten, hw, ← hstage]

theorem wait_of_leave {w : PagedWatcher} {s : Signals} (h : w.interrupted s ≠ w) :
    (w.interrupted s).wait = none := by
  rcases leave_cases h with ⟨-, hw⟩ | ⟨-, -, -, hw⟩
  · rw [hw, wait_stop]
  · rw [hw, wait_relist]

end PagedWatcher
end InventorySync
