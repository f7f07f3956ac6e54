import InventorySync.Proofs.Vigil

/-!
# Cancellation of a watcher

A paged watcher that is cancelled asks the source for nothing more. Whatever it was doing, it hands
over no more than what it had in hand: the objects left of the page that was being stored or waited
for, or the object of the event that was waited for. The step under way comes to its end without
the source, and every later step stops.

## Key results

- `Fading.stride`: what is handed over after a cancellation, and what is left in hand
- `Vigil.exists_return`: the step under way ends once the handler has done its part
- `Vigil.cancelled_at_once`: whatever happens after a cancellation, in any state
-/

namespace InventorySync

/-! ## What a watcher has in hand -/

/-- The objects as the handler gets them from a list. -/
def created (objects : List Json) : List (Action × Json) := objects.map (Action.create, ·)

namespace PagedStage

/-- Whether the watcher waits for the source, or rests. -/
def waits : PagedStage → Bool
  | .asking _ | .opening | .listening | .resting _ => true
  | .idle | .storing .. | .delivering .. => false

/-- What is being handled. -/
def inCall : PagedStage → List (Action × Json)
  | .storing object _ _ => [(.create, object)]
  | .delivering action object => [(action, object)]
  | .idle | .asking _ | .opening | .listening | .resting _ => []

/-- What is to be handled after that. -/
def left : PagedStage → List (Action × Json)
  | .storing _ rest _ => created rest
  | .idle | .asking _ | .opening | .listening | .delivering .. | .resting _ => []

/-- What the handler has to be done with before the step can end. -/
def remaining (stage : PagedStage) : List (Action × Json) := stage.inCall ++ stage.left

/-- What a watcher has in hand, once the answer that it waits for has come, if it comes: the objects
after the one that is being stored, or those of the page, or that of the event. -/
def inHand : PagedStage → Option Answer → List (Action × Json)
  | .storing _ rest _, _ => created rest
  | .asking _, some (.page (some page)) => created page.items
  | .listening, some (.event event) => event.change?.toList
  | _, _ => []

@[simp] theorem remaining_storing (object : Json) (rest : List Json) (page : ListPage) :
    (storing object rest page).remaining = created (object :: rest) := rfl

@[simp] theorem remaining_delivering (action : Action) (object : Json) :
    (delivering action object).remaining = [(action, object)] := rfl

variable {stage : PagedStage}

theorem left_of_waits (h : stage.waits = true) : stage.left = [] := by
  cases stage <;> first | rfl | cases h

theorem inHand_none_of_waits (h : stage.waits = true) : stage.inHand none = [] := by
  cases stage <;> first | rfl | cases h

/-- `inHand` is the same for no answer as for `.handled`, which brings nothing. -/
theorem inHand_or_handled (stage : PagedStage) (x : Option Answer) :
    stage.inHand (x.or (some .handled)) = stage.inHand x := by
  cases x with
  | some answer => rfl
  | none => cases stage <;> rfl

end PagedStage

/-! ## What the notes say -/

namespace WatchNote

/-- Whether the source was asked for something. -/
def isRequest : WatchNote → Bool
  | .asked (.page ..) | .asked (.watch _) => true
  | .asked _ | .came _ | .left | .resync | .cancel => false

/-- What was handed over. -/
def handed? : WatchNote → Option (Action × Json)
  | .asked (.handle action object) => some (action, object)
  | .asked _ | .came _ | .left | .resync | .cancel => none

/-- What came. -/
def answer? : WatchNote → Option Answer
  | .came answer => some answer
  | .asked _ | .left | .resync | .cancel => none

end WatchNote

/-- What was handed over, in that order. -/
def handed (notes : List WatchNote) : List (Action × Json) :=
  notes.reverse.filterMap WatchNote.handed?

/-- What came, in that order. -/
def came (notes : List WatchNote) : List Answer := notes.reverse.filterMap WatchNote.answer?

section Notes

variable (w : PagedWatcher) (x : Option Answer) (new old : List WatchNote)

theorem handed_append : handed (new ++ old) = handed old ++ handed new := by
  rw [handed, List.reverse_append, List.filterMap_append]
  rfl

theorem came_append : came (new ++ old) = came old ++ came new := by
  rw [came, List.reverse_append, List.filterMap_append]
  rfl

variable {new} in
theorem handed_cons_of_none {n : WatchNote} (h : n.handed? = none) :
    handed (n :: new) = handed new := by
  simp [handed, h]

variable {new} in
theorem came_cons_of_none {n : WatchNote} (h : n.answer? = none) :
    came (n :: new) = came new := by
  simp [came, h]

theorem handed_notes : handed (w.notes x) = w.stage.inCall := by
  unfold handed PagedWatcher.notes PagedWatcher.wait
  cases w.stage <;> cases x <;> rfl

theorem came_notes : came (w.notes x) = x.toList := by
  unfold came PagedWatcher.notes
  cases w.wait <;> cases x <;> rfl

end Notes

/-! ## Strides of a cancelled watcher -/

namespace PagedWatcher

variable {w w' : PagedWatcher} {s : Signals} {x : Option Answer}

theorem store_of_cancelled (w : PagedWatcher) (hcancelled : s.cancelled = true) (page : ListPage)
    (rest : List Json) :
    (w.store s page rest).stage.waits = false ∧
      (w.store s page rest).stage.remaining = created rest := by
  rcases w.store_cases s page rest with ⟨object, later, rfl, h⟩ | ⟨rfl, _, -, -, h⟩ |
    ⟨-, _, -, goes, -⟩ | ⟨rfl, -, h⟩
  · rw [h]
    exact ⟨rfl, rfl⟩
  · rw [h]
    exact ⟨rfl, rfl⟩
  · cases goes.symm.trans hcancelled
  · rw [h]
    exact ⟨rfl, rfl⟩

theorem listen_of_cancelled (w : PagedWatcher) (hcancelled : s.cancelled = true) :
    w.listen s = w.stop := if_pos hcancelled

/-- A `Stride` of a cancelled watcher comes to no further wait. What is `remaining` is what was
`inHand` with the answer, or what was `left`. -/
theorem Stride.remaining_eq (h : Stride s w x w') (hcancelled : s.cancelled = true) :
    w'.stage.waits = false ∧
      ((w.stage.waits = true ∧ w'.stage.remaining = w.stage.inHand x) ∨
        (w.stage.waits = false ∧ w'.stage.remaining = w.stage.left ∧
          (x = none ∨ x = some .handled))) := by
  cases h with
  -- From a state of rest the watcher stops: each of its other moves asks whether it may go on.
  | stop idle =>
    rw [idle]
    exact ⟨rfl, Or.inr ⟨rfl, rfl, Or.inl rfl⟩⟩
  | init _ _ goes | list _ _ goes | connect _ _ goes | pause _ _ _ goes =>
    cases goes.symm.trans hcancelled
  | unlisted token stage =>
    rw [stage]
    exact ⟨rfl, Or.inl ⟨rfl, rfl⟩⟩
  -- The objects of a page are handed over one by one, and no further page is asked for.
  | paged token page stage =>
    rw [stage]
    obtain ⟨hwaits, hremaining⟩ := store_of_cancelled { w with backoff := w.backoff.reset }
      hcancelled page page.items
    exact ⟨hwaits, Or.inl ⟨rfl, hremaining⟩⟩
  | stored object rest page stage =>
    rw [stage]
    obtain ⟨hwaits, hremaining⟩ := w.store_of_cancelled hcancelled page rest
    exact ⟨hwaits, Or.inr ⟨rfl, hremaining, Or.inr rfl⟩⟩
  -- A stream that was opened is left at the first look at the signals.
  | opened stage =>
    rw [listen_of_cancelled _ hcancelled, stage]
    exact ⟨rfl, Or.inl ⟨rfl, rfl⟩⟩
  | unopened stage =>
    rw [stage]
    exact ⟨rfl, Or.inl ⟨rfl, rfl⟩⟩
  -- The change that an event brought is in hand; a mark or the end of a stream brings none.
  | changed event action object stage change =>
    rw [stage, PagedStage.inHand, change]
    exact ⟨rfl, Or.inl ⟨rfl, rfl⟩⟩
  | marked version stage =>
    rw [listen_of_cancelled _ hcancelled, stage]
    exact ⟨rfl, Or.inl ⟨rfl, rfl⟩⟩
  | ended event stage last =>
    have hnone : event.change? = none := by
      cases event <;> first | rfl | cases last
    rw [stage, PagedStage.inHand, hnone]
    exact ⟨rfl, Or.inl ⟨rfl, rfl⟩⟩
  | delivered action object stage =>
    rw [listen_of_cancelled _ hcancelled, stage]
    exact ⟨rfl, Or.inr ⟨rfl, rfl, Or.inr rfl⟩⟩
  | rested delay stage =>
    rw [stage]
    exact ⟨rfl, Or.inl ⟨rfl, rfl⟩⟩

/-- A `Stride` has an answer only if the watcher had a `wait`. -/
theorem Stride.length_answer_le (h : Stride s w x w') :
    x.toList.length ≤ w.wait.toList.length := by
  cases x with
  | none => exact Nat.zero_le _
  | some answer =>
    have hwait : w.wait ≠ none := fun hidle =>
      nomatch h.eq_none_iff.mpr (w.stage_eq_idle_iff.mp hidle)
    obtain ⟨r, hr⟩ := Option.ne_none_iff_exists'.mp hwait
    rw [hr]
    exact Nat.le_refl 1

/-- A watcher whose stage does not wait for the source waits for its handler, if for anything: one
for each call in `inCall`. -/
theorem length_wait_eq (hw : w.stage.waits = false) :
    w.wait.toList.length = w.stage.inCall.length := by
  unfold wait
  cases hstage : w.stage with
  | asking | opening | listening | resting =>
    rw [hstage] at hw
    cases hw
  | idle | storing | delivering => rfl

/-- A watcher whose stage does not wait notes no request to the source. -/
theorem isRequest_of_mem_notes (hw : w.stage.waits = false) {n : WatchNote} (h : n ∈ w.notes x) :
    n.isRequest = false := by
  rcases mem_notes.mp h with ⟨r, hr, rfl⟩ | ⟨a, -, rfl⟩
  · cases hstage : w.stage with
    | asking | opening | listening | resting =>
      rw [hstage] at hw
      cases hw
    | idle =>
      rw [w.stage_eq_idle_iff.mpr hstage] at hr
      cases hr
    | storing | delivering =>
      simp only [wait, hstage, Option.some.injEq] at hr
      subst hr
      rfl
  · rfl

/-- A wait that is given up has nothing `left` in hand. -/
theorem left_of_leave (h : w.interrupted s ≠ w) : w.stage.left = [] := by
  cases hstage : w.stage with
  | storing => exact absurd (by simp only [interrupted, hstage]) h
  | idle | asking | opening | listening | delivering | resting => rfl

end PagedWatcher

/-! ## After a cancellation -/

/-- A watcher that was cancelled at a `stage`, after these notes: it has asked the source for
nothing, what it has `handed` over and has still to hand over is what was in hand, a wait is the one
in which it was cancelled, and one answer alone has come or may come besides those of the handler.
-/
structure Fading (stage : PagedStage) (w : PagedWatcher) (new : List WatchNote) : Prop where
  quiet : ∀ n ∈ new, n.isRequest = false
  accounts : handed new ++ w.stage.left = stage.inHand (came new).head?
  waiting : w.stage.waits = true → w.stage = stage ∧ came new = []
  answers : (came new).length + w.wait.toList.length ≤ (handed new).length + 1

namespace Fading

variable {stage : PagedStage} {w w' : PagedWatcher} {s : Signals} {x : Option Answer}
  {new : List WatchNote}

theorem start (w : PagedWatcher) : Fading w.stage w [] where
  quiet := nofun
  accounts := by
    show w.stage.left = w.stage.inHand none
    cases w.stage <;> rfl
  waiting _ := ⟨rfl, rfl⟩
  answers := by
    show 0 + w.wait.toList.length ≤ 0 + 1
    rw [Nat.zero_add]
    exact Option.length_toList_le

/-- While a watcher waits nothing has been `handed` over since it was cancelled. -/
theorem handed_eq_nil (h : Fading stage w new) (hwaits : w.stage.waits = true) :
    handed new = [] := by
  obtain ⟨hstage, hcame⟩ := h.waiting hwaits
  have haccounts := h.accounts
  rw [hcame, List.head?_nil, ← hstage, PagedStage.left_of_waits hwaits,
    PagedStage.inHand_none_of_waits hwaits, List.append_nil] at haccounts
  exact haccounts

/-- A `Stride` of a cancelled watcher keeps `Fading`. -/
theorem stride (h : Fading stage w new) (hcancelled : s.cancelled = true)
    (hstride : PagedWatcher.Stride s w x w') : Fading stage w' (w'.notes x ++ new) := by
  obtain ⟨hwaits, hremaining⟩ := hstride.remaining_eq hcancelled
  refine ⟨fun n hn => ?_, ?_, fun hwaits' => ?_, ?_⟩
  · rcases List.mem_append.mp hn with hn | hn
    · exact PagedWatcher.isRequest_of_mem_notes hwaits hn
    · exact h.quiet n hn
  · rw [handed_append, came_append, handed_notes, came_notes, List.append_assoc, List.head?_append]
    show handed new ++ w'.stage.remaining = _
    rcases hremaining with ⟨hwaiting, heq⟩ | ⟨-, heq, hx⟩
    · -- What has come is the first thing that came, at the stage of the cancellation.
      obtain ⟨hstage, hcame⟩ := h.waiting hwaiting
      rw [h.handed_eq_nil hwaiting, heq, hcame, hstage, Option.head?_toList]
      rfl
    · rw [heq, h.accounts]
      rcases hx with rfl | rfl
      · rw [Option.toList_none, List.head?_nil, Option.or_none]
      · exact (PagedStage.inHand_or_handled stage (came new).head?).symm
  · rw [hwaits] at hwaits'
    cases hwaits'
  · have hanswers := h.answers
    rw [handed_append, came_append, handed_notes, came_notes, List.length_append,
      List.length_append, PagedWatcher.length_wait_eq hwaits]
    have hx := hstride.length_answer_le
    omega

/-- `Fading` is kept by a note that was neither handed over nor came. -/
theorem aside (h : Fading stage w new) {n : WatchNote} (hrequest : n.isRequest = false)
    (hhanded : n.handed? = none) (hanswer : n.answer? = none) : Fading stage w (n :: new) where
  quiet m hm := by
    rcases List.mem_cons.mp hm with rfl | hm
    · exact hrequest
    · exact h.quiet m hm
  accounts := by
    rw [handed_cons_of_none hhanded, came_cons_of_none hanswer]
    exact h.accounts
  waiting := by
    rw [came_cons_of_none hanswer]
    exact h.waiting
  answers := by
    rw [handed_cons_of_none hhanded, came_cons_of_none hanswer]
    exact h.answers

/-- `Fading` is kept by a wait that is given up: the watcher stops. -/
theorem leave (h : Fading stage w new) (hcancelled : s.cancelled = true)
    (leaves : w.interrupted s ≠ w) : Fading stage (w.interrupted s) (.left :: new) := by
  have hstop : w.interrupted s = w.stop := by
    rcases PagedWatcher.leave_cases leaves with ⟨-, hw⟩ | ⟨-, goes, -, -⟩
    · exact hw
    · cases goes.symm.trans hcancelled
  have haccounts := h.accounts
  rw [PagedWatcher.left_of_leave leaves] at haccounts
  have hstopped : Fading stage w.stop new :=
    { quiet := h.quiet
      accounts := haccounts
      waiting := fun hwaits => by cases hwaits
      answers := Nat.le_trans (Nat.le_add_right ..) h.answers }
  rw [hstop]
  exact hstopped.aside rfl rfl rfl

end Fading

/-! ## Whatever happens -/

namespace Vigil

/-- A `Vigil` some time after its watcher was cancelled at a `stage`, before which the `old` notes
were there. -/
structure Cancelled (stage : PagedStage) (old : List WatchNote) (v : Vigil) : Prop where
  cancelled : v.signals.cancelled = true
  fading : ∃ new, v.past = new ++ .cancel :: old ∧ Fading stage v.watcher new

theorem Cancelled.goOn {stage : PagedStage} {old : List WatchNote} {v : Vigil} {x : Option Answer}
    {w : PagedWatcher} (h : v.Cancelled stage old) (hstride : v.watcher.Stride v.signals x w) :
    (v.goOn x w).Cancelled stage old := by
  obtain ⟨hcancelled, new, hpast, hfading⟩ := h
  refine ⟨hcancelled, w.notes x ++ new, ?_, hfading.stride hcancelled hstride⟩
  rw [List.append_assoc, ← hpast]
  rfl

theorem Cancelled.step {stage : PagedStage} {old : List WatchNote} {v v' : Vigil} {o : Occasion}
    (h : v.Cancelled stage old) (hstep : Step v o v') : v'.Cancelled stage old := by
  cases hstep with
  | begin _ stride | answer stride => exact h.goOn stride
  | stay => exact h
  | leave leaves =>
    obtain ⟨hcancelled, new, hpast, hfading⟩ := h
    exact ⟨hcancelled, .left :: new, by rw [List.cons_append, ← hpast],
      hfading.leave hcancelled leaves⟩
  | resync =>
    obtain ⟨hcancelled, new, hpast, hfading⟩ := h
    exact ⟨hcancelled, .resync :: new, by rw [List.cons_append, ← hpast],
      hfading.aside rfl rfl rfl⟩
  | cancel =>
    obtain ⟨-, new, hpast, hfading⟩ := h
    exact ⟨rfl, .cancel :: new, by rw [List.cons_append, ← hpast], hfading.aside rfl rfl rfl⟩
  | disconnect => exact ⟨h.cancelled, h.fading⟩

/-! ## The end of the step under way -/

/-- The answer `.handled` leaves one object less `remaining`. -/
theorem exists_handled {v : Vigil} (hcancelled : v.signals.cancelled = true) {n : Nat}
    (h : v.watcher.stage.remaining.length = n + 1) :
    ∃ v', v.next? (.answer .handled) = some v' ∧ v'.signals = v.signals ∧
      v'.watcher.stage.remaining.length = n := by
  cases hstage : v.watcher.stage with
  | idle | asking | opening | listening | resting =>
    rw [hstage] at h
    cases h
  | storing object rest page =>
    obtain rfl : rest.length = n := by simpa [hstage, created] using h
    refine ⟨v.goOn (some .handled) (v.watcher.store v.signals page rest), ?_, rfl, ?_⟩
    · simp [next?, PagedWatcher.wait, hstage, Answer.answers, PagedWatcher.answered]
    · obtain ⟨-, hremaining⟩ := v.watcher.store_of_cancelled hcancelled page rest
      show (v.watcher.store v.signals page rest).stage.remaining.length = _
      rw [hremaining, created, List.length_map]
  | delivering action object =>
    obtain rfl : n = 0 := by simpa [hstage] using h
    refine ⟨v.goOn (some .handled) (v.watcher.listen v.signals), ?_, rfl, ?_⟩
    · simp [next?, PagedWatcher.wait, hstage, Answer.answers, PagedWatcher.answered]
    · rw [PagedWatcher.listen_of_cancelled v.watcher hcancelled]
      rfl

/-- With nothing `remaining`, a `.look` ends the step. -/
theorem exists_look {v : Vigil} (hcancelled : v.signals.cancelled = true)
    (h : v.watcher.stage.remaining.length = 0) :
    ∃ v', v.next? .look = some v' ∧ v'.watcher.wait = none := by
  cases hstage : v.watcher.stage with
  | storing | delivering =>
    rw [hstage] at h
    cases h
  | idle =>
    have hstays : v.watcher.interrupted v.signals = v.watcher := by
      simp only [PagedWatcher.interrupted, hstage]
    exact ⟨v, if_pos hstays, v.watcher.stage_eq_idle_iff.mpr hstage⟩
  | asking | opening | listening | resting =>
    have hstops : v.watcher.interrupted v.signals = v.watcher.stop := by
      simp [PagedWatcher.interrupted, PagedWatcher.listen, hstage, hcancelled]
    have hleaves : v.watcher.interrupted v.signals ≠ v.watcher := by
      rw [hstops]
      intro heq
      rw [← heq] at hstage
      cases hstage
    exact ⟨_, if_neg hleaves, PagedWatcher.wait_of_leave hleaves⟩

/-- The step under way ends after one `.handled` for each object that is `remaining` and a `.look`;
nothing has to come from the source. -/
theorem exists_return {v : Vigil} (hcancelled : v.signals.cancelled = true) :
    ∃ v', v.run? (List.replicate v.watcher.stage.remaining.length (.answer .handled) ++ [.look]) =
        some v' ∧ v'.watcher.wait = none := by
  generalize hcalls : v.watcher.stage.remaining.length = n
  induction n generalizing v with
  | zero =>
    obtain ⟨v', hnext, hidle⟩ := exists_look hcancelled hcalls
    refine ⟨v', ?_, hidle⟩
    simp [run?, hnext]
  | succ n ih =>
    obtain ⟨v₁, hnext, hsignals, hcalls₁⟩ := exists_handled hcancelled hcalls
    obtain ⟨v', hrun, hidle⟩ := ih (hsignals ▸ hcancelled) hcalls₁
    refine ⟨v', ?_, hidle⟩
    rw [List.replicate_succ, List.cons_append, run?, List.foldlM_cons, hnext]
    exact hrun

/-- A step that begins after a cancellation stops at once: `next?` makes the watcher `stop`. -/
theorem next?_begin_of_cancelled {v : Vigil} (hcancelled : v.signals.cancelled = true)
    (hidle : v.watcher.wait = none) :
    v.next? .begin = some { v with watcher := { v.watcher with phase := .stopped } } := by
  have hstage := v.watcher.stage_eq_idle_iff.mp hidle
  have hbegin : v.watcher.begin v.signals = { v.watcher with phase := .stopped } := by
    rw [PagedWatcher.begin, if_pos hcancelled, PagedWatcher.stop, PagedWatcher.settle, ← hstage]
  have hnotes : PagedWatcher.notes { v.watcher with phase := .stopped } none = [] := by
    rw [PagedWatcher.notes]
    exact congrArg (fun r => (Option.map WatchNote.asked r).toList ++ []) hidle
  rw [next?, if_pos hidle, hbegin, goOn, hnotes]
  rfl

/-- In a `run?` that begins with `.cancel`, in whatever state the watcher is: from then on it asks
the source for no page and no stream, and what it has `handed` over is what was `inHand`, from the
first object on, and nothing else. The step under way ends after one answer more than there are
objects in hand, if no look at the signals has ended it before, and such a look does so whenever no
object is at the handler. Every later step stops and changes nothing. -/
theorem cancelled_at_once {v v' : Vigil} {occasions : List Occasion}
    (h : v.run? (.cancel :: occasions) = some v') :
    (∃ new, v'.past = new ++ .cancel :: v.past ∧ (∀ n ∈ new, n.isRequest = false) ∧
      handed new <+: v.watcher.stage.inHand (came new).head? ∧
      (came new).length + v'.watcher.wait.toList.length ≤
        (v.watcher.stage.inHand (came new).head?).length + 1) ∧
    (∃ v'', v'.run?
        (List.replicate v'.watcher.stage.remaining.length (.answer .handled) ++ [.look]) =
        some v'' ∧ v''.watcher.wait = none) ∧
    (v'.watcher.wait = none →
      v'.next? .begin = some { v' with watcher := { v'.watcher with phase := .stopped } }) := by
  rw [run?, List.foldlM_cons] at h
  obtain ⟨v₀, hcancel, hrun⟩ := Option.bind_eq_some_iff.mp h
  obtain rfl := Option.some.inj hcancel
  have hstart : Cancelled v.watcher.stage v.past { v with
      signals := { v.signals with cancelled := true }, past := .cancel :: v.past } :=
    ⟨rfl, [], rfl, .start v.watcher⟩
  obtain ⟨hcancelled, new, hpast, hfading⟩ := run?_preserves Cancelled.step hstart hrun
  have hhanded : handed new <+: v.watcher.stage.inHand (came new).head? := ⟨_, hfading.accounts⟩
  exact ⟨⟨new, hpast, hfading.quiet, hhanded,
      Nat.le_trans hfading.answers (Nat.succ_le_succ hhanded.length_le)⟩,
    exists_return hcancelled, next?_begin_of_cancelled hcancelled⟩

/-- The first of two objects of a page is at the handler; another page is to follow. -/
def midPage : List Occasion :=
  [.begin, .begin, .answer (.page (some ⟨[.bool false, .bool true], "", some "next"⟩))]

theorem cancelled_at_once_midPage : ∃ v v' new,
    (start 2 (.new (.ofSeconds 1) (.ofSeconds 30)) false 0).run? midPage = some v ∧
      v.run? [.cancel, .answer .handled] = some v' ∧
      v'.past = new ++ .cancel :: v.past ∧ handed new = [(.create, .bool true)] ∧
      ∃ v'', v'.run? [.answer .handled, .look] = some v'' ∧ v''.watcher.wait = none := by
  have hrun : ((start 2 (.new (.ofSeconds 1) (.ofSeconds 30)) false 0).run? midPage).map
      (fun v => (v.past, (v.run? [.cancel, .answer .handled]).map
        fun v' => (v'.past, v'.watcher.stage.remaining.length))) =
        some ([.asked (.handle .create (.bool false)),
            .came (.page (some ⟨[.bool false, .bool true], "", some "next"⟩)),
            .asked (.page 2 none)],
          some ([.asked (.handle .create (.bool true)), .came .handled] ++ .cancel ::
            [.asked (.handle .create (.bool false)),
              .came (.page (some ⟨[.bool false, .bool true], "", some "next"⟩)),
              .asked (.page 2 none)], 1)) := by
    decide +kernel
  obtain ⟨v, hv, hcut⟩ := Option.map_eq_some_iff.mp hrun
  obtain ⟨hpast, hlater⟩ := Prod.mk.inj hcut
  obtain ⟨v', hv', hend⟩ := Option.map_eq_some_iff.mp hlater
  obtain ⟨hpast', hcalls⟩ := Prod.mk.inj hend
  obtain ⟨-, hreturn, -⟩ := cancelled_at_once hv'
  rw [hcalls] at hreturn
  exact ⟨v, v', _, hv, hv', hpast'.trans (by rw [hpast]), rfl, hreturn⟩

end Vigil
end InventorySync
