import InventorySync.Proofs.Doubling
import InventorySync.Proofs.Vigil

/-!
# Delays between attempts

After a list or the opening of a stream has failed, a paged watcher rests before the next attempt,
and rests longer after every further failure. What ends such a series is a page that comes or a
stream that opens; a page does so even when the list it belongs to fails later on, so that a list
that always fails on a later page is tried again and again after the same short rest.

## Key results

- `Rests.stride`: what a watcher rests, for every stride
- `Vigil.rests_by_failures`: every failure is followed by a rest for the failures since the last
  page or stream, and this counts the failures since the last full list or stream exactly if none of
  them came before a page
-/

namespace InventorySync

/-! ## Attempts and rests in the notes -/

namespace WatchNote

/-- Whether an attempt begins: the first page of a list or a stream is asked for. -/
def attempts : WatchNote → Bool
  | .asked (.page _ none) | .asked (.watch _) => true
  | .asked _ | .came _ | .left | .resync | .cancel => false

/-- Whether an attempt has failed: a list on any of its pages, or the opening of a stream. -/
def isFailure : WatchNote → Bool
  | .came (.page none) | .came (.opened false) => true
  | .asked _ | .came _ | .left | .resync | .cancel => false

/-- Whether the last page of a list came; with its objects the list is complete. -/
def endsList : WatchNote → Bool
  | .came (.page (some page)) => page.next.isNone
  | .asked _ | .came _ | .left | .resync | .cancel => false

/-- Whether an attempt was a success: a full list, or a stream that opened. -/
def isSuccess : WatchNote → Bool
  | .came (.opened true) => true
  | n => n.endsList

/-- Whether a page came or a stream was opened. -/
def eases : WatchNote → Bool
  | .came (.page (some _)) | .came (.opened true) => true
  | .asked _ | .came _ | .left | .resync | .cancel => false

/-- Whether it is about a page, the opening of a stream, or a rest. -/
def isEffort : WatchNote → Bool
  | .asked (.page ..) | .asked (.watch _) | .asked (.sleep _) => true
  | .came (.page _) | .came (.opened _) | .came .rested => true
  | .asked _ | .came _ | .left | .resync | .cancel => false

variable {n : WatchNote}

theorem eases_of_isSuccess (h : n.isSuccess = true) : n.eases = true := by
  unfold isSuccess at h
  split at h
  · rfl
  · unfold endsList at h
    split at h
    · rfl
    all_goals cases h

theorem eases_of_isFailure (h : n.isFailure = true) : n.eases = false ∧ n.isEffort = true := by
  unfold isFailure at h
  split at h
  · exact ⟨rfl, rfl⟩
  · exact ⟨rfl, rfl⟩
  all_goals cases h

theorem isFailure_of_eases (h : n.eases = true) : n.isFailure = false ∧ n.isEffort = true := by
  unfold eases at h
  split at h
  · exact ⟨rfl, rfl⟩
  · exact ⟨rfl, rfl⟩
  all_goals cases h

end WatchNote

/-- The attempts with what came of them, and the rests, the newest first. -/
def efforts (past : List WatchNote) : List WatchNote := past.filter (·.isEffort)

theorem efforts_append (new old : List WatchNote) :
    efforts (new ++ old) = efforts new ++ efforts old := List.filter_append ..

/-- How many attempts have failed since the last note of a kind. -/
def failuresSince (ends : WatchNote → Bool) (past : List WatchNote) : Nat :=
  (past.takeWhile (!ends ·)).countP (·.isFailure)

section FailuresSince

variable {ends : WatchNote → Bool} {n : WatchNote} {notes past : List WatchNote}

theorem failuresSince_cons_of_ends (h : ends n = true) : failuresSince ends (n :: past) = 0 := by
  simp [failuresSince, h]

theorem failuresSince_cons_of_failure (hn : n.isFailure = true) (h : ends n = false) :
    failuresSince ends (n :: past) = failuresSince ends past + 1 := by
  simp [failuresSince, h, hn]

theorem failuresSince_append (h : ∀ n ∈ notes, ends n = false ∧ n.isFailure = false) :
    failuresSince ends (notes ++ past) = failuresSince ends past := by
  induction notes with
  | nil => rfl
  | cons n notes ih =>
    obtain ⟨⟨hends, hfailure⟩, hrest⟩ := List.forall_mem_cons.mp h
    rw [← ih hrest]
    simp [failuresSince, hends, hfailure]

/-- `failuresSince` the last page or stream are all the failures since the last success exactly if
none of these came before a page. -/
theorem failuresSince_eases_eq_iff (past : List WatchNote) :
    failuresSince (·.eases) past = failuresSince (·.isSuccess) past ↔
      ∀ n ∈ (past.takeWhile (!·.isSuccess)).dropWhile (!·.eases), n.isFailure = false := by
  -- A success eases, so the last page or stream comes no earlier than the last success.
  have hwithin : (past.takeWhile (!·.isSuccess)).takeWhile (!·.eases) =
      past.takeWhile (!·.eases) := by
    induction past with
    | nil => rfl
    | cons n past ih =>
      cases hsuccess : n.isSuccess with
      | true => simp [hsuccess, WatchNote.eases_of_isSuccess hsuccess]
      | false => cases heases : n.eases <;> simp [hsuccess, heases, ih]
  have hsplit : failuresSince (·.isSuccess) past = failuresSince (·.eases) past +
      ((past.takeWhile (!·.isSuccess)).dropWhile (!·.eases)).countP (·.isFailure) := by
    rw [failuresSince, failuresSince, ← hwithin, ← List.countP_append,
      List.takeWhile_append_dropWhile]
  rw [hsplit, Nat.left_eq_add, List.countP_eq_zero]
  simp only [Bool.not_eq_true]

end FailuresSince

/-! ## What a stride does to the delay -/

namespace PagedWatcher

variable {w w' : PagedWatcher} {s : Signals} {x : Option Answer}

@[simp] theorem backoff_store (w : PagedWatcher) (s : Signals) (page : ListPage)
    (rest : List Json) : (w.store s page rest).backoff = w.backoff := by
  rcases w.store_cases s page rest with ⟨_, _, -, h⟩ | ⟨-, _, -, -, h⟩ | ⟨-, _, -, -, h⟩ | ⟨-, -, h⟩
  · rw [h]
  · rw [h, stop, settle]
  · rw [h]
  · rw [h, settle]

@[simp] theorem backoff_listen (w : PagedWatcher) (s : Signals) :
    (w.listen s).backoff = w.backoff := by
  rcases w.listen_cases s with ⟨-, h⟩ | ⟨-, -, h⟩ | ⟨-, -, h⟩
  · rw [h, stop, settle]
  · rw [h, relist, settle, catchUp]
  · rw [h]

/-- A `Stride` with a failure takes the delay for its rest and moves `backoff` on, one that `eases`
resets it; no other touches it. -/
theorem Stride.delay_cases (h : Stride s w x w') :
    (∃ a, x = some a ∧ (WatchNote.came a).isFailure = true ∧ w'.stage = .idle ∧
      w'.phase = .backoff w.backoff.next.1 ∧ w'.backoff = w.backoff.next.2) ∨
    (∃ a, x = some a ∧ (WatchNote.came a).eases = true ∧ w'.backoff = w.backoff.reset) ∨
    ((∀ a, x = some a → (WatchNote.came a).eases = false ∧ (WatchNote.came a).isFailure = false) ∧
      w'.backoff = w.backoff) := by
  cases h with
  -- A failure takes the delay for its rest, and moves it on.
  | unlisted | unopened =>
    rw [rest_eq]
    exact Or.inl ⟨_, rfl, rfl, rfl, rfl, rfl⟩
  -- A page or a stream starts the delay again.
  | paged token page => exact Or.inr (Or.inl ⟨_, rfl, rfl, backoff_store _ s page page.items⟩)
  | opened => exact Or.inr (Or.inl ⟨_, rfl, rfl, backoff_listen _ s⟩)
  -- Nothing else comes of an attempt, and the delay stays.
  | stop | init | list | connect | pause => exact Or.inr (Or.inr ⟨nofun, rfl⟩)
  | rested => exact Or.inr (Or.inr ⟨fun a h => by cases h; exact ⟨rfl, rfl⟩, rfl⟩)
  | ended => exact Or.inr (Or.inr ⟨fun a h => by cases h; exact ⟨rfl, rfl⟩, rfl⟩)
  | stored object rest page =>
    exact Or.inr (Or.inr ⟨fun a h => by cases h; exact ⟨rfl, rfl⟩, backoff_store w s page rest⟩)
  | delivered =>
    exact Or.inr (Or.inr ⟨fun a h => by cases h; exact ⟨rfl, rfl⟩, backoff_listen w s⟩)
  | changed event action object =>
    obtain ⟨cursor, hcursor⟩ := w.exists_advance (objectVersion object)
    refine Or.inr (Or.inr ⟨fun a h => by cases h; exact ⟨rfl, rfl⟩, ?_⟩)
    rw [deliver, hcursor]
  | marked version =>
    obtain ⟨cursor, hcursor⟩ := w.exists_advance version
    refine Or.inr (Or.inr ⟨fun a h => by cases h; exact ⟨rfl, rfl⟩, ?_⟩)
    rw [hcursor]
    exact backoff_listen _ s

end PagedWatcher

/-! ## What follows a failure -/

/-- The delay after a failure, from what came before the failure. -/
def IsDelay (initial limit : Duration) (older : List WatchNote) (d : Duration) : Prop :=
  d.toNanos = min (initial.toNanos * 2 ^ failuresSince (·.eases) older) limit.toNanos

/-- What has followed a failure, the newest first, and where the watcher stands then: the rest is
`due`, under way (`asleep`), or over (`awake`), or it was followed by the next attempt (`again`). -/
inductive Follows (d : Duration) (w : PagedWatcher) : List WatchNote → Prop
  | due (stage : w.stage = .idle) (phase : w.phase = .backoff d) : Follows d w []
  | asleep (stage : w.stage = .resting d) : Follows d w [.asked (.sleep d)]
  | awake (stage : w.stage = .idle) (phase : w.phase = .listing ∨ w.phase = .watching) :
    Follows d w [.came .rested, .asked (.sleep d)]
  | again (later : List WatchNote) (n : WatchNote) (attempts : n.attempts = true) :
    Follows d w (later ++ [n, .came .rested, .asked (.sleep d)])

/-- A `Stride` keeps `Follows`: up to the next attempt a watcher does nothing but rest. -/
theorem Follows.stride {d : Duration} {w w' : PagedWatcher} {s : Signals} {x : Option Answer}
    {newer : List WatchNote} (h : Follows d w newer) (goes : s.cancelled = false)
    (hstride : PagedWatcher.Stride s w x w') : Follows d w' (efforts (w'.notes x) ++ newer) := by
  have hgoes : ¬ s.cancelled = true := by simp [goes]
  cases h with
  -- The rest is due: the watcher asks to sleep, since only that is possible in its phase.
  | due stage phase =>
    obtain rfl := hstride.eq_none_iff.mpr stage
    cases hstride with
    | pause delay idle phase' =>
      obtain rfl : d = delay := Phase.backoff.inj (phase.symm.trans phase')
      exact .asleep rfl
    | stop _ ending => exact absurd (ending.resolve_left hgoes) (by simp [phase])
    | init _ phase' | list _ phase' | connect _ phase' => cases phase.symm.trans phase'
  -- It is asleep: no answer but the end of its sleep fits.
  | asleep stage =>
    cases hstride with
    | rested delay stage' =>
      refine .awake rfl ?_
      show (if w.cursor = "" then Phase.listing else .watching) = _ ∨ _
      split
      · exact Or.inl rfl
      · exact Or.inr rfl
    | stop stage' | init stage' | list stage' | connect stage' | pause _ stage'
    | unlisted _ stage' | paged _ _ stage' | stored _ _ _ stage' | opened stage' | unopened stage'
    | changed _ _ _ stage' | marked _ stage' | ended _ stage' | delivered _ _ stage' =>
      cases stage.symm.trans stage'
  -- It is awake: what comes next is the next attempt, a list or a stream.
  | awake stage phase =>
    obtain rfl := hstride.eq_none_iff.mpr stage
    cases hstride with
    | list => exact .again [] _ rfl
    | connect => exact .again [] _ rfl
    | stop _ ending =>
      rw [ending.resolve_left hgoes] at phase
      rcases phase with phase | phase <;> cases phase
    | init _ phase' | pause _ _ phase' =>
      rw [phase'] at phase
      rcases phase with phase | phase <;> cases phase
  | again later n attempts =>
    rw [← List.append_assoc]
    exact .again _ n attempts

/-- A wait that is given up keeps `Follows`: it is one on a stream, after the next attempt. -/
theorem Follows.leave {d : Duration} {w : PagedWatcher} {s : Signals} {newer : List WatchNote}
    (h : Follows d w newer) (goes : s.cancelled = false) (leaves : w.interrupted s ≠ w) :
    Follows d (w.interrupted s) newer := by
  rcases PagedWatcher.leave_cases leaves with ⟨hcancelled, -⟩ | ⟨hstage, -, -, -⟩
  · cases goes.symm.trans hcancelled
  · cases h with
    | due stage | asleep stage | awake stage => cases stage.symm.trans hstage
    | again later n attempts => exact .again later n attempts

/-! ## The invariant -/

/-- `backoff` is `Grown` by the failures since the last page or stream, and what `Follows` every
failure is the rest that was due. -/
structure Rests (initial limit : Duration) (w : PagedWatcher) (notes : List WatchNote) : Prop where
  grown : w.backoff.Grown initial limit (failuresSince (·.eases) notes)
  follows : ∀ {newer failure older}, notes = newer ++ failure :: older → failure.isFailure = true →
    ∃ d, IsDelay initial limit older d ∧ Follows d w newer

namespace Rests

variable {initial limit : Duration} {w w' : PagedWatcher} {s : Signals} {x : Option Answer}
  {notes : List WatchNote}

theorem start (initial limit : Duration) (pageSize : Nat) (seen : Option Nat) :
    Rests initial limit (.new pageSize (.new initial limit) seen) [] where
  grown := Backoff.grown_new initial limit
  follows h := absurd h (by simp)

/-- What is asked for among the `efforts` is neither a failure nor the end of a series of them; it
is for what comes to be one. -/
theorem neutral_of_mem {n : WatchNote} (h : n ∈ efforts (w.notes x))
    (hx : ∀ a, x = some a →
      (WatchNote.came a).eases = false ∧ (WatchNote.came a).isFailure = false) :
    n.eases = false ∧ n.isFailure = false := by
  obtain ⟨r, -, rfl⟩ | ⟨a, ha, rfl⟩ := PagedWatcher.mem_notes.mp (List.mem_filter.mp h).1
  · exact ⟨rfl, rfl⟩
  · exact hx a ha

/-- An effort that came is the last of the `efforts` of a step. -/
theorem efforts_notes_some (w : PagedWatcher) {a : Answer}
    (ha : (WatchNote.came a).isEffort = true) :
    efforts (w.notes (some a)) = efforts (w.notes none) ++ [.came a] := by
  rw [PagedWatcher.notes_eq, efforts_append]
  simp [efforts, ha]

/-- A `Stride` without a failure extends what `Follows` the failures so far. -/
theorem follows_append (h : Rests initial limit w notes) (goes : s.cancelled = false)
    (hstride : PagedWatcher.Stride s w x w')
    (hnone : ∀ n ∈ efforts (w'.notes x), n.isFailure = false) {newer older : List WatchNote}
    {failure : WatchNote} (hsplit : efforts (w'.notes x) ++ notes = newer ++ failure :: older)
    (hfailure : failure.isFailure = true) :
    ∃ d, IsDelay initial limit older d ∧ Follows d w' newer := by
  have hnot : failure ∉ efforts (w'.notes x) := fun hmem => by
    rw [hnone failure hmem] at hfailure
    cases hfailure
  obtain ⟨between, rfl, hbefore⟩ := exists_of_append_eq_append hnot hsplit
  obtain ⟨d, hdelay, hfollows⟩ := h.follows hbefore hfailure
  exact ⟨d, hdelay, hfollows.stride goes hstride⟩

theorem stride (h : Rests initial limit w notes) (goes : s.cancelled = false)
    (hstride : PagedWatcher.Stride s w x w') :
    Rests initial limit w' (efforts (w'.notes x) ++ notes) := by
  rcases hstride.delay_cases with ⟨a, rfl, hfailure, hstage, hphase, hbackoff⟩ |
    ⟨a, rfl, heases, hbackoff⟩ | ⟨hneutral, hbackoff⟩
  -- A failure is all there is to note, and the rest that it calls for is the delay so far.
  · obtain ⟨hkind, heffort⟩ := WatchNote.eases_of_isFailure hfailure
    have hnotes : efforts (w'.notes (some a)) = [.came a] := by
      rw [efforts_notes_some _ heffort, PagedWatcher.notes, (w'.stage_eq_idle_iff).mpr hstage]
      rfl
    refine ⟨?_, fun {newer failure older} hsplit hfailed => ?_⟩
    · rw [hbackoff, hnotes, List.singleton_append, failuresSince_cons_of_failure hfailure hkind]
      exact h.grown.next
    · rw [hnotes, List.singleton_append] at hsplit
      cases newer with
      | nil =>
        obtain ⟨-, rfl⟩ := List.cons.inj hsplit
        refine ⟨w.backoff.next.1, ?_, .due hstage hphase⟩
        rw [Backoff.next_eq]
        exact h.grown.toNanos_current
      | cons n newer =>
        obtain ⟨rfl, hbefore⟩ := List.cons.inj hsplit
        obtain ⟨d, hdelay, hfollows⟩ := h.follows hbefore hfailed
        have hnext := hfollows.stride goes hstride
        rw [hnotes] at hnext
        exact ⟨d, hdelay, hnext⟩
  -- A page or a stream: what was asked for on the way to it does not count.
  · obtain ⟨hkind, heffort⟩ := WatchNote.isFailure_of_eases heases
    have hasked : ∀ n ∈ efforts (w'.notes none), n.eases = false ∧ n.isFailure = false :=
      fun n hn => neutral_of_mem hn fun _ hnone => by cases hnone
    refine ⟨?_, h.follows_append goes hstride fun n hn => ?_⟩
    · rw [hbackoff, efforts_notes_some _ heffort, List.append_assoc, failuresSince_append hasked,
        List.singleton_append, failuresSince_cons_of_ends heases]
      exact h.grown.reset
    · rw [efforts_notes_some _ heffort] at hn
      rcases List.mem_append.mp hn with hn | hn
      · exact (hasked n hn).2
      · rw [List.mem_singleton.mp hn]
        exact hkind
  -- Nothing came of an attempt, so the failures so far stay those that count.
  · have hnone : ∀ n ∈ efforts (w'.notes x), n.eases = false ∧ n.isFailure = false :=
      fun n hn => neutral_of_mem hn hneutral
    refine ⟨?_, h.follows_append goes hstride fun n hn => (hnone n hn).2⟩
    rw [hbackoff, failuresSince_append hnone]
    exact h.grown

end Rests

/-! ## Full lists -/

namespace PagedWatcher

/-- How many lists are complete once the objects at hand have been handed over. -/
def tally (w : PagedWatcher) : Nat :=
  match w.stage with
  | .storing _ _ page => w.lists + if page.next.isNone then 1 else 0
  | .idle | .asking _ | .opening | .listening | .delivering .. | .resting _ => w.lists

theorem tally_of_idle {w : PagedWatcher} (h : w.stage = .idle) : w.tally = w.lists := by
  simp only [tally, h]

theorem tally_store (w : PagedWatcher) (s : Signals) (page : ListPage) (rest : List Json) :
    (w.store s page rest).tally = w.lists + if page.next.isNone then 1 else 0 := by
  rcases w.store_cases s page rest with ⟨object, later, -, h⟩ | ⟨-, token, hnext, -, h⟩ |
    ⟨-, token, hnext, -, h⟩ | ⟨-, hnext, h⟩
  · rw [h]
    rfl
  · rw [h, hnext]
    rfl
  · rw [h, hnext]
    rfl
  · rw [h, hnext]
    rfl

theorem tally_listen (w : PagedWatcher) (s : Signals) : (w.listen s).tally = w.lists := by
  rcases w.listen_cases s with ⟨-, h⟩ | ⟨-, -, h⟩ | ⟨-, -, h⟩
  · rw [h]
    rfl
  · rw [h]
    rfl
  · rw [h]
    rfl

/-- A `Stride` adds to `tally` for an answer that `endsList`, the last page of a list. -/
theorem Stride.tally_eq {w w' : PagedWatcher} {s : Signals} {x : Option Answer}
    (h : Stride s w x w') :
    w'.tally = w.tally + (x.map WatchNote.came).toList.countP (·.endsList) := by
  -- The last page of a list counts when it comes, and not again when the list is settled.
  cases h with
  | stop idle | init idle | list idle | connect idle | pause _ idle =>
    rw [tally_of_idle idle]
    rfl
  | unlisted _ stage | unopened stage =>
    rw [rest_eq]
    simp [tally, stage, WatchNote.endsList]
  | paged token page stage =>
    rw [tally_store]
    simp [tally, stage, WatchNote.endsList, List.countP_cons]
  | stored object rest page stage =>
    rw [tally_store]
    simp [tally, stage, WatchNote.endsList]
  | opened stage | delivered _ _ stage =>
    rw [tally_listen]
    simp [tally, stage, WatchNote.endsList]
  | changed event action object stage =>
    obtain ⟨cursor, hcursor⟩ := w.exists_advance (objectVersion object)
    rw [deliver, hcursor]
    simp [tally, stage, WatchNote.endsList]
  | marked version stage =>
    obtain ⟨cursor, hcursor⟩ := w.exists_advance version
    rw [tally_listen, hcursor]
    simp [tally, stage, WatchNote.endsList]
  | ended _ stage | rested _ stage =>
    simp [tally, stage, relist, settle, WatchNote.endsList]

/-- `interrupted` leaves `tally` alone: a wait is given up only while no object is handed over. -/
theorem tally_interrupted (w : PagedWatcher) (s : Signals) :
    (w.interrupted s).tally = w.tally := by
  unfold interrupted
  cases hstage : w.stage with
  | asking | opening | resting =>
    dsimp only
    split
    · simp only [tally, hstage, stop, settle]
    · rfl
  | listening =>
    dsimp only
    rw [tally_listen]
    simp only [tally, hstage]
  | idle | storing | delivering => rfl

theorem countP_endsList_notes (w : PagedWatcher) (x : Option Answer) :
    (w.notes x).countP (·.endsList) = (x.map WatchNote.came).toList.countP (·.endsList) := by
  rw [notes, List.countP_append]
  cases w.wait <;> simp [WatchNote.endsList]

end PagedWatcher

namespace Vigil

/-- Lists are complete when their last pages have been handed over. -/
def Tallied (v : Vigil) : Prop := v.watcher.tally = v.past.countP (·.endsList)

theorem Tallied.goOn {v : Vigil} {x : Option Answer} {w : PagedWatcher} (h : v.Tallied)
    (hstride : v.watcher.Stride v.signals x w) : (v.goOn x w).Tallied := by
  show w.tally = (w.notes x ++ v.past).countP (·.endsList)
  rw [hstride.tally_eq, h, List.countP_append, PagedWatcher.countP_endsList_notes, Nat.add_comm]

theorem Tallied.step {v v' : Vigil} {o : Occasion} (h : v.Tallied) (hstep : Step v o v') :
    v'.Tallied := by
  cases hstep with
  | begin _ stride | answer stride => exact h.goOn stride
  | stay => exact h
  | leave leaves => exact (v.watcher.tally_interrupted v.signals).trans h
  | resync | cancel | disconnect => exact h

/-! ## Runs -/

/-- A `Vigil` whose watcher was not cancelled and `Rests` as it should. -/
structure Delayed (initial limit : Duration) (v : Vigil) : Prop where
  goes : v.signals.cancelled = false
  rests : Rests initial limit v.watcher (efforts v.past)

theorem Delayed.goOn {initial limit : Duration} {v : Vigil} {x : Option Answer} {w : PagedWatcher}
    (h : v.Delayed initial limit) (hstride : v.watcher.Stride v.signals x w) :
    (v.goOn x w).Delayed initial limit where
  goes := h.goes
  rests := by
    show Rests initial limit w (efforts (w.notes x ++ v.past))
    rw [efforts_append]
    exact h.rests.stride h.goes hstride

theorem Delayed.step {initial limit : Duration} {v v' : Vigil} {o : Occasion} (ho : o ≠ .cancel)
    (h : v.Delayed initial limit) (hstep : Step v o v') : v'.Delayed initial limit := by
  cases hstep with
  | begin _ stride | answer stride => exact h.goOn stride
  | stay => exact h
  | leave leaves =>
    refine ⟨h.goes, ?_, fun hsplit hfailed => ?_⟩
    · rcases PagedWatcher.leave_cases leaves with ⟨-, hw⟩ | ⟨-, -, -, hw⟩
      · exact hw ▸ h.rests.grown
      · exact hw ▸ h.rests.grown
    · obtain ⟨d, hdelay, hfollows⟩ := h.rests.follows hsplit hfailed
      exact ⟨d, hdelay, hfollows.leave h.goes leaves⟩
  | resync | disconnect => exact ⟨h.goes, h.rests⟩
  | cancel => exact absurd rfl ho

/-- In a `run?` that is not cancelled, every failure of a list or of the opening of a stream is
followed by one rest and then by the next attempt, as `Follows` has it. The rest is the `initial`
delay, doubled for every failure before it since the last page or stream, up to the `limit`; these
are all the failures since the last full list or stream exactly if none of them came before a page.
-/
theorem rests_by_failures {pageSize : Nat} {initial limit : Duration} {listens : Bool}
    {resyncs : Nat} {occasions : List Occasion} {v : Vigil}
    (h : (start pageSize (.new initial limit) listens resyncs).run? occasions = some v)
    (goes : .cancel ∉ occasions) :
    (∀ newer failure older, efforts v.past = newer ++ failure :: older →
      failure.isFailure = true →
      ∃ d, Follows d v.watcher newer ∧
        d.toNanos = min (initial.toNanos * 2 ^ failuresSince (·.eases) older) limit.toNanos ∧
        (failuresSince (·.eases) older = failuresSince (·.isSuccess) older ↔
          ∀ n ∈ (older.takeWhile (!·.isSuccess)).dropWhile (!·.eases), n.isFailure = false)) ∧
    (v.watcher.wait = none → v.watcher.lists = v.past.countP (·.endsList)) := by
  have hkind : ∀ o ∈ occasions, o ≠ .cancel := by
    rintro o hmem rfl
    exact goes hmem
  have hdelayed : v.Delayed initial limit :=
    foldlM_preserves (fun ho hv hnext => hv.step ho (step_of_next? hnext)) hkind
      ⟨rfl, Rests.start initial limit pageSize _⟩ h
  have hstart : (start pageSize (.new initial limit) listens resyncs).Tallied := rfl
  have htallied : v.Tallied := run?_preserves Tallied.step hstart h
  refine ⟨fun newer failure older hsplit hfailed => ?_, fun hidle => ?_⟩
  · obtain ⟨d, hdelay, hfollows⟩ := hdelayed.rests.follows hsplit hfailed
    exact ⟨d, hfollows, hdelay, failuresSince_eases_eq_iff older⟩
  · rw [← htallied, PagedWatcher.tally_of_idle (v.watcher.stage_eq_idle_iff.mp hidle)]

/-- Two lists that fail on their first page, each with the rest after it. -/
def twoFailures : List Occasion :=
  [.begin, .begin, .answer (.page none), .begin, .answer .rested, .begin, .answer (.page none),
    .begin, .answer .rested, .begin]

theorem rests_by_failures_two : ∃ v newer older,
    (start 500 (.new (.ofSeconds 1) (.ofSeconds 30)) false 0).run? twoFailures = some v ∧
      efforts v.past = newer ++ .came (.page none) :: older ∧
      newer = [.asked (.page 500 none), .came .rested, .asked (.sleep (.ofSeconds 2))] ∧
      ∃ d, Follows d v.watcher newer ∧ d.toNanos = 2000000000 := by
  have hrun : ((start 500 (.new (.ofSeconds 1) (.ofSeconds 30)) false 0).run? twoFailures).map
      (fun v => efforts v.past) =
        some ([.asked (.page 500 none), .came .rested, .asked (.sleep (.ofSeconds 2))] ++
          .came (.page none) :: [.asked (.page 500 none), .came .rested,
            .asked (.sleep (.ofSeconds 1)), .came (.page none), .asked (.page 500 none)]) := by
    decide +kernel
  obtain ⟨v, hv, hpast⟩ := Option.map_eq_some_iff.mp hrun
  obtain ⟨hrests, -⟩ := rests_by_failures hv (by decide)
  obtain ⟨d, hfollows, hdelay, -⟩ := hrests _ _ _ hpast rfl
  exact ⟨v, _, _, hv, hpast, rfl, d, hfollows, hdelay.trans (by decide +kernel)⟩

/-- Two lists that fail on their second page; the second rest begins. -/
def partialLists : List Occasion :=
  [.begin, .begin, .answer (.page (some ⟨[], "", some "next"⟩)), .answer (.page none), .begin,
    .answer .rested, .begin, .answer (.page (some ⟨[], "", some "next"⟩)), .answer (.page none),
    .begin]

/-- In `partialLists` the second list in a row has failed, and no list was completed before; the
rest is the initial delay all the same. -/
theorem partial_lists_rest_alike : ∃ v older,
    (start 500 (.new (.ofSeconds 1) (.ofSeconds 30)) false 0).run? partialLists = some v ∧
      efforts v.past = .asked (.sleep (.ofSeconds 1)) :: .came (.page none) :: older ∧
      failuresSince (·.isSuccess) older = 1 ∧
      (Duration.ofSeconds 1).toNanos ≠ min
        ((Duration.ofSeconds 1).toNanos * 2 ^ failuresSince (·.isSuccess) older)
        (Duration.ofSeconds 30).toNanos := by
  have hrun : ((start 500 (.new (.ofSeconds 1) (.ofSeconds 30)) false 0).run? partialLists).map
      (fun v => efforts v.past) =
        some (.asked (.sleep (.ofSeconds 1)) :: .came (.page none) ::
          [.asked (.page 500 (some "next")), .came (.page (some ⟨[], "", some "next"⟩)),
            .asked (.page 500 none), .came .rested, .asked (.sleep (.ofSeconds 1)),
            .came (.page none), .asked (.page 500 (some "next")),
            .came (.page (some ⟨[], "", some "next"⟩)), .asked (.page 500 none)]) := by
    decide +kernel
  obtain ⟨v, hv, hpast⟩ := Option.map_eq_some_iff.mp hrun
  exact ⟨v, _, hv, hpast, by decide, by decide +kernel⟩

end Vigil
end InventorySync
