import InventorySync.Proofs.Vigil

/-!
# Requests to start over

A paged watcher that listens for requests to start over keeps a count of those it has seen, and
brings it up to date when a list begins and when it gives up a stream. Between the beginning of a
list and the next wait for an event the count falls behind exactly when a request is outstanding,
so no wait begins with one.

## Key results

- `Heeds.step`: the count of requests seen is right whenever a list was begun
- `Vigil.resyncs_heeded`: after a request at most one event is still handed over, no wait begins
  while one is outstanding, and a list covers all that came before it
-/

namespace InventorySync

/-! ## What the notes say -/

/-- What has happened since the last list was begun. -/
def sinceList (past : List WatchNote) : List WatchNote := past.takeWhile (!·.beginsList)

/-- A fresh start was asked for, and no list was begun since. -/
def Outstanding (past : List WatchNote) : Prop := .resync ∈ sinceList past

instance (past : List WatchNote) : Decidable (Outstanding past) :=
  inferInstanceAs (Decidable (_ ∈ _))

/-- The last thing that the watcher did was to begin a wait for an event. -/
def WaitUnderWay (past : List WatchNote) : Prop :=
  (past.dropWhile (·.isSignal)).head? = some (.asked .event)

instance (past : List WatchNote) : Decidable (WaitUnderWay past) :=
  inferInstanceAs (Decidable (_ = _))

/-- The changes that were handed over from a stream, the newest first. -/
def streamed : List WatchNote → List (Action × Json)
  | .asked (.handle action object) :: .came (.event _) :: past => (action, object) :: streamed past
  | _ :: past => streamed past
  | [] => []

theorem outstanding_cons {n : WatchNote} (past : List WatchNote) (hn : n.beginsList = false) :
    Outstanding (n :: past) ↔ n = .resync ∨ Outstanding past := by
  simp only [Outstanding, sinceList, List.takeWhile_cons, hn, Bool.not_false, if_true,
    List.mem_cons]
  constructor
  · rintro (h | h)
    · exact Or.inl h.symm
    · exact Or.inr h
  · rintro (h | h)
    · exact Or.inl h.symm
    · exact Or.inr h

theorem not_outstanding_of_beginsList {n : WatchNote} (past : List WatchNote)
    (hn : n.beginsList = true) : ¬Outstanding (n :: past) := by
  simp [Outstanding, sinceList, hn]

theorem outstanding_of_split {new : List WatchNote} (old : List WatchNote)
    (hnew : ∀ n ∈ new, n.beginsList = false) : Outstanding (new ++ .resync :: old) := by
  induction new with
  | nil => exact (outstanding_cons old rfl).mpr (Or.inl rfl)
  | cons n new ih =>
    have hn := hnew n List.mem_cons_self
    have hrest := ih (fun m hm => hnew m (List.mem_cons_of_mem _ hm))
    exact (outstanding_cons _ hn).mpr (Or.inr hrest)

/-- `Outstanding` does not change with notes that are neither a `.resync` nor the beginning of a
list. -/
theorem outstanding_append {notes : List WatchNote} (past : List WatchNote)
    (hlist : ∀ n ∈ notes, n.beginsList = false) (hsignal : ∀ n ∈ notes, n ≠ .resync) :
    Outstanding (notes ++ past) ↔ Outstanding past := by
  induction notes with
  | nil => exact Iff.rfl
  | cons n notes ih =>
    have hrest := ih (fun m hm => hlist m (List.mem_cons_of_mem _ hm))
      (fun m hm => hsignal m (List.mem_cons_of_mem _ hm))
    rw [List.cons_append, outstanding_cons _ (hlist n List.mem_cons_self), hrest]
    exact or_iff_right (hsignal n List.mem_cons_self)

theorem streamed_cons_of_not_event (n : WatchNote) {notes : List WatchNote}
    (h : ∀ m ∈ notes, m.isEvent = false) : streamed (n :: notes) = streamed notes := by
  cases notes with
  | nil => rw [streamed]; simp
  | cons m notes =>
    have hm := h m List.mem_cons_self
    rw [streamed]
    rintro action object event past - hpast
    obtain ⟨rfl, -⟩ := List.cons.inj hpast
    cases hm

/-- `streamed` is empty for notes without an event. -/
theorem streamed_eq_nil {notes : List WatchNote} (h : ∀ n ∈ notes, n.isEvent = false) :
    streamed notes = [] := by
  induction notes with
  | nil => rfl
  | cons n notes ih =>
    have hnotes : ∀ m ∈ notes, m.isEvent = false := fun m hm => h m (List.mem_cons_of_mem _ hm)
    rw [streamed_cons_of_not_event n hnotes, ih hnotes]

/-! ## Watchers after the beginning of a list -/

namespace PagedWatcher

/-- A list was begun, and the watcher has not turned back to list anew. -/
def Engaged (w : PagedWatcher) : Prop :=
  w.phase = .watching ∨ (∃ delay, w.phase = .backoff delay) ∨
    w.phase = .listing ∧ w.stage ≠ .idle

theorem not_engaged_stop (w : PagedWatcher) : ¬w.stop.Engaged := by
  rintro (h | ⟨delay, h⟩ | ⟨h, -⟩) <;> cases h

theorem not_engaged_relist (w : PagedWatcher) : ¬w.relist.Engaged := by
  rintro (h | ⟨delay, h⟩ | ⟨-, h⟩)
  · cases h
  · cases h
  · exact h rfl

theorem Engaged.of_stage {w : PagedWatcher} (hw : w.Paced) (h : w.stage ≠ .idle) : w.Engaged := by
  cases hstage : w.stage with
  | idle => exact absurd hstage h
  | asking | storing => exact Or.inr (Or.inr ⟨hw _ (by rw [hstage]; rfl), h⟩)
  | opening | listening | delivering => exact Or.inl (hw _ (by rw [hstage]; rfl))
  | resting delay => exact Or.inr (Or.inl ⟨delay, hw _ (by rw [hstage]; rfl)⟩)

/-- `store` leaves `seen` alone; it begins no list and no wait for an event. -/
theorem seen_store (w : PagedWatcher) (s : Signals) (page : ListPage) (rest : List Json) :
    (w.store s page rest).seen = w.seen ∧ (w.store s page rest).stage ≠ .asking none ∧
      (w.store s page rest).stage ≠ .listening := by
  rcases w.store_cases s page rest with ⟨object, later, -, h⟩ | ⟨-, token, -, -, h⟩ |
    ⟨-, token, -, -, h⟩ | ⟨-, -, h⟩
  · rw [h]
    exact ⟨rfl, nofun, nofun⟩
  · rw [h]
    exact ⟨rfl, nofun, nofun⟩
  · rw [h]
    exact ⟨rfl, nofun, nofun⟩
  · rw [h]
    exact ⟨rfl, nofun, nofun⟩

/-- `listen` waits for an event when every request is `seen`; otherwise it brings `seen` up to date
and turns back, or stops. -/
theorem seen_listen (w : PagedWatcher) (s : Signals) :
    (w.listen s).seen = (w.seen.map fun _ => s.resyncs) ∧ ¬(w.listen s).Engaged ∨
      (w.listen s).seen = w.seen ∧ (w.listen s).stage ≠ .asking none ∧
        ((w.listen s).Engaged → s.resyncDue w.seen = false) := by
  rcases w.listen_cases s with ⟨-, hw⟩ | ⟨-, -, hw⟩ | ⟨-, hdue, hw⟩
  · rw [hw]
    exact Or.inr ⟨rfl, nofun, fun h => absurd h (not_engaged_stop w)⟩
  · rw [hw]
    exact Or.inl ⟨rfl, not_engaged_relist _⟩
  · rw [hw]
    exact Or.inr ⟨rfl, nofun, fun _ => hdue⟩

/-- A `Stride` brings `seen` up to date when it begins a list or turns back from a stream. Otherwise
it leaves `seen` alone, and makes nobody `Engaged`; and a watcher that is then `.listening` has seen
every request. -/
theorem seen_stride {w w' : PagedWatcher} {s : Signals} {x : Option Answer} (hw : w.Paced)
    (h : Stride s w x w') :
    (w'.seen = w.seen.map fun _ => s.resyncs) ∧ (w'.stage = .asking none ∨ ¬w'.Engaged) ∨
      w'.seen = w.seen ∧ w'.stage ≠ .asking none ∧
        (w'.Engaged → w.Engaged ∧ (w'.stage = .listening → s.resyncDue w.seen = false)) := by
  have hengaged : w.stage ≠ .idle → w.Engaged := .of_stage hw
  -- Before a wait for an event the signals are looked at.
  have hlisten : ∀ u : PagedWatcher, u.seen = w.seen → w.stage ≠ .idle →
      ((u.listen s).seen = w.seen.map fun _ => s.resyncs) ∧
          ((u.listen s).stage = .asking none ∨ ¬(u.listen s).Engaged) ∨
        (u.listen s).seen = w.seen ∧ (u.listen s).stage ≠ .asking none ∧
          ((u.listen s).Engaged →
            w.Engaged ∧ ((u.listen s).stage = .listening → s.resyncDue w.seen = false)) := by
    intro u hu hstage
    rcases u.seen_listen s with ⟨hseen, hturned⟩ | ⟨hseen, hasking, hdue⟩
    · exact Or.inl ⟨hu ▸ hseen, Or.inr hturned⟩
    · exact Or.inr ⟨hseen.trans hu, hasking, fun h => ⟨hengaged hstage, fun _ => hu ▸ hdue h⟩⟩
  cases h with
  -- Whoever stops or is sent back to a list is not engaged; a list that begins takes the count.
  | stop => exact Or.inr ⟨rfl, nofun, fun h => absurd h (not_engaged_stop w)⟩
  | init | ended => exact Or.inr ⟨rfl, nofun, fun h => absurd h (not_engaged_relist _)⟩
  | list => exact Or.inl ⟨rfl, Or.inl rfl⟩
  | connect idle phase => exact Or.inr ⟨rfl, nofun, fun _ => ⟨Or.inl phase, nofun⟩⟩
  | pause delay idle phase =>
    exact Or.inr ⟨rfl, nofun, fun _ => ⟨Or.inr (Or.inl ⟨delay, phase⟩), nofun⟩⟩
  -- What the source answers leaves the count alone.
  | unlisted token stage =>
    rw [rest_eq]
    exact Or.inr ⟨rfl, nofun, fun _ => ⟨hengaged (by simp [stage]), nofun⟩⟩
  | unopened stage =>
    rw [rest_eq]
    exact Or.inr ⟨rfl, nofun, fun _ => ⟨hengaged (by simp [stage]), nofun⟩⟩
  | paged token page stage =>
    obtain ⟨hseen, hasking, hlistening⟩ :=
      seen_store { w with backoff := w.backoff.reset } s page page.items
    exact Or.inr ⟨hseen, hasking,
      fun _ => ⟨hengaged (by simp [stage]), fun h => absurd h hlistening⟩⟩
  | stored object rest page stage =>
    obtain ⟨hseen, hasking, hlistening⟩ := seen_store w s page rest
    exact Or.inr ⟨hseen, hasking,
      fun _ => ⟨hengaged (by simp [stage]), fun h => absurd h hlistening⟩⟩
  -- A stream that is open leads to a wait, at once or after an event.
  | opened stage => exact hlisten _ rfl (by simp [stage])
  | changed event action object stage =>
    obtain ⟨cursor, hcursor⟩ := w.exists_advance (objectVersion object)
    refine Or.inr ⟨?_, nofun, fun _ => ⟨hengaged (by simp [stage]), nofun⟩⟩
    simp only [deliver, hcursor]
  | marked version stage =>
    obtain ⟨cursor, hcursor⟩ := w.exists_advance version
    exact hlisten _ (by rw [hcursor]) (by simp [stage])
  | delivered action object stage => exact hlisten _ rfl (by simp [stage])
  | rested delay stage =>
    refine Or.inr ⟨rfl, ?_, fun _ => ⟨hengaged (by simp [stage]), ?_⟩⟩
    · intro hasking
      cases hasking
    · intro hlistening
      cases hlistening

end PagedWatcher

/-! ## What is taken after a request -/

/-- The one event that a watcher may still take: the wait for it was under way. -/
def TookOne (new old : List WatchNote) : Prop :=
  ∃ event later sooner, new = later ++ .came (.event event) :: sooner ∧
    (∀ n ∈ later, n.isEvent = false) ∧ (∀ n ∈ sooner, n.isSignal = true) ∧ WaitUnderWay old

/-- How a watcher at a `stage` has heard a request: before it the `old` notes, after it the `new`
ones. -/
structure Heard (stage : PagedStage) (new old : List WatchNote) : Prop where
  /-- A watcher that still waits for an event has done nothing since. -/
  waits : stage = .listening → (∀ n ∈ new, n.isSignal = true) ∧ WaitUnderWay old
  takes : (∀ n ∈ new, n.isEvent = false) ∨ TookOne new old

theorem Heard.append {stage stage' : PagedStage} {notes new old : List WatchNote}
    (h : Heard stage new old) (hstage : stage' ≠ .listening)
    (hnotes : ∀ n ∈ notes, n.isEvent = false) : Heard stage' (notes ++ new) old := by
  refine ⟨fun hlistening => absurd hlistening hstage, ?_⟩
  rcases h.takes with hnone | ⟨event, later, sooner, rfl, hlater, hsooner, hwait⟩
  · refine Or.inl fun n hn => ?_
    rcases List.mem_append.mp hn with hn | hn
    · exact hnotes n hn
    · exact hnone n hn
  · refine Or.inr ⟨event, notes ++ later, sooner, (List.append_assoc ..).symm, ?_, hsooner, hwait⟩
    intro n hn
    rcases List.mem_append.mp hn with hn | hn
    · exact hnotes n hn
    · exact hlater n hn

theorem Heard.signal {stage : PagedStage} {n : WatchNote} {new old : List WatchNote}
    (h : Heard stage new old) (hn : n.isSignal = true) : Heard stage (n :: new) old := by
  have hevent : n.isEvent = false := by
    cases n with
    | resync | cancel => rfl
    | asked | came | left => cases hn
  refine ⟨fun hstage => ?_, ?_⟩
  · obtain ⟨hsignals, hwait⟩ := h.waits hstage
    exact ⟨List.forall_mem_cons.mpr ⟨hn, hsignals⟩, hwait⟩
  · rcases h.takes with hnone | ⟨event, later, sooner, rfl, hlater, hsooner, hwait⟩
    · exact Or.inl (List.forall_mem_cons.mpr ⟨hevent, hnone⟩)
    · exact Or.inr ⟨event, n :: later, sooner, rfl, List.forall_mem_cons.mpr ⟨hevent, hlater⟩,
        hsooner, hwait⟩

/-- A watcher that was `.listening` takes the one event. -/
theorem Heard.event {stage : PagedStage} {notes new old : List WatchNote} {event : StreamEvent}
    (h : Heard .listening new old) (hstage : stage ≠ .listening)
    (hnotes : ∀ n ∈ notes, n.isEvent = false) :
    Heard stage (notes ++ .came (.event event) :: new) old := by
  obtain ⟨hsignals, hwait⟩ := h.waits rfl
  exact ⟨fun hlistening => absurd hlistening hstage,
    Or.inr ⟨event, notes, new, rfl, hnotes, hsignals, hwait⟩⟩

/-! ## The invariant -/

/-- The count that is `seen` is right once a list was begun, and every request that no list has
covered was `Heard`. -/
structure Heeds (v : Vigil) : Prop where
  paced : v.watcher.Paced
  seen : ∃ k, v.watcher.seen = some k ∧ k ≤ v.signals.resyncs ∧
    (v.watcher.Engaged → (k < v.signals.resyncs ↔ Outstanding v.past))
  waits : v.watcher.stage = .listening → WaitUnderWay v.past
  heard : ∀ new old, v.past = new ++ .resync :: old → (∀ n ∈ new, n.beginsList = false) →
    Heard v.watcher.stage new old

theorem heeds_start (pageSize : Nat) (backoff : Backoff) (resyncs : Nat) :
    Heeds (.start pageSize backoff true resyncs) := by
  refine ⟨.of_idle rfl, ⟨resyncs, rfl, Nat.le_refl _, ?_⟩, nofun, ?_⟩
  · rintro (h | ⟨delay, h⟩ | ⟨h, -⟩) <;> cases h
  · intro new old h
    exact absurd (congrArg List.length h) (by simp [Vigil.start])

namespace Heeds

variable {v v' : Vigil}

/-- A watcher that is `Engaged` sees that a request is due exactly when one is `Outstanding`. -/
theorem resyncDue_iff (h : Heeds v) (hengaged : v.watcher.Engaged) :
    v.signals.resyncDue v.watcher.seen = true ↔ Outstanding v.past := by
  obtain ⟨k, hseen, hle, hk⟩ := h.seen
  rw [← hk hengaged, hseen]
  show (k != v.signals.resyncs) = true ↔ k < v.signals.resyncs
  rw [bne_iff_ne]
  omega

theorem resync_not_mem_notes (w : PagedWatcher) (x : Option Answer) :
    WatchNote.resync ∉ w.notes x :=
  fun hmem => absurd (PagedWatcher.isSignal_of_mem_notes hmem) nofun

/-- After a `Stride` the count that is `seen` is right again: it was brought up to date, and if a
list begins then nothing is `Outstanding`; or it is the old one, and no list begins. -/
theorem seen_goOn {x : Option Answer} {w : PagedWatcher} (h : Heeds v)
    (stride : v.watcher.Stride v.signals x w) :
    ∃ k, w.seen = some k ∧ k ≤ v.signals.resyncs ∧
      (w.Engaged → (k < v.signals.resyncs ↔ Outstanding (w.notes x ++ v.past))) := by
  obtain ⟨k, hseen, hle, hk⟩ := h.seen
  obtain ⟨hw, hbegins⟩ | ⟨hw, hasking, hengaged⟩ := PagedWatcher.seen_stride h.paced stride
  · refine ⟨v.signals.resyncs, by rw [hw, hseen]; rfl, Nat.le_refl _, fun hgoes => ?_⟩
    obtain hstage | hturned := hbegins
    · refine iff_of_false (Nat.lt_irrefl _) ?_
      have hwait : w.wait = some (.page w.pageSize none) := by rw [PagedWatcher.wait, hstage]
      rw [PagedWatcher.notes, hwait]
      exact not_outstanding_of_beginsList _ rfl
    · exact absurd hgoes hturned
  · refine ⟨k, hw.trans hseen, hle, fun hgoes => (hk (hengaged hgoes).1).trans ?_⟩
    exact (outstanding_append v.past
      (fun n hn => PagedWatcher.beginsList_of_mem_notes hasking hn)
      (fun n hn hresync => resync_not_mem_notes w x (hresync ▸ hn))).symm

/-- No `Stride` leads to `.listening` while a request is `Outstanding`. -/
theorem not_listening_of_outstanding {x : Option Answer} {w : PagedWatcher} (h : Heeds v)
    (stride : v.watcher.Stride v.signals x w) (hout : Outstanding v.past) :
    w.stage ≠ .listening := by
  intro hstage
  have hgoes : w.Engaged := .of_stage (h.paced.stride stride) (by simp [hstage])
  obtain ⟨-, hasking | hturned⟩ | ⟨-, -, hengaged⟩ := PagedWatcher.seen_stride h.paced stride
  · rw [hstage] at hasking
    cases hasking
  · exact hturned hgoes
  · -- The look at the signals before the wait has seen the request.
    obtain ⟨hbefore, hdue⟩ := hengaged hgoes
    have hseen := (h.resyncDue_iff hbefore).mpr hout
    rw [hdue hstage] at hseen
    cases hseen

/-- `goOn` keeps `Heeds`: what a `Stride` takes from a stream was waited for. -/
theorem goOn {x : Option Answer} {w : PagedWatcher} (h : Heeds v)
    (stride : v.watcher.Stride v.signals x w) : Heeds (v.goOn x w) := by
  constructor
  case paced => exact h.paced.stride stride
  case seen => exact h.seen_goOn stride
  case waits =>
    intro hstage
    have hwait : w.wait = some .event := by rw [PagedWatcher.wait, show w.stage = _ from hstage]
    show WaitUnderWay (w.notes x ++ v.past)
    rw [PagedWatcher.notes, hwait]
    rfl
  -- A stride makes no request, so each request is an old one with more notes after it.
  case heard =>
    intro new old hpast hnew
    obtain ⟨between, rfl, hbetween⟩ :=
      exists_of_append_eq_append (resync_not_mem_notes w x) hpast
    have hbegins : ∀ n ∈ between, n.beginsList = false := fun n hn =>
      hnew n (List.mem_append_right _ hn)
    have hheard := h.heard between old hbetween hbegins
    have hlistening : w.stage ≠ .listening :=
      h.not_listening_of_outstanding stride (hbetween ▸ outstanding_of_split old hbegins)
    by_cases hx : ∃ event, x = some (.event event)
    · -- The one event that may be taken.
      obtain ⟨event, rfl⟩ := hx
      rw [stride.stage_of_event] at hheard
      rw [PagedWatcher.notes, List.append_assoc]
      exact hheard.event hlistening (fun n hn => PagedWatcher.isEvent_of_mem_asked hn)
    · refine hheard.append hlistening (fun n hn => ?_)
      obtain ⟨r, -, rfl⟩ | ⟨a, rfl, rfl⟩ := PagedWatcher.mem_notes.mp hn
      · rfl
      · cases a with
        | event event => exact absurd ⟨event, rfl⟩ hx
        | page | handled | opened | rested => rfl

/-- A wait that is given up keeps `Heeds`: the watcher is idle after it. -/
theorem leave (h : Heeds v) (leaves : v.watcher.interrupted v.signals ≠ v.watcher) :
    Heeds { v with watcher := v.watcher.interrupted v.signals, past := .left :: v.past } := by
  have hstage := (PagedWatcher.stage_eq_idle_iff _).mp (PagedWatcher.wait_of_leave leaves)
  refine ⟨h.paced.interrupted _, ?_, ?_, ?_⟩
  · obtain ⟨k, hseen, hle, -⟩ := h.seen
    rcases PagedWatcher.leave_cases leaves with ⟨-, hw⟩ | ⟨-, -, -, hw⟩
    · refine ⟨k, by rw [hw]; exact hseen, hle, fun hgoes => ?_⟩
      rw [hw] at hgoes
      exact absurd hgoes (PagedWatcher.not_engaged_stop _)
    · -- The count is brought up to date, and the watcher has turned back.
      refine ⟨v.signals.resyncs, ?_, Nat.le_refl _, fun hgoes => ?_⟩
      · rw [hw]
        show v.watcher.seen.map (fun _ => v.signals.resyncs) = some v.signals.resyncs
        rw [hseen, Option.map_some]
      · rw [hw] at hgoes
        exact absurd hgoes (PagedWatcher.not_engaged_relist _)
  · intro hlistening
    rw [hstage] at hlistening
    cases hlistening
  · intro new old hpast hnew
    obtain ⟨between, rfl, hbetween⟩ :=
      exists_of_append_eq_append (show _ ∉ [WatchNote.left] by simp) hpast
    refine (h.heard between old hbetween (fun n hn => hnew n (List.mem_cons_of_mem _ hn))).append
      ?_ (by simp [WatchNote.isEvent])
    rw [hstage]
    nofun

/-- A `.resync` keeps `Heeds`: nobody has seen it yet, and it is `Outstanding`. -/
theorem resync (h : Heeds v) :
    Heeds { v with
      signals := { v.signals with resyncs := v.signals.resyncs + 1 }
      past := .resync :: v.past } := by
  refine ⟨h.paced, ?_, ?_, ?_⟩
  · obtain ⟨k, hseen, hle, -⟩ := h.seen
    refine ⟨k, hseen, Nat.le_succ_of_le hle, fun _ => iff_of_true (Nat.lt_succ_of_le hle) ?_⟩
    exact (outstanding_cons _ rfl).mpr (Or.inl rfl)
  · exact h.waits
  · intro new old hpast hnew
    cases new with
    | nil =>
      obtain ⟨-, rfl⟩ := List.cons.inj hpast
      exact ⟨fun hstage => ⟨nofun, h.waits hstage⟩, Or.inl nofun⟩
    | cons n new =>
      obtain ⟨rfl, hbetween⟩ := List.cons.inj hpast
      exact (h.heard new old hbetween (fun n hn => hnew n (List.mem_cons_of_mem _ hn))).signal rfl

theorem cancel (h : Heeds v) :
    Heeds { v with
      signals := { v.signals with cancelled := true }
      past := .cancel :: v.past } := by
  refine ⟨h.paced, ?_, h.waits, ?_⟩
  · obtain ⟨k, hseen, hle, hk⟩ := h.seen
    refine ⟨k, hseen, hle, fun hgoes => (hk hgoes).trans ?_⟩
    have hlist : ∀ n ∈ [WatchNote.cancel], n.beginsList = false := by simp [WatchNote.beginsList]
    exact (outstanding_append v.past hlist (by simp)).symm
  · intro new old hpast hnew
    obtain ⟨between, rfl, hbetween⟩ :=
      exists_of_append_eq_append (show _ ∉ [WatchNote.cancel] by simp) hpast
    exact (h.heard between old hbetween (fun n hn => hnew n (List.mem_cons_of_mem _ hn))).signal rfl

/-- Every `Vigil.Step` keeps `Heeds`. -/
theorem step {o : Occasion} (h : Heeds v) (hstep : Vigil.Step v o v') : Heeds v' := by
  cases hstep with
  | begin idle stride => exact h.goOn stride
  | answer stride => exact h.goOn stride
  | stay stays => exact h
  | leave leaves => exact h.leave leaves
  | resync connected => exact h.resync
  | cancel => exact h.cancel
  | disconnect => exact ⟨h.paced, h.seen, h.waits, h.heard⟩

end Heeds

/-! ## Waits and lists -/

namespace PagedWatcher

/-- Whether a watcher comes to wait for an event: its stream has just been opened, it is done with
an event that is not the last, or it goes on waiting after a look at the signals. -/
def ComesToWait (w : PagedWatcher) : Occasion → Prop
  | .answer (.opened true) => w.stage = .opening
  | .answer .handled => ∃ action object, w.stage = .delivering action object
  | .answer (.event (.bookmark _)) | .look => w.stage = .listening
  | _ => False

/-- Why a `Stride` leads to `.listing`: the watcher was to list before, it has just begun, its last
list failed, its stream has ended, or it has seen a request to start over. -/
theorem listing_of_stride {w w' : PagedWatcher} {s : Signals} {x : Option Answer} (hw : w.Paced)
    (h : Stride s w x w') (hlisting : w'.phase = .listing) :
    w.phase = .listing ∨ w.phase = .init ∨ (∃ delay, w.phase = .backoff delay ∧ w.cursor = "") ∨
      (∃ event, x = some (.event event) ∧ event.isLast = true) ∨
      w.Engaged ∧ s.resyncDue w.seen = true := by
  have hlisten : ∀ u : PagedWatcher, u.seen = w.seen → u.phase = w.phase → w.stage ≠ .idle →
      (u.listen s).phase = .listing →
      w.phase = .listing ∨ w.Engaged ∧ s.resyncDue w.seen = true := by
    intro u hseen hphase hstage hlisting
    -- A look at the signals turns to a list only when a request is due.
    rcases u.listen_cases s with ⟨-, hu⟩ | ⟨-, hdue, -⟩ | ⟨-, -, hu⟩
    · rw [hu] at hlisting
      cases hlisting
    · exact Or.inr ⟨.of_stage hw hstage, hseen ▸ hdue⟩
    · rw [hu] at hlisting
      exact Or.inl (hphase.symm.trans hlisting)
  cases h with
  -- A list goes on, or begins where nothing was listed before.
  | stop | unopened | unlisted => cases hlisting
  | init idle phase => exact Or.inr (Or.inl phase)
  | list idle phase => exact Or.inl phase
  | connect | pause => exact Or.inl hlisting
  | paged token page stage => exact Or.inl (hw _ (by rw [stage]; rfl))
  | stored object rest page stage => exact Or.inl (hw _ (by rw [stage]; rfl))
  | ended event stage last => exact Or.inr (Or.inr (Or.inr (Or.inl ⟨event, rfl, last⟩)))
  | changed event action object stage =>
    obtain ⟨cursor, hcursor⟩ := w.exists_advance (objectVersion object)
    simp only [deliver, hcursor] at hlisting
    exact Or.inl hlisting
  -- Before the next wait there is a look at the signals.
  | opened stage =>
    have := hlisten { w with backoff := w.backoff.reset } rfl rfl (by simp [stage]) hlisting
    tauto
  | marked version stage =>
    obtain ⟨cursor, hcursor⟩ := w.exists_advance version
    have := hlisten (w.advance version) (by rw [hcursor]) (by rw [hcursor]) (by simp [stage])
      hlisting
    tauto
  | delivered action object stage =>
    have := hlisten w rfl rfl (by simp [stage]) hlisting
    tauto
  -- After a rest the cursor tells whether there is something to list.
  | rested delay stage =>
    refine Or.inr (Or.inr (Or.inl ⟨delay, hw _ (by rw [stage]; rfl), ?_⟩))
    by_contra hcursor
    simp [settle, hcursor] at hlisting

theorem interrupted_of_listening {w : PagedWatcher} (s : Signals) (h : w.stage = .listening) :
    w.interrupted s = w.listen s := by
  simp only [interrupted, h]

end PagedWatcher

namespace Vigil

/-- A watcher that `ComesToWait` looks at the signals first, by `listen`. -/
theorem listen_of_comesToWait {v v' : Vigil} {o : Occasion} (h : v.next? o = some v')
    (hwait : v.watcher.ComesToWait o) :
    v.watcher.stage ≠ .idle ∧
      ∃ w : PagedWatcher, w.seen = v.watcher.seen ∧ v'.watcher = w.listen v.signals := by
  cases step_of_next? h with
  -- A look at the signals is one, whether the wait goes on or is given up.
  | begin | resync | cancel | disconnect => exact hwait.elim
  | stay stays =>
    have hstage : v.watcher.stage = .listening := hwait
    refine ⟨by simp [hstage], v.watcher, rfl, ?_⟩
    rw [← PagedWatcher.interrupted_of_listening v.signals hstage, stays]
  | leave leaves =>
    have hstage : v.watcher.stage = .listening := hwait
    exact ⟨by simp [hstage], v.watcher, rfl, PagedWatcher.interrupted_of_listening _ hstage⟩
  -- After the answers that lead to a wait, the watcher looks before it waits.
  | answer stride =>
    cases stride with
    | unlisted | paged | unopened | rested => exact hwait.elim
    | stored object rest page stage =>
      obtain ⟨action, object, hstage⟩ := hwait
      rw [stage] at hstage
      cases hstage
    | opened stage =>
      exact ⟨by simp [stage], { v.watcher with backoff := v.watcher.backoff.reset }, rfl, rfl⟩
    | delivered action object stage => exact ⟨by simp [stage], v.watcher, rfl, rfl⟩
    | marked version stage =>
      obtain ⟨cursor, hcursor⟩ := v.watcher.exists_advance version
      exact ⟨by simp [stage], v.watcher.advance version, by rw [hcursor], rfl⟩
    | changed event action object stage change =>
      cases event with
      | bookmark => cases change
      | added | modified | deleted | refused | failed | closed => exact hwait.elim
    | ended event stage last =>
      cases event with
      | bookmark => cases last
      | added | modified | deleted | refused | failed | closed => exact hwait.elim

end Vigil

/-! ## No request is lost -/

theorem length_streamed_le (notes : List WatchNote) :
    (streamed notes).length ≤ notes.countP (·.isEvent) := by
  fun_induction streamed notes with
  | case1 action object event past ih =>
    rw [List.length_cons, List.countP_cons_of_neg (by nofun), List.countP_cons_of_pos rfl]
    omega
  | case2 n past hn ih =>
    rw [List.countP_cons]
    omega
  | case3 => exact Nat.zero_le _

theorem TookOne.length_streamed_le {new old : List WatchNote} (h : TookOne new old) :
    (streamed new).length ≤ 1 := by
  -- Each change that was handed over came as an event, and one event came.
  obtain ⟨event, later, sooner, rfl, hlater, hsooner, -⟩ := h
  refine Nat.le_trans (InventorySync.length_streamed_le _) ?_
  have hnone : later.countP (·.isEvent) = 0 :=
    List.countP_eq_zero.mpr fun n hn => by simp [hlater n hn]
  have hsignals : sooner.countP (·.isEvent) = 0 := by
    refine List.countP_eq_zero.mpr fun n hn => ?_
    have hsignal := hsooner n hn
    cases n with
    | resync | cancel => nofun
    | asked | came | left => cases hsignal
  have hone : (later ++ .came (.event event) :: sooner).countP (·.isEvent) = 0 + (0 + 1) := by
    rw [List.countP_append, List.countP_cons_of_pos rfl, hnone, hsignals]
  exact Nat.le_of_eq hone

namespace Vigil

/-- What leads to `.listing` in a `Vigil`: as for a `Stride`, where the request that was seen is
`Outstanding`. -/
theorem listing_of_next? {v v' : Vigil} {o : Occasion} (hheeds : Heeds v)
    (hnext : v.next? o = some v') (hlisting : v'.watcher.phase = .listing) :
    v.watcher.phase = .listing ∨ v.watcher.phase = .init ∨
      (∃ delay, v.watcher.phase = .backoff delay ∧ v.watcher.cursor = "") ∨
      (∃ event, o = .answer (.event event) ∧ event.isLast = true) ∨
      Outstanding v.past := by
  have hdue : v.watcher.Engaged ∧ v.signals.resyncDue v.watcher.seen = true →
      Outstanding v.past := fun ⟨hengaged, hseen⟩ => (hheeds.resyncDue_iff hengaged).mp hseen
  have hstride : ∀ x w, v.watcher.Stride v.signals x w → w.phase = .listing →
      v.watcher.phase = .listing ∨ v.watcher.phase = .init ∨
        (∃ delay, v.watcher.phase = .backoff delay ∧ v.watcher.cursor = "") ∨
        (∃ event, x = some (.event event) ∧ event.isLast = true) ∨ Outstanding v.past := by
    intro x w stride hw
    have hwhy := PagedWatcher.listing_of_stride hheeds.paced stride hw
    exact hwhy.imp_right (Or.imp_right (Or.imp_right (Or.imp_right hdue)))
  cases step_of_next? hnext with
  | begin idle stride => simpa using hstride none _ stride hlisting
  | answer stride => simpa using hstride (some _) _ stride hlisting
  | leave leaves =>
    rcases PagedWatcher.leave_cases leaves with ⟨-, hw⟩ | ⟨hstage, -, hseen, -⟩
    · rw [hw] at hlisting
      cases hlisting
    · have hengaged : v.watcher.Engaged := .of_stage hheeds.paced (by simp [hstage])
      exact Or.inr (Or.inr (Or.inr (Or.inr (hdue ⟨hengaged, hseen⟩))))
  | stay | resync | cancel | disconnect => exact Or.inl hlisting

/-- No request to start over is lost in a `run?`. Until the next list begins, at most one event is
still `streamed`, and that is one which the watcher was waiting for when it was asked, `TookOne`. No
wait for an event begins or goes on while a request is `Outstanding`: the watcher turns back to
list, or stops when it is cancelled too. A list covers what was asked before it: what leads to
another one afterwards is its own failure, the end of the stream, or a new request. -/
theorem resyncs_heeded {pageSize : Nat} {backoff : Backoff} {resyncs : Nat}
    {occasions : List Occasion} {v : Vigil}
    (h : (start pageSize backoff true resyncs).run? occasions = some v) :
    (∀ new old, v.past = new ++ .resync :: old → (∀ n ∈ new, n.beginsList = false) →
      (streamed new).length ≤ 1 ∧ (streamed new ≠ [] → TookOne new old)) ∧
    (∀ o v', v.next? o = some v' → v.watcher.ComesToWait o →
      (Outstanding v.past → v'.watcher.wait = none ∧
        v'.watcher.phase = if v.signals.cancelled then .stopped else .listing) ∧
      (¬Outstanding v.past → v.signals.cancelled = false → v'.watcher.wait = some .event)) ∧
    (∀ o v', v.next? o = some v' → v'.watcher.phase = .listing →
      v.watcher.phase = .listing ∨ v.watcher.phase = .init ∨
      (∃ delay, v.watcher.phase = .backoff delay ∧ v.watcher.cursor = "") ∨
      (∃ event, o = .answer (.event event) ∧ event.isLast = true) ∨
      Outstanding v.past) := by
  have hheeds : Heeds v := run?_preserves Heeds.step (heeds_start pageSize backoff resyncs) h
  refine ⟨fun new old hpast hnew => ?_, fun o v' hnext hwait => ?_, fun o v' hnext hlisting =>
    listing_of_next? hheeds hnext hlisting⟩
  · rcases (hheeds.heard new old hpast hnew).takes with hnone | hone
    · rw [streamed_eq_nil hnone]
      exact ⟨Nat.zero_le _, fun hne => absurd rfl hne⟩
    · exact ⟨hone.length_streamed_le, fun _ => hone⟩
  · obtain ⟨hstage, w, hseen, hw⟩ := listen_of_comesToWait hnext hwait
    have hdue := hheeds.resyncDue_iff (.of_stage hheeds.paced hstage)
    rw [← hseen] at hdue
    rw [hw]
    rcases w.listen_cases v.signals with ⟨hcancelled, hlisten⟩ | ⟨hgoes, hseen, hlisten⟩ |
      ⟨hgoes, hseen, hlisten⟩
    · rw [hlisten, hcancelled]
      exact ⟨fun _ => ⟨rfl, rfl⟩, fun _ hgoes => by cases hgoes⟩
    · rw [hlisten, hgoes]
      exact ⟨fun _ => ⟨rfl, rfl⟩, fun hout => absurd (hdue.mp hseen) hout⟩
    · -- The watcher waits, so no request is due and none is outstanding.
      rw [hlisten]
      refine ⟨fun hout => ?_, fun _ _ => rfl⟩
      rw [hdue.mpr hout] at hseen
      cases hseen

/-- An object changes just as a fresh start is asked for. -/
def changeAtRequest : List Occasion :=
  [.begin, .begin, .answer (.page (some ⟨[], "7", none⟩)), .begin, .answer (.opened true), .resync,
    .answer (.event (.added .null)), .answer .handled]

theorem resyncs_heeded_at_change : ∃ v new old,
    (start 1 (.new (.ofSeconds 1) (.ofSeconds 30)) true 0).run? changeAtRequest = some v ∧
      v.past = new ++ .resync :: old ∧ streamed new = [(.create, .null)] ∧ TookOne new old ∧
      v.watcher.phase = .listing := by
  have hrun : ((start 1 (.new (.ofSeconds 1) (.ofSeconds 30)) true 0).run? changeAtRequest).map
      (fun v => (v.past, v.watcher.phase)) =
        some ([.came .handled, .asked (.handle .create .null), .came (.event (.added .null))] ++
          .resync :: [.asked .event, .came (.opened true), .asked (.watch "7"),
            .came (.page (some ⟨[], "7", none⟩)), .asked (.page 1 none)], .listing) := by
    decide +kernel
  obtain ⟨v, hv, hend⟩ := Option.map_eq_some_iff.mp hrun
  obtain ⟨hpast, hphase⟩ := Prod.mk.inj hend
  obtain ⟨htakes, -⟩ := resyncs_heeded hv
  obtain ⟨-, hone⟩ := htakes _ _ hpast (by decide)
  exact ⟨v, _, _, hv, hpast, rfl, hone (by decide), hphase⟩

end Vigil
end InventorySync
