import InventorySync.Proofs.Vigil

/-!
# Where a watch begins

A paged watcher asks for a stream from the version in its cursor. The cursor is set when a list is
complete, moves on with the events of a stream, and is cleared on four ways back to a list. Between
the completion of a list and the opening of a stream it does not move, however often that fails.

## Key results

- `Stands.stride`: what was asked for and what came, up to where a watcher stands
- `Anchored.step`: the same for whatever happens to a watcher
- `Vigil.watch_follows_list`: a stream is asked for from the version where a full list ended, with
  nothing but failed attempts in between
-/

namespace InventorySync

/-! ## Lists and streams in the notes -/

/-- Whether it is about a page or the opening of a stream. -/
def WatchNote.isTraffic : WatchNote → Bool
  | .asked (.page ..) | .asked (.watch _) | .came (.page _) | .came (.opened _) => true
  | .asked _ | .came _ | .left | .resync | .cancel => false

/-- The pages and streams that were asked for and came, the newest first. -/
def traffic (past : List WatchNote) : List WatchNote := past.filter (·.isTraffic)

/-- The pages of a list so far, the newest first, and the token of the page after them: `first` was
asked for with no token, each later `page` with the token of the one before it. -/
inductive Pages (limit : Nat) : List WatchNote → Option String → Prop
  | first : Pages limit [] none
  | page {notes token page next} (before : Pages limit notes token)
    (more : page.next = some next) :
    Pages limit (.came (.page (some page)) :: .asked (.page limit token) :: notes) (some next)

/-- A full list, up to a page without a token, and the version of that page. -/
def FullList (limit : Nat) (notes : List WatchNote) (version : String) : Prop :=
  ∃ page token before, notes = .came (.page (some page)) :: .asked (.page limit token) :: before ∧
    Pages limit before token ∧ page.next = none ∧ page.resourceVersion = version

/-- The last list was a full one that ended with a version, and since then a stream from that
version was asked for in vain, if at all. -/
def FollowsList (limit : Nat) (notes : List WatchNote) (version : String) : Prop :=
  ∃ failures list older, notes = failures ++ list ++ older ∧ FullList limit list version ∧
    ∀ n ∈ failures, n = .asked (.watch version) ∨ n = .came (.opened false)

theorem traffic_append (new old : List WatchNote) :
    traffic (new ++ old) = traffic new ++ traffic old := List.filter_append ..

theorem Pages.not_mem {limit : Nat} {notes : List WatchNote} {token : Option String}
    (h : Pages limit notes token) (isOpen : Bool) : .came (.opened isOpen) ∉ notes := by
  induction h with
  | first => exact List.not_mem_nil
  | page before more ih => simpa using ih

/-- A stream that was opened lies before the list that `FollowsList` is about. -/
theorem FollowsList.since_opened {limit : Nat} {between old : List WatchNote} {version : String}
    (h : FollowsList limit (between ++ .came (.opened true) :: old) version) :
    FollowsList limit between version := by
  obtain ⟨failures, list, older, hnotes, hlist, hfailures⟩ := h
  -- A list is made of pages, and attempts in vain open nothing.
  have hmem : .came (.opened true) ∉ failures ++ list := by
    intro hmem
    rcases List.mem_append.mp hmem with hmem | hmem
    · rcases hfailures _ hmem with h | h <;> cases h
    · obtain ⟨page, token, before, rfl, hpages, -⟩ := hlist
      exact hpages.not_mem true (by simpa using hmem)
  obtain ⟨rest, hbetween, -⟩ := exists_of_append_eq_append hmem hnotes.symm
  exact ⟨failures, list, rest, hbetween, hlist, hfailures⟩

theorem FollowsList.fail {limit : Nat} {notes : List WatchNote} {version : String}
    (h : FollowsList limit notes version) :
    FollowsList limit (.came (.opened false) :: .asked (.watch version) :: notes) version := by
  obtain ⟨failures, list, older, rfl, hlist, hfailures⟩ := h
  refine ⟨.came (.opened false) :: .asked (.watch version) :: failures, list, older, rfl, hlist, ?_⟩
  intro n hn
  rcases List.mem_cons.mp hn with rfl | hn
  · exact Or.inr rfl
  · rcases List.mem_cons.mp hn with rfl | hn
    · exact Or.inl rfl
    · exact hfailures n hn

/-! ## Where a watcher stands -/

/-- What was asked for and what came, up to where a watcher stands. It only matters up to the
opening of a stream. -/
def Stands (limit : Nat) (w : PagedWatcher) (notes : List WatchNote) : Prop :=
  match w.stage with
  | .asking token =>
    ∃ before older, notes = .asked (.page limit token) :: before ++ older ∧
      Pages limit before token
  | .storing _ _ page =>
    ∃ token before older,
      notes = .came (.page (some page)) :: .asked (.page limit token) :: before ++ older ∧
        Pages limit before token
  | .opening =>
    ∃ older, notes = .asked (.watch w.cursor) :: older ∧ FollowsList limit older w.cursor
  | .idle | .resting _ =>
    (w.phase = .watching ∨ ∃ delay, w.phase = .backoff delay ∧ w.cursor ≠ "") →
      FollowsList limit notes w.cursor
  | .listening | .delivering .. => True

namespace Stands

variable {limit : Nat} {w : PagedWatcher}

/-- `Stands` says nothing about a watcher that is `.idle` and will not watch. -/
theorem of_idle {notes : List WatchNote} (hstage : w.stage = .idle) (hphase : w.phase ≠ .watching)
    (hbackoff : ∀ delay, w.phase ≠ .backoff delay) : Stands limit w notes := by
  unfold Stands
  rw [hstage]
  rintro (h | ⟨delay, h, -⟩)
  · exact absurd h hphase
  · exact absurd h (hbackoff delay)

theorem stop (w : PagedWatcher) (notes : List WatchNote) : Stands limit w.stop notes :=
  of_idle rfl nofun nofun

theorem relist (w : PagedWatcher) (notes : List WatchNote) : Stands limit w.relist notes :=
  of_idle rfl nofun nofun

theorem listen (w : PagedWatcher) (s : Signals) (notes : List WatchNote) :
    Stands limit (w.listen s) notes := by
  rcases w.listen_cases s with ⟨-, h⟩ | ⟨-, -, h⟩ | ⟨-, -, h⟩
  · rw [h]
    exact stop w notes
  · rw [h]
    exact relist _ notes
  · rw [h]
    trivial

/-- `store` of a page that is in keeps `Stands`: it adds to the `Pages`, and the last one completes
the list. -/
theorem store (s : Signals) (page : ListPage) (rest : List Json) {token : Option String}
    {before : List WatchNote} (older : List WatchNote) (hsize : w.pageSize = limit)
    (hpages : Pages limit before token) :
    Stands limit (w.store s page rest)
      (traffic ((w.store s page rest).notes none) ++
        (.came (.page (some page)) :: .asked (.page limit token) :: before ++ older)) := by
  rcases w.store_cases s page rest with ⟨object, later, -, h⟩ | ⟨-, next, -, -, h⟩ |
    ⟨-, next, hnext, -, h⟩ | ⟨-, hnext, h⟩
  · rw [h]
    exact ⟨token, before, older, rfl, hpages⟩
  · rw [h]
    exact stop w _
  · rw [h, ← hsize]
    exact ⟨_, older, rfl, hsize ▸ hpages.page hnext⟩
  · rw [h]
    intro _
    -- The list is full, and no stream was asked for yet.
    exact ⟨[], _, older, rfl, ⟨page, token, before, rfl, hpages, hnext, rfl⟩, nofun⟩

/-- A `Stride` keeps `Stands`: the watcher stands where its notes say. -/
theorem stride {w' : PagedWatcher} {s : Signals} {x : Option Answer} {notes : List WatchNote}
    (hw : w.Paced) (hsize : w.pageSize = limit) (h : Stands limit w notes)
    (hstride : PagedWatcher.Stride s w x w') :
    Stands limit w' (traffic (w'.notes x) ++ notes) := by
  unfold Stands at h
  cases hstride with
  | stop => exact stop w _
  | init | ended => exact relist _ _
  -- A list begins without pages, and a stream from where the last one was left.
  | list idle phase =>
    rw [← hsize]
    exact ⟨[], notes, rfl, .first⟩
  | connect idle phase =>
    rw [idle] at h
    exact ⟨notes, rfl, h (Or.inl phase)⟩
  | pause delay idle phase =>
    rw [idle] at h
    exact h
  -- A list that failed leaves no version to go on from.
  | unlisted token stage =>
    rw [PagedWatcher.rest_eq]
    rintro (h | ⟨delay, -, hcursor⟩)
    · cases h
    · exact absurd rfl hcursor
  -- The pages so far are followed by one more, and its objects are handed over.
  | paged token page stage =>
    rw [stage] at h
    obtain ⟨before, older, rfl, hpages⟩ := h
    have hstore := store (w := { w with backoff := w.backoff.reset }) s page page.items older hsize
      hpages
    rw [PagedWatcher.notes_eq, traffic_append, List.append_assoc]
    exact hstore
  | stored object rest page stage =>
    rw [stage] at h
    obtain ⟨token, before, older, rfl, hpages⟩ := h
    rw [PagedWatcher.notes_eq, traffic_append, List.append_assoc]
    exact store s page rest older hsize hpages
  | opened stage => exact listen _ s _
  -- One more attempt in vain from the same version.
  | unopened stage =>
    rw [stage] at h
    obtain ⟨older, rfl, hfollows⟩ := h
    rw [PagedWatcher.rest_eq]
    intro _
    exact hfollows.fail
  | changed event action object stage => trivial
  | marked version stage => exact listen _ s _
  | delivered action object stage => exact listen w s _
  -- After a rest it watches only with a version to go on from.
  | rested delay stage =>
    rw [stage] at h
    have hphase : w.phase = .backoff delay := hw _ (by rw [stage]; rfl)
    rintro (hwatching | ⟨delay, hbackoff, -⟩)
    · have hcursor : w.cursor ≠ "" := by
        intro hcursor
        simp [PagedWatcher.settle, hcursor] at hwatching
      exact h (Or.inr ⟨delay, hphase, hcursor⟩)
    · simp only [PagedWatcher.settle] at hbackoff
      split at hbackoff <;> cases hbackoff

end Stands

/-! ## The invariant -/

/-- A watcher that has no list to go on from has an empty cursor. -/
def Clear (w : PagedWatcher) : Prop := w.phase = .init ∨ w.phase = .listing → w.cursor = ""

namespace Clear

variable {w w' : PagedWatcher} {s : Signals}

theorem of_phase (hinit : w.phase ≠ .init) (hlisting : w.phase ≠ .listing) : Clear w := by
  rintro (h | h)
  · exact absurd h hinit
  · exact absurd h hlisting

theorem listen (s : Signals) (h : Clear w) : Clear (w.listen s) := by
  rcases w.listen_cases s with ⟨-, hw⟩ | ⟨-, -, hw⟩ | ⟨-, -, hw⟩
  · rw [hw]
    exact of_phase nofun nofun
  · rw [hw]
    exact fun _ => rfl
  · rw [hw]
    exact h

theorem store (s : Signals) (page : ListPage) (rest : List Json) (h : Clear w) :
    Clear (w.store s page rest) := by
  rcases w.store_cases s page rest with ⟨object, later, -, hw⟩ | ⟨-, token, -, -, hw⟩ |
    ⟨-, token, -, -, hw⟩ | ⟨-, -, hw⟩
  · rw [hw]
    exact h
  · rw [hw]
    exact of_phase nofun nofun
  · rw [hw]
    exact h
  · rw [hw]
    exact of_phase nofun nofun

/-- A `Stride` keeps `Clear`: the cursor moves only while a stream is open, and is cleared on every
way back to a list. -/
theorem stride {x : Option Answer} (hw : w.Paced) (h : Clear w)
    (hstride : PagedWatcher.Stride s w x w') : Clear w' := by
  have hwatching : w.stage = .listening → w.phase = .watching := fun hstage =>
    hw _ (by rw [hstage]; rfl)
  cases hstride with
  | stop => exact of_phase nofun nofun
  | unlisted | unopened =>
    rw [PagedWatcher.rest_eq]
    exact of_phase nofun nofun
  | init | ended => exact fun _ => rfl
  | list | connect | pause => exact h
  | paged token page stage =>
    exact store (w := { w with backoff := w.backoff.reset }) s page page.items
      fun hphase => h hphase
  | stored object rest page stage => exact store s page rest h
  | opened stage =>
    exact listen (w := { w with backoff := w.backoff.reset }) s fun hphase => h hphase
  | delivered action object stage => exact listen s h
  | changed event action object stage =>
    obtain ⟨cursor, hcursor⟩ := w.exists_advance (objectVersion object)
    simp only [PagedWatcher.deliver, hcursor]
    exact of_phase (by simp [hwatching stage]) (by simp [hwatching stage])
  | marked version stage =>
    obtain ⟨cursor, hcursor⟩ := w.exists_advance version
    rw [hcursor]
    exact listen s (of_phase (by simp [hwatching stage]) (by simp [hwatching stage]))
  | rested delay stage =>
    rintro (hinit | hlisting)
    · simp only [PagedWatcher.settle] at hinit
      split at hinit <;> cases hinit
    · simp only [PagedWatcher.settle] at hlisting ⊢
      -- With a version it would watch.
      by_contra hcursor
      rw [if_neg hcursor] at hlisting
      cases hlisting

end Clear

theorem pageSize_listen (w : PagedWatcher) (s : Signals) :
    (w.listen s).pageSize = w.pageSize := by
  rcases w.listen_cases s with ⟨-, h⟩ | ⟨-, -, h⟩ | ⟨-, -, h⟩
  · rw [h, PagedWatcher.stop, PagedWatcher.settle]
  · rw [h, PagedWatcher.relist, PagedWatcher.settle, PagedWatcher.catchUp]
  · rw [h]

theorem pageSize_store (w : PagedWatcher) (s : Signals) (page : ListPage) (rest : List Json) :
    (w.store s page rest).pageSize = w.pageSize := by
  rcases w.store_cases s page rest with ⟨object, later, -, h⟩ | ⟨-, token, -, -, h⟩ |
    ⟨-, token, -, -, h⟩ | ⟨-, -, h⟩
  · rw [h]
  · rw [h, PagedWatcher.stop, PagedWatcher.settle]
  · rw [h]
  · rw [h, PagedWatcher.settle]

theorem pageSize_stride {w w' : PagedWatcher} {s : Signals} {x : Option Answer}
    (hstride : PagedWatcher.Stride s w x w') : w'.pageSize = w.pageSize := by
  cases hstride with
  | stop | init | ended | list | connect | pause | rested => rfl
  | unlisted | unopened => rw [PagedWatcher.rest_eq]
  | paged => exact pageSize_store _ s _ _
  | stored => exact pageSize_store w s _ _
  | opened => exact pageSize_listen _ s
  | delivered => exact pageSize_listen w s
  | changed event action object =>
    obtain ⟨cursor, hcursor⟩ := w.exists_advance (objectVersion object)
    rw [PagedWatcher.deliver, hcursor]
  | marked version =>
    obtain ⟨cursor, hcursor⟩ := w.exists_advance version
    rw [hcursor]
    exact pageSize_listen _ s

/-- A watcher `Stands` where its notes say, and asked for every stream from where a list ended, as
`FollowsList` has it. -/
structure Anchored (limit : Nat) (v : Vigil) : Prop where
  paced : v.watcher.Paced
  size : v.watcher.pageSize = limit
  clear : Clear v.watcher
  stands : Stands limit v.watcher (traffic v.past)
  watches : ∀ new version old, traffic v.past = new ++ .asked (.watch version) :: old →
    FollowsList limit old version

theorem anchored_start (pageSize : Nat) (backoff : Backoff) (listens : Bool) (resyncs : Nat) :
    Anchored (max pageSize 1) (.start pageSize backoff listens resyncs) := by
  refine ⟨.of_idle rfl, rfl, fun _ => rfl, .of_idle rfl nofun nofun, ?_⟩
  intro new version old h
  exact absurd (congrArg List.length h) (by simp [Vigil.start, traffic])

namespace Anchored

variable {limit : Nat} {v v' : Vigil}

theorem goOn {x : Option Answer} {w : PagedWatcher} (h : Anchored limit v)
    (stride : v.watcher.Stride v.signals x w) : Anchored limit (v.goOn x w) := by
  have hstands := h.stands.stride h.paced h.size stride
  have hpast : traffic (v.goOn x w).past = traffic (w.notes x) ++ traffic v.past :=
    traffic_append ..
  -- What is new is the last field: every request for a stream follows a list, the one that this
  -- stride makes, if it makes one, and those that were made before.
  refine ⟨h.paced.stride stride, (pageSize_stride stride).trans h.size,
    h.clear.stride h.paced stride, hpast ▸ hstands, ?_⟩
  intro new version old hsplit
  rw [hpast] at hsplit
  have hcame : .asked (.watch version) ∉ traffic (x.map WatchNote.came).toList := by
    cases x <;> simp [traffic]
  by_cases hmem : .asked (.watch version) ∈ traffic (w.notes x)
  -- The watcher asks for a stream now, and nothing has moved the cursor.
  · have hwait : w.wait = some (.watch version) := by
      rcases PagedWatcher.mem_notes.mp (List.mem_filter.mp hmem).1 with ⟨r, hr, h⟩ | ⟨a, -, h⟩
      · obtain rfl := WatchNote.asked.inj h
        exact hr
      · cases h
    have hnotes : traffic (w.notes x) =
        .asked (.watch version) :: traffic (x.map WatchNote.came).toList := by
      rw [PagedWatcher.notes, hwait, traffic_append]
      rfl
    have hstage : w.stage = .opening ∧ w.cursor = version := by
      unfold PagedWatcher.wait at hwait
      split at hwait <;> simp_all
    rw [Stands, hstage.1, hstage.2, hnotes] at hstands
    obtain ⟨older, holder, hfollows⟩ := hstands
    obtain ⟨-, rfl⟩ := List.cons.inj holder
    rw [hnotes] at hsplit
    cases new with
    | nil =>
      obtain ⟨-, rfl⟩ := List.cons.inj hsplit
      exact hfollows
    | cons n new =>
      obtain ⟨-, hsplit⟩ := List.cons.inj hsplit
      obtain ⟨between, -, hbetween⟩ := exists_of_append_eq_append hcame hsplit
      exact h.watches between version old hbetween
  · obtain ⟨between, -, hbetween⟩ := exists_of_append_eq_append hmem hsplit
    exact h.watches between version old hbetween

/-- A wait that is given up keeps `Anchored`: there is nothing to go on from but a list. -/
theorem leave (h : Anchored limit v) (leaves : v.watcher.interrupted v.signals ≠ v.watcher) :
    Anchored limit
      { v with watcher := v.watcher.interrupted v.signals, past := .left :: v.past } := by
  refine ⟨h.paced.interrupted _, ?_, ?_, ?_, h.watches⟩
  · rcases PagedWatcher.leave_cases leaves with ⟨-, hw⟩ | ⟨-, -, -, hw⟩
    · exact hw ▸ h.size
    · exact hw ▸ h.size
  · rcases PagedWatcher.leave_cases leaves with ⟨-, hw⟩ | ⟨-, -, -, hw⟩
    · rw [hw]
      exact .of_phase nofun nofun
    · rw [hw]
      exact fun _ => rfl
  · rcases PagedWatcher.leave_cases leaves with ⟨-, hw⟩ | ⟨-, -, -, hw⟩
    · rw [hw]
      exact .stop _ _
    · rw [hw]
      exact .relist _ _

/-- Every `Vigil.Step` keeps `Anchored`. -/
theorem step {o : Occasion} (h : Anchored limit v) (hstep : Vigil.Step v o v') :
    Anchored limit v' := by
  cases hstep with
  | begin idle stride => exact h.goOn stride
  | answer stride => exact h.goOn stride
  | stay stays => exact h
  | leave leaves => exact h.leave leaves
  | resync | cancel | disconnect => exact ⟨h.paced, h.size, h.clear, h.stands, h.watches⟩

end Anchored

namespace Vigil

/-- Every stream in a `run?` is asked for from the version where a full list ended, as `FollowsList`
has it: with nothing in between but attempts from that version that failed. After the end of a
stream another full list comes first. While a list is due there is no version to go on from. -/
theorem watch_follows_list {pageSize : Nat} {backoff : Backoff} {listens : Bool} {resyncs : Nat}
    {occasions : List Occasion} {v : Vigil}
    (h : (start pageSize backoff listens resyncs).run? occasions = some v) :
    (∀ new version old, traffic v.past = new ++ .asked (.watch version) :: old →
      FollowsList (max pageSize 1) old version) ∧
    (∀ new version between old,
      traffic v.past = new ++ .asked (.watch version) :: between ++ .came (.opened true) :: old →
        FollowsList (max pageSize 1) between version) ∧
    (v.watcher.phase = .listing → v.watcher.cursor = "") := by
  have hanchored : Anchored (max pageSize 1) v :=
    run?_preserves Anchored.step (anchored_start pageSize backoff listens resyncs) h
  refine ⟨hanchored.watches, ?_, fun hphase => hanchored.clear (Or.inr hphase)⟩
  intro new version between old hsplit
  rw [List.append_assoc, List.cons_append] at hsplit
  exact (hanchored.watches new version _ hsplit).since_opened

/-- A list of two pages; the stream after it is opened at the second attempt, and closed. -/
def secondAttempt : List Occasion :=
  [.begin, .begin, .answer (.page (some ⟨[.null], "6", some "next"⟩)), .answer .handled,
    .answer (.page (some ⟨[], "7", none⟩)), .begin, .answer (.opened false), .begin,
    .answer .rested, .begin, .answer (.opened true), .answer (.event .closed)]

theorem watch_follows_list_second : ∃ v,
    (start 1 (.new (.ofSeconds 1) (.ofSeconds 30)) false 0).run? secondAttempt = some v ∧
      (∃ new old, traffic v.past = new ++ .asked (.watch "7") :: old ∧
        .came (.opened false) ∈ old ∧ FollowsList 1 old "7") ∧
      v.watcher.phase = .listing ∧ v.watcher.cursor = "" := by
  have hrun : ((start 1 (.new (.ofSeconds 1) (.ofSeconds 30)) false 0).run? secondAttempt).map
      (fun v => (traffic v.past, v.watcher.phase)) =
        some ([.came (.opened true)] ++ .asked (.watch "7") :: [.came (.opened false),
          .asked (.watch "7"), .came (.page (some ⟨[], "7", none⟩)), .asked (.page 1 (some "next")),
          .came (.page (some ⟨[.null], "6", some "next"⟩)), .asked (.page 1 none)], .listing) := by
    decide +kernel
  obtain ⟨v, hv, hend⟩ := Option.map_eq_some_iff.mp hrun
  obtain ⟨hpast, hphase⟩ := Prod.mk.inj hend
  obtain ⟨hwatches, -, hclear⟩ := watch_follows_list hv
  exact ⟨v, hv, ⟨_, _, hpast, by decide, hwatches _ _ _ hpast⟩, hphase, hclear hphase⟩

end Vigil

end InventorySync
