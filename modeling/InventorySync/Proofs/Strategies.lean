import InventorySync.Proofs.Errand
import InventorySync.Proofs.Mirror

/-!
# Two ways to follow a resource

The same history comes to a watcher that lists and follows, and to an informer that keeps a store.
What vanishes between two lists only the informer notices at once; to the watcher it is as good as
unchanged until a sweep finds that the window has not seen it. So at the end of a window both leave
the same, but for what the window has seen before the latest list and the latest list and the
changes after it do not mention.

## Key results

- `replies_source`: a history as the replies of a source
- `Cut.held_finish`: what is left when the window ends in which the latest segment lies
- `strategies_agree_but_lingering`: where the two ways leave the same, and where not
-/

namespace InventorySync

/-! ## A history as a source -/

/-- What a stream brings of a change. -/
def Delivery.streamed : Delivery → StreamEvent
  | (.create, object) => .added object
  | (.update, object) => .modified object
  | (.delete, object) => .deleted object

theorem Delivery.change?_streamed (d : Delivery) : d.streamed.change? = some d := by
  obtain ⟨_ | _ | _, object⟩ := d <;> rfl

theorem Delivery.isLast_streamed (d : Delivery) : d.streamed.isLast = false := by
  obtain ⟨_ | _ | _, object⟩ := d <;> rfl

namespace Segment

/-- The pages of the list. -/
def listPages (seg : Segment) : List ListPage :=
  seg.pages.map (fun p => ⟨p.1, seg.version, some p.2⟩) ++ [⟨seg.last, seg.version, none⟩]

/-- The stream of the changes, which then ends. -/
def stream (seg : Segment) : StreamScript :=
  ⟨seg.changes.map fun d => .plain (some d.streamed), true⟩

/-- The replies that tell the segment. -/
def replies (seg : Segment) : List SourceReply :=
  seg.listPages.map (fun page => .page (some page)) ++ [.stream (some seg.stream)]

end Segment

/-- A source that tells segments one after the other, and falls silent. -/
def source (segs : List Segment) : SourceScript where
  lists := segs.flatMap fun seg => seg.listPages.map fun page => .plain (some page)
  watches := segs.map fun seg => .plain (some seg.stream)
  laterList := none
  laterWatch := none
  isRemote := false

namespace Segment

theorem brings_stream (seg : Segment) :
    seg.stream.brings = seg.changes.map (·.streamed) ++ [.closed] := by
  simp [StreamScript.brings, stream, List.filterMap_map, Scripted.plain]

theorem streamChanges_stream (seg : Segment) : streamChanges seg.stream.brings = seg.changes := by
  have hlasts : ∀ event ∈ seg.changes.map (·.streamed), (!event.isLast) = true := by
    intro event hevent
    obtain ⟨d, -, rfl⟩ := List.mem_map.mp hevent
    rw [d.isLast_streamed]
    rfl
  rw [streamChanges, brings_stream, List.takeWhile_append_of_pos hlasts, List.filterMap_append,
    List.filterMap_map]
  simp [Delivery.change?_streamed, StreamEvent.isLast]

/-- The `changes` of the `replies` of a segment are what is `said` in it. -/
theorem changes_replies (seg : Segment) : seg.replies.flatMap (·.changes) = seg.said := by
  have hlist : (seg.listPages.map fun page => SourceReply.page (some page)).flatMap (·.changes) =
      seg.listed.map ((.create, ·)) := by
    rw [listPages, List.map_append, List.flatMap_append, List.map_map, List.flatMap_map, listed,
      List.map_append, List.map_flatMap]
    exact congrArg (_ ++ ·) (List.append_nil _)
  rw [replies, List.flatMap_append, hlist, List.flatMap_singleton, said]
  exact congrArg (_ ++ ·) seg.streamChanges_stream

theorem ends_replies (seg : Segment) : ∀ reply ∈ seg.replies, reply.ends = true := by
  intro reply hreply
  rcases List.mem_append.mp hreply with hpage | hstream
  · obtain ⟨page, -, rfl⟩ := List.mem_map.mp hpage
    rfl
  · obtain rfl := List.mem_singleton.mp hstream
    show seg.stream.brings.any (·.isLast) = true
    rw [brings_stream, List.any_append]
    simp [StreamEvent.isLast]

/-- `replies` begins with the pages that are not the last of a list. -/
theorem replies_pages (s : SourceScript) (pages : List ListPage)
    (hnext : ∀ page ∈ pages, page.next.isSome = true) (k : Nat) :
    ({ s with lists := pages.map (fun page => .plain (some page)) ++ s.lists } :
        SourceScript).replies (pages.length + k) none =
      pages.map (fun page => .page (some page)) ++ s.replies k none := by
  induction pages with
  | nil => rw [List.length_nil, Nat.zero_add]; rfl
  | cons page pages ih =>
    have hdue : (SourceReply.page (some page)).due none = none := by
      rw [SourceReply.due, if_pos (hnext page List.mem_cons_self)]
    rw [List.length_cons, Nat.add_right_comm, SourceScript.replies_succ_of_next? rfl]
    show SourceReply.page (some page) ::
      SourceScript.replies _ _ ((SourceReply.page (some page)).due none) = _
    rw [hdue]
    exact congrArg (SourceReply.page (some page) :: ·)
      (ih fun page' hpage' => hnext page' (List.mem_cons_of_mem _ hpage'))

/-- `replies` of a `source` go through its first segment, and then on to the others. -/
theorem replies_source_cons (seg : Segment) (segs : List Segment) (k : Nat) :
    (source (seg :: segs)).replies (seg.replies.length + k) none =
      seg.replies ++ (source segs).replies k none := by
  let first := seg.pages.map fun p => (⟨p.1, seg.version, some p.2⟩ : ListPage)
  let rest : SourceScript :=
    { source (seg :: segs) with
      lists := .plain (some ⟨seg.last, seg.version, none⟩) :: (source segs).lists }
  have hsource : source (seg :: segs) =
      { rest with lists := first.map (fun page => .plain (some page)) ++ rest.lists } := by
    simp [source, rest, first, listPages]
  have hfirst : ∀ page ∈ first, page.next.isSome = true := by
    intro page hpage
    obtain ⟨p, -, rfl⟩ := List.mem_map.mp hpage
    rfl
  have hlength : seg.replies.length + k = first.length + (k + 2) := by
    simp [replies, listPages, first]
    omega
  -- After the last page the stream is due, and after the stream the next list.
  have hrest : rest.replies (k + 2) none =
      .page (some ⟨seg.last, seg.version, none⟩) :: .stream (some seg.stream) ::
        (source segs).replies k none := rfl
  rw [hsource, hlength, replies_pages rest first hfirst, hrest]
  simp [replies, listPages, first]

end Segment

/-- `replies` of a `source` are those of its segments. -/
theorem replies_source (segs : List Segment) :
    (source segs).replies (segs.flatMap (·.replies)).length none = segs.flatMap (·.replies) := by
  induction segs with
  | nil => rfl
  | cons seg segs ih =>
    rw [List.flatMap_cons, List.length_append, Segment.replies_source_cons, ih]

/-- Some `run` of a watcher has in its `calls` everything that is `said` in the segments of its
`source`. -/
theorem exists_calls_source (pageSize : Nat) (backoff : Backoff) (seen : Option Nat)
    (segs : List Segment) : ∃ turns,
      ((Errand.start pageSize backoff seen (source segs)).run turns).calls =
        segs.flatMap (·.said) := by
  have hends : ∀ reply ∈ (source segs).replies (segs.flatMap (·.replies)).length none,
      reply.ends = true := by
    intro reply hreply
    rw [replies_source] at hreply
    obtain ⟨seg, -, hreply⟩ := List.mem_flatMap.mp hreply
    exact seg.ends_replies reply hreply
  obtain ⟨turns, -, hcalls⟩ := Errand.exists_calls pageSize backoff seen (source segs) _ hends
  refine ⟨turns, hcalls.trans ?_⟩
  rw [replies_source, List.flatMap_assoc]
  exact congrArg (fun f => List.flatMap f segs) (funext Segment.changes_replies)

/-! ## Both ends -/

/-- Deliveries cut into windows: those of the closed windows, and the `recent` ones of the open one.
-/
structure Cut (ds : List Delivery) where
  closed : List (List Delivery)
  recent : List Delivery
  whole : closed.flatten ++ recent = ds

namespace Cut

variable {ds es : List Delivery} {n : Normalizer} {s : Session}

/-- The deliveries come to a session, a sweep ends each closed window, and after more deliveries
another sweep ends the open one. -/
def finish (cut : Cut ds) (s : Session) (owner : Owner) (es : List Delivery) : Session :=
  s.windows owner (cut.closed ++ [cut.recent ++ es])

/-- No sweep has come. -/
def unswept (ds : List Delivery) : Cut ds := ⟨[], ds, rfl⟩

/-- A sweep has just come. -/
def swept (ds : List Delivery) : Cut ds := ⟨[ds], [], by simp⟩

theorem reads_closed (cut : Cut ds) (h : n.Reads ds) : ∀ w ∈ cut.closed, n.Reads w := by
  intro w hw d hd
  refine h d ?_
  rw [← cut.whole]
  exact List.mem_append_left _ (List.mem_flatten.mpr ⟨w, hw, hd⟩)

theorem reads_recent (cut : Cut ds) (h : n.Reads ds) : n.Reads cut.recent := by
  intro d hd
  refine h d ?_
  rw [← cut.whole]
  exact List.mem_append_right _ hd

/-- After `finish`, `held` and `hash?` are what the deliveries of the last window `leaves`. -/
theorem held_finish (cut : Cut ds) (owner : Owner) (hn : s.pipeline.normalizer = n) (hs : s.Fresh)
    (hds : n.Reads ds) (hes : n.Reads es) (id : String) :
    (cut.finish s owner es).inventory.held[id]? = n.leaves (cut.recent ++ es) id ∧
      (cut.finish s owner es).pipeline.cache.hash? id = n.leaves (cut.recent ++ es) id :=
  Session.held_windows hn hs (cut.reads_closed hds) ((cut.reads_recent hds).append hes) id

end Cut

/-- An object of the window before that is not mentioned any more. -/
def Lingers (n : Normalizer) (recent said : List Delivery) (r : Record) : Prop :=
  n.Alive recent r ∧ ∀ d ∈ said, uid? d.2 ≠ some r.identifier

/-- What `recent ++ said` leaves at an identifier is what `said` leaves, exactly if nothing
`Lingers` there. -/
theorem leaves_append_eq_iff {n : Normalizer} {recent said : List Delivery}
    (hrecent : n.Reads recent) (hsaid : n.Reads said) (id : String) :
    n.leaves (recent ++ said) id = n.leaves said id ↔
      ¬∃ r, Lingers n recent said r ∧ r.identifier = id := by
  constructor
  · -- What lingers is left by the longer run alone.
    rintro hsame ⟨r, ⟨halive, hrest⟩, rfl⟩
    have hleft : n.leaves (recent ++ said) r.identifier = some r.contentHash :=
      (Normalizer.leaves_eq_some_iff (hrecent.append hsaid)).mpr
        ⟨r, Normalizer.alive_append.mpr (Or.inr ⟨halive, hrest⟩), rfl, rfl⟩
    have hnone : n.leaves said r.identifier = none := by
      rw [Normalizer.leaves_eq, (Normalizer.asks_eq_none_iff hsaid).mpr hrest]
      rfl
    cases hnone.symm.trans (hsame.symm.trans hleft)
  · intro hnot
    refine Option.ext fun hash => ?_
    show _ = some hash ↔ _ = some hash
    rw [Normalizer.leaves_eq_some_iff (hrecent.append hsaid), Normalizer.leaves_eq_some_iff hsaid]
    constructor
    · rintro ⟨r, halive, rfl, rfl⟩
      rcases Normalizer.alive_append.mp halive with halive | hlingers
      · exact ⟨r, halive, rfl, rfl⟩
      · exact absurd ⟨r, hlingers, rfl⟩ hnot
    · rintro ⟨r, halive, hid, hhash⟩
      exact ⟨r, Normalizer.alive_append.mpr (Or.inl halive), hid, hhash⟩

/-- A watcher, by its `calls`, and an informer, by what it `hands` over, follow the same history,
each in front of an inventory that accepts everything, and `finish` with a sweep ends the window in
which the latest segment lies, however each `Cut` the deliveries before it into windows. The
informer leaves the objects that are `Alive` in the latest segment. The watcher leaves these too,
and what `Lingers`: an object of the same window that vanished before the latest list. -/
theorem strategies_agree_but_lingering (n : Normalizer) (owner : Owner) (c : ChangeCache)
    (errors : Nat) (held : Holdings) {script : List PreparedAnswer}
    (willing : ∀ a ∈ script, a.reply.isOk = true) (pageSize : Nat) (backoff : Backoff)
    (seen : Option Nat) {earlier : List Segment} {latest : Segment}
    (proper : ∀ seg ∈ earlier ++ [latest], n.Reads seg.said ∧ Consistent seg.said)
    (watched : Cut (earlier.flatMap (·.said)))
    (informed : Cut (ObjectStore.hands [] (earlier.flatMap (·.events)))) :
    let start := Session.fresh n c.openWindow errors held script
    let store := ObjectStore.applyAll [] (earlier.flatMap (·.events))
    let left := watched.finish start owner latest.said
    let right := informed.finish start owner (store.hands latest.events)
    (∃ turns,
      ((Errand.start pageSize backoff seen (source (earlier ++ [latest]))).run turns).calls =
        earlier.flatMap (·.said) ++ latest.said) ∧
    ∀ id, left.pipeline.cache.hash? id = left.inventory.held[id]? ∧
      right.pipeline.cache.hash? id = right.inventory.held[id]? ∧
      (∀ hash, right.inventory.held[id]? = some hash ↔
        ∃ r, n.Alive latest.said r ∧ r.identifier = id ∧ r.contentHash = hash) ∧
      (∀ hash, left.inventory.held[id]? = some hash ↔
        ∃ r, (n.Alive latest.said r ∨ Lingers n watched.recent latest.said r) ∧
          r.identifier = id ∧ r.contentHash = hash) ∧
      (left.inventory.held[id]? = right.inventory.held[id]? ↔
        ¬∃ r, Lingers n watched.recent latest.said r ∧ r.identifier = id) := by
  intro start store left right
  have hlatest : n.Reads latest.said := (proper latest (by simp)).1
  have hsaid : n.Reads (earlier.flatMap (·.said)) := by
    intro d hd
    obtain ⟨seg, hseg, hd⟩ := List.mem_flatMap.mp hd
    exact (proper seg (List.mem_append_left _ hseg)).1 d hd
  have hmirrors : Mirrors n (ObjectStore.hands [] (earlier.flatMap (·.events))) store :=
    Mirrors.segments fun seg hseg => proper seg (List.mem_append_left _ hseg)
  have hfresh : start.Fresh := Session.fresh_start n c errors held willing
  refine ⟨?_, fun id => ?_⟩
  · obtain ⟨turns, hcalls⟩ := exists_calls_source pageSize backoff seen (earlier ++ [latest])
    refine ⟨turns, hcalls.trans ?_⟩
    rw [List.flatMap_append, List.flatMap_singleton]
  · have hn : start.pipeline.normalizer = n := rfl
    obtain ⟨hleft, hleftCache⟩ := watched.held_finish owner hn hfresh hsaid hlatest id
    obtain ⟨hright, hrightCache⟩ := informed.held_finish owner hn hfresh hmirrors.handed
      (ObjectStore.reads_hands hmirrors.reads hlatest) id
    -- What the informer's window has seen before is settled by its store.
    have hinformed : n.leaves (informed.recent ++ store.hands latest.events) id =
        n.leaves latest.said id :=
      Mirrors.leaves_hands informed.closed.flatten (by rwa [informed.whole]) hlatest id
    have hrecent : n.Reads watched.recent := watched.reads_recent hsaid
    refine ⟨hleftCache.trans hleft.symm, hrightCache.trans hright.symm, fun hash => ?_,
      fun hash => ?_, ?_⟩
    · rw [hright, hinformed, Normalizer.leaves_eq_some_iff hlatest]
    · rw [hleft, Normalizer.leaves_eq_some_iff (hrecent.append hlatest)]
      simp only [Normalizer.alive_append, Lingers]
    · rw [hleft, hright, hinformed]
      exact leaves_append_eq_iff hrecent hlatest id

/-- An object with a name. -/
def namedDoc (name uid : String) : Json :=
  .object [("apiVersion", .string "v1"), ("kind", .string "Thing"),
    ("metadata", .object [("name", .string name), ("uid", .string uid)])]

/-- Two objects. -/
def twoListed : Segment := ⟨[([namedDoc "one" "a"], "next")], [namedDoc "two" "b"], "1", []⟩

/-- One of them is gone, and another one comes. -/
def oneListed : Segment :=
  ⟨[], [namedDoc "one" "a"], "2", [(.create, namedDoc "three" "c"), (.update, namedDoc "one" "a")]⟩

/-- A start with nothing. -/
def emptyStart : Session :=
  .fresh ⟨.cluster "c", .passthrough⟩ ChangeCache.empty.openWindow 0 ∅ []

/-- What the informer hands over for the first list. -/
def firstHanded : List Delivery := ObjectStore.hands [] ([twoListed].flatMap (·.events))

/-- What it hands over next. -/
def nextHanded : List Delivery :=
  (ObjectStore.applyAll [] ([twoListed].flatMap (·.events))).hands oneListed.events

/-- When a sweep comes between the segments, `Cut.swept`, the watcher leaves the same of what is
gone as the informer. -/
theorem strategies_agree_after_sweep :
    ((Cut.swept ([twoListed].flatMap (·.said))).finish emptyStart (.cluster "c")
        oneListed.said).inventory.held["b"]? =
      ((Cut.unswept firstHanded).finish emptyStart (.cluster "c")
        nextHanded).inventory.held["b"]? := by
  have hproper : ∀ seg ∈ [twoListed] ++ [oneListed],
      Normalizer.Reads ⟨.cluster "c", .passthrough⟩ seg.said ∧ Consistent seg.said := by
    decide +kernel
  have hwilling : ∀ a ∈ ([] : List PreparedAnswer), a.reply.isOk = true := nofun
  obtain ⟨-, hends⟩ := strategies_agree_but_lingering ⟨.cluster "c", .passthrough⟩ (.cluster "c")
    .empty 0 ∅ hwilling 1 (.new (.ofSeconds 1) (.ofSeconds 30)) none hproper (.swept _) (.unswept _)
  obtain ⟨-, -, -, -, hsame⟩ := hends "b"
  refine hsame.mpr ?_
  rintro ⟨r, ⟨⟨before, d, after, hnothing, -⟩, -⟩, -⟩
  exact absurd hnothing (List.append_ne_nil_of_right_ne_nil _ (List.cons_ne_nil _ _)).symm

/-- With no sweep between the segments, `Cut.unswept`, the watcher leaves an object that was listed
at first and is gone; a name and a uid belong together, and each list has a name once. -/
theorem strategies_differ_in_window :
    (∀ seg ∈ [twoListed, oneListed],
      Normalizer.Reads ⟨.cluster "c", .passthrough⟩ seg.said ∧ Consistent seg.said ∧
        (seg.listed.map ObjectKey.of).Nodup) ∧
    (∀ d ∈ twoListed.said ++ oneListed.said, ∀ e ∈ twoListed.said ++ oneListed.said,
      uid? d.2 = uid? e.2 → ObjectKey.of d.2 = .of e.2) ∧
    ((Errand.start 1 (.new (.ofSeconds 1) (.ofSeconds 30)) none
        (source [twoListed, oneListed])).run 40).calls = twoListed.said ++ oneListed.said ∧
    let left := (Cut.unswept ([twoListed].flatMap (·.said))).finish emptyStart (.cluster "c")
      oneListed.said
    let right := (Cut.unswept firstHanded).finish emptyStart (.cluster "c") nextHanded
    left.inventory.held["b"]? ≠ right.inventory.held["b"]? ∧
      left.pipeline.cache.hash? "b" ≠ right.pipeline.cache.hash? "b" := by
  decide +kernel

end InventorySync
