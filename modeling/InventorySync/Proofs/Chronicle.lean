import InventorySync.Proofs.World

/-!
# Histories

A chronicle is a world with a note of everything that has happened in it. The notes do to a cache
what the moves do, so what the cache knows can be read off the history: an entry is marked as seen
exactly if the history shows it seen since the window was opened.

## Key results

- `World.cache_step`: the notes of a move change the cache as the move does
- `Chronicle.run?_preserves`: what every step keeps, every run keeps
- `active_replay_iff`: the marks are those of the window that is open
- `Chronicle.Recorded`, `Chronicle.recorded_step`: the cache is what the history makes of it
-/

namespace InventorySync

/-- Something that has happened, to a window, to an identifier or in a list. -/
inductive Note where
  /-- A well-formed event has arrived. -/
  | arrived (i : Nat) (action : Action) (record : Record)
  /-- An event that is no deletion has passed the gate while its identifier was cached. -/
  | marked (id : String)
  /-- Activity `i` has sent a request. -/
  | sent (i : Nat) (call : Call)
  /-- A request was answered with success, and the cache has it. -/
  | settled (call : Call)
  /-- A sweep is over, and the next window is open. -/
  | opened
  /-- The watcher has begun a list. -/
  | listBegan
  /-- The watcher has completed a list of these objects. -/
  | listed (objects : List Json)
deriving DecidableEq

namespace Note

/-- Whether a window was opened. -/
def isOpened : Note → Bool
  | .opened => true
  | .arrived .. | .marked _ | .sent .. | .settled _ | .listBegan | .listed _ => false

/-- The identifier was seen: an event passed while it was cached, or a creation or an update of it
was settled. -/
def Shows (id : String) : Note → Prop
  | .marked id' => id' = id
  | .settled call => call.uid = id ∧ call.action ≠ .delete
  | .arrived .. | .sent .. | .opened | .listBegan | .listed _ => False

/-- The request that activity `i` has sent. -/
def sentBy? (i : Nat) : Note → Option Call
  | .sent j call => if j = i then some call else none
  | .arrived .. | .marked _ | .settled _ | .opened | .listBegan | .listed _ => none

/-- What it does to the cache. -/
def apply (c : ChangeCache) : Note → ChangeCache
  | .marked id => c.markActive id
  | .settled call =>
    match call.action with
    | .delete => c.forget call.uid
    | .create | .update => c.updateHash call.uid call.hash
  | .opened => c.closeWindow.openWindow
  | .arrived .. | .sent .. | .listBegan | .listed _ => c

/-- What a turn of activity `i` shows: the request that it has sent, or the end of a sweep. -/
def ofTurn (i : Nat) (t : Turn Activity) : List Note :=
  match t.stage.wait with
  | .reply action r => [.sent i (.ofSend action r)]
  | .over (.swept _) => [.opened]
  | .gate _ | .over (.forwarded _) | .over (.flushed _) => []

end Note

/-- What the cache has become after a history, the newest first. -/
def replay (c : ChangeCache) (past : List Note) : ChangeCache :=
  past.foldr (fun note c => note.apply c) c

/-- What has happened since the window was opened. -/
def sinceOpened (past : List Note) : List Note := past.takeWhile fun note => !note.isOpened

/-- The requests of an activity in a history, the oldest first. -/
def sentIn (i : Nat) (past : List Note) : List Call := past.reverse.filterMap (Note.sentBy? i)

theorem replay_append (c : ChangeCache) (notes past : List Note) :
    replay c (notes ++ past) = replay (replay c past) notes := List.foldr_append

theorem sentIn_append (i : Nat) (notes past : List Note) :
    sentIn i (notes ++ past) = sentIn i past ++ sentIn i notes := by
  simp only [sentIn, List.reverse_append, List.filterMap_append]

theorem sinceOpened_append {notes : List Note} (h : ∀ note ∈ notes, note.isOpened = false)
    (past : List Note) : sinceOpened (notes ++ past) = notes ++ sinceOpened past := by
  unfold sinceOpened
  rw [List.takeWhile_append_of_pos]
  intro note hnote
  rw [h note hnote]
  rfl

/-! ## Marks -/

section Marks

variable {c : ChangeCache}

/-- A note that neither `Shows` the identifier nor opens a window leaves its entry alone, or removes
it. -/
theorem get?_apply_of_not_shows {note : Note} {id : String} (h : ¬ note.Shows id)
    (hnote : note.isOpened = false) :
    (note.apply c).get? id = none ∨ (note.apply c).get? id = c.get? id := by
  cases note with
  | marked id' =>
    have hid : id' ≠ id := h
    simp [Note.apply, ChangeCache.get?_markActive, hid]
  | settled call =>
    cases hcall : call.action with
    | delete =>
      simp only [Note.apply, hcall, ChangeCache.get?_forget]
      split
      · exact Or.inl rfl
      · exact Or.inr rfl
    | create | update =>
      have hid : call.uid ≠ id := fun hid => h ⟨hid, by simp [hcall]⟩
      simp [Note.apply, hcall, ChangeCache.get?_updateHash, hid]
  | opened => cases hnote
  | arrived | sent | listBegan | listed => exact Or.inr rfl

variable (hopen : c.windowOpen = true)
include hopen

theorem windowOpen_apply (note : Note) : (note.apply c).windowOpen = true := by
  cases note with
  | marked id => exact (c.windowOpen_markActive id).trans hopen
  | settled call =>
    show (match call.action with
      | .delete => _
      | .create | .update => _ : ChangeCache).windowOpen = true
    split <;> exact hopen
  | opened => rfl
  | arrived | sent | listBegan | listed => exact hopen

/-- After a note that `Shows` an identifier its entry is `active`, if there is one. -/
theorem active_apply_of_shows {note : Note} {id : String} (h : note.Shows id) {e : CacheEntry}
    (he : (note.apply c).get? id = some e) : e.active = true := by
  cases note with
  | marked id' =>
    obtain rfl : id' = id := h
    simp only [Note.apply, ChangeCache.get?_markActive, hopen, and_self, if_true] at he
    obtain ⟨e', -, rfl⟩ := Option.map_eq_some_iff.mp he
    rfl
  | settled call =>
    obtain ⟨rfl, haction⟩ := h
    cases hcall : call.action with
    | delete => exact absurd hcall haction
    | create | update =>
      -- What is settled now counts as seen, because the window is open.
      simp only [Note.apply, hcall, ChangeCache.get?_updateHash, if_true] at he
      obtain rfl := Option.some.inj he
      exact hopen
  | arrived | sent | opened | listBegan | listed => cases h

theorem windowOpen_replay (past : List Note) : (replay c past).windowOpen = true := by
  induction past with
  | nil => exact hopen
  | cons note past ih => exact windowOpen_apply ih note

/-- An identifier that is not `inactive` stays so through a `replay` in which no window is opened.
-/
theorem not_mem_inactive_replay {notes : List Note}
    (hnotes : ∀ note ∈ notes, note.isOpened = false) {id : String} (h : id ∉ c.inactive) :
    id ∉ (replay c notes).inactive := by
  induction notes with
  | nil => exact h
  | cons note notes ih =>
    have hrest := ih fun note' hnote' => hnotes note' (List.mem_cons_of_mem _ hnote')
    rw [ChangeCache.mem_inactive_iff] at hrest ⊢
    rintro ⟨e, he, hfalse⟩
    change (note.apply (replay c notes)).get? id = some e at he
    by_cases hshows : note.Shows id
    · have htrue := active_apply_of_shows (windowOpen_replay hopen notes) hshows he
      cases htrue.symm.trans hfalse
    · rcases get?_apply_of_not_shows (c := replay c notes) hshows
        (hnotes note List.mem_cons_self) with hnone | hsame
      · cases hnone.symm.trans he
      · exact hrest ⟨e, hsame.symm.trans he, hfalse⟩

/-- After a `replay` from a cache with an open window and without marks, an entry is `active`
exactly if a note `sinceOpened` `Shows` its identifier. -/
theorem active_replay_iff (hfresh : ∀ {id e}, c.get? id = some e → e.active = false)
    (past : List Note) {id : String} {e : CacheEntry} (he : (replay c past).get? id = some e) :
    e.active = true ↔ ∃ note ∈ sinceOpened past, note.Shows id := by
  induction past generalizing e with
  | nil => simp [sinceOpened, hfresh he]
  | cons note past ih =>
    have hwindow := windowOpen_replay hopen past
    change (note.apply (replay c past)).get? id = some e at he
    cases hnote : note.isOpened with
    | true =>
      -- A new window: no entry is marked, and nothing has been shown.
      cases note with
      | opened =>
        obtain ⟨e', -, rfl⟩ := Option.map_eq_some_iff.mp
          ((ChangeCache.get?_closeWindow _ _).symm.trans he)
        simp [sinceOpened, Note.isOpened]
      | arrived | marked | sent | settled | listBegan | listed => cases hnote
    | false =>
      have hsince : sinceOpened (note :: past) = note :: sinceOpened past :=
        List.takeWhile_cons_of_pos (by rw [hnote]; rfl)
      rw [hsince, List.exists_mem_cons_iff]
      by_cases hshows : note.Shows id
      · simp [hshows, active_apply_of_shows hwindow hshows he]
      · rcases get?_apply_of_not_shows (c := replay c past) hshows hnote with hnone | hsame
        · cases hnone.symm.trans he
        · simp [hshows, ih (hsame.symm.trans he)]

end Marks

/-! ## The notes of a move -/

namespace Move

/-- Whose move it is. -/
def visitor : Move → Nat
  | .event i _ _ | .flush i | .sweep i _ | .pass i | .land i | .reply i _ => i

end Move

namespace World

/-- What passing the gate shows of an identifier. -/
def marks (w : World) (a : Activity) : List Note :=
  match a.event? with
  | some (action, r) =>
    if action ≠ .delete ∧ (w.pipeline.cache.get? r.identifier).isSome then [.marked r.identifier]
    else []
  | none => []

/-- What an answer settles. -/
def settlements (a : Activity) (reply : Reply) : List Note :=
  if reply.isOk then a.request?.toList.map .settled else []

/-- What happens with a move, the newest first. -/
def notes (w : World) : Move → List Note
  | .event i action doc =>
    match w.pipeline.normalizer.normalize doc with
    | .ok r => [.arrived i action r]
    | .error _ => []
  | .sweep i owner => Note.ofTurn i (Activity.beginSweep w.pipeline owner)
  | .pass i =>
    match w.activity? i with
    | some a => Note.ofTurn i (a.admitted w.pipeline) ++ w.marks a
    | none => []
  | .reply i reply =>
    match w.activity? i with
    | some a => Note.ofTurn i (a.replied w.pipeline reply) ++ settlements a reply
    | none => []
  | .flush _ | .land _ => []

theorem eq_marked_of_mem_marks {w : World} {a : Activity} {note : Note} (h : note ∈ w.marks a) :
    ∃ id, note = .marked id := by
  unfold marks at h
  split at h
  · split at h
    · exact ⟨_, List.mem_singleton.mp h⟩
    · cases h
  · cases h

theorem eq_settled_of_mem_settlements {a : Activity} {reply : Reply} {note : Note}
    (h : note ∈ settlements a reply) : ∃ call, note = .settled call := by
  unfold settlements at h
  split at h
  · obtain ⟨call, -, rfl⟩ := List.mem_map.mp h
    exact ⟨call, rfl⟩
  · cases h

/-- The `notes` of a move are an `.arrived` event, nothing, or those of a turn after a mark or a
settled request. -/
theorem exists_notes_eq (w : World) (m : Move) :
    (∃ i action doc r, m = .event i action doc ∧ w.pipeline.normalizer.normalize doc = .ok r ∧
      w.notes m = [.arrived i action r]) ∨
    w.notes m = [] ∨
    ∃ t before, w.notes m = Note.ofTurn m.visitor t ++ before ∧
      ∀ note ∈ before, (∃ id, note = .marked id) ∨ ∃ call, note = .settled call := by
  cases m with
  | event i action doc =>
    simp only [notes]
    split
    next r hdoc => exact Or.inl ⟨i, action, doc, r, rfl, hdoc, rfl⟩
    next => exact Or.inr (Or.inl rfl)
  | sweep i owner =>
    exact Or.inr (Or.inr ⟨_, [], (List.append_nil _).symm, fun _ h => by cases h⟩)
  | pass i =>
    simp only [notes]
    split
    · exact Or.inr (Or.inr ⟨_, _, rfl, fun _ h => Or.inl (eq_marked_of_mem_marks h)⟩)
    · exact Or.inr (Or.inl rfl)
  | reply i reply =>
    simp only [notes]
    split
    · exact Or.inr (Or.inr ⟨_, _, rfl, fun _ h => Or.inr (eq_settled_of_mem_settlements h)⟩)
    · exact Or.inr (Or.inl rfl)
  | flush i | land i => exact Or.inr (Or.inl rfl)

/-- If the `notes` of a move have an `.opened`, it is the newest. -/
theorem opened_or_not (w : World) (m : Move) :
    (∃ before, w.notes m = .opened :: before) ∨ ∀ note ∈ w.notes m, note.isOpened = false := by
  rcases w.exists_notes_eq m with ⟨i, action, doc, r, -, -, hnotes⟩ | hnotes |
    ⟨t, before, hnotes, hbefore⟩
  · refine Or.inr fun note hnote => ?_
    rw [hnotes] at hnote
    obtain rfl := List.mem_singleton.mp hnote
    rfl
  · refine Or.inr fun note hnote => ?_
    rw [hnotes] at hnote
    cases hnote
  · have hclosed : ∀ note ∈ before, note.isOpened = false := by
      intro note hnote
      rcases hbefore note hnote with ⟨_, rfl⟩ | ⟨_, rfl⟩ <;> rfl
    rw [hnotes]
    unfold Note.ofTurn
    split
    · refine Or.inr fun note hnote => ?_
      rcases List.mem_cons.mp hnote with rfl | hnote
      · rfl
      · exact hclosed note hnote
    · exact Or.inl ⟨before, rfl⟩
    all_goals exact Or.inr hclosed

/-! ## The cache -/

/-- `markActive` changes nothing for an identifier that is not cached. -/
theorem markActive_of_unknown {c : ChangeCache} {id : String} (h : c.get? id = none) :
    c.markActive id = c := by
  have hentries : c.entries.modify id (fun e => { e with active := true }) = c.entries := by
    refine Std.ExtTreeMap.ext_getElem? fun id' => ?_
    rw [Std.ExtTreeMap.getElem?_modify]
    split
    next heq =>
      obtain rfl := Std.compare_eq_iff_eq.mp heq
      rw [show c.entries[id]? = none from h]
      rfl
    next => rfl
  unfold ChangeCache.markActive
  rw [hentries, ite_self]

/-- `Sweeping.next` changes the cache by a `replay` of its notes. -/
theorem cache_next_sweep (p : Pipeline) (i : Nat) (owner : Owner) (ids : List String)
    (report : SweepReport) :
    (Sweeping.next p owner ids report).pipeline.cache =
      replay p.cache (Note.ofTurn i ((Sweeping.next p owner ids report).map .sweep)) := by
  cases ids <;> rfl

/-- The notes of a turn that is no sweep's change nothing in a `replay`. -/
theorem replay_ofTurn (c : ChangeCache) (i : Nat) {t : Turn Activity}
    (h : ∀ f, t.stage ≠ .sweep f) : replay c (Note.ofTurn i t) = c := by
  unfold Note.ofTurn
  split
  · rfl
  next report hover =>
    match ht : t.stage with
    | .sweep f => exact absurd ht (h f)
    | .forward (.entering ..) | .forward (.sending ..) | .forward (.done _) | .flush (.entering ..)
    | .flush (.sending ..) | .flush (.done _) =>
      rw [ht] at hover
      cases hover
  all_goals rfl

theorem replay_settlements {a : Activity} {call : Call} (sent : a.request? = some call)
    (c : ChangeCache) (reply : Reply) :
    replay c (settlements a reply) = if reply.isOk then (Note.settled call).apply c else c := by
  unfold settlements
  rw [sent]
  split <;> rfl

/-- `replied` changes the cache by what is `.settled`, if the reply `isOk`, and by a `replay` of the
turn's notes. -/
theorem cache_replied_eq {p : Pipeline} {a : Activity} {call : Call} (reply : Reply)
    (sent : a.request? = some call) (hq : a.Queued p.retry) (i : Nat) :
    (a.replied p reply).pipeline.cache =
      replay (if reply.isOk then (Note.settled call).apply p.cache else p.cache)
        (Note.ofTurn i (a.replied p reply)) := by
  match a with
  | .sweep (.sending owner id rest report) =>
    obtain rfl := Option.some.inj sent
    simp only [Activity.replied, Sweeping.replied]
    split
    · exact cache_next_sweep { p.countReply reply with cache := p.cache.forget id } i owner rest _
    · exact cache_next_sweep (p.countReply reply) i owner rest _
  | .forward (.sending v action r) =>
    obtain rfl := Option.some.inj sent
    rw [replay_ofTurn _ i (fun f h => by cases h), Activity.cache_replied reply rfl rfl hq]
    cases action <;> rfl
  | .flush (.sending v item rest n) =>
    obtain rfl := Option.some.inj sent
    rw [replay_ofTurn _ i (fun f h => by cases h), Activity.cache_replied reply rfl rfl hq]
    unfold Pipeline.settle Note.apply Call.ofSend
    cases item.action <;> rfl
  | .forward (.entering ..) | .forward (.done _) | .flush (.entering ..) | .flush (.done _)
  | .sweep (.done _) => cases sent

/-- `admitted` changes the cache by a `replay` of what it `marks` and of the turn's notes. -/
theorem cache_admitted_eq {w : World} {a : Activity} {v : Visit} (waits : a.wait = .gate v)
    (i : Nat) :
    (a.admitted w.pipeline).pipeline.cache =
      replay (replay w.pipeline.cache (w.marks a)) (Note.ofTurn i (a.admitted w.pipeline)) := by
  match a with
  | .forward (.entering u action record) =>
    rw [replay_ofTurn _ i (fun f h => by cases h)]
    refine (Activity.cache_admitted_forward _ _ _ _).trans ?_
    -- Only an identifier that is cached is marked, and only then is it noted.
    cases hknown : w.pipeline.cache.get? record.identifier with
    | none =>
      have hmark := markActive_of_unknown hknown
      cases action <;> simp [marks, Activity.event?, hknown, replay, Forwarding.observe, hmark]
    | some e =>
      cases action <;> simp [marks, Activity.event?, hknown, replay, Forwarding.observe,
        Note.apply]
  | .flush (.entering u item rest sent) =>
    rw [replay_ofTurn _ i (fun f h => by cases h)]
    exact Activity.cache_admitted_flush _ _ _ _ _
  | .forward (.sending ..) | .forward (.done _) | .flush (.sending ..) | .flush (.done _)
  | .sweep (.sending ..) | .sweep (.done _) => cases waits

/-- A `Step` changes the cache by a `replay` of its `notes`. -/
theorem cache_step {w w' : World} {m : Move} (hw : w.Orderly) (h : Step w m w') :
    w'.pipeline.cache = replay w.pipeline.cache (w.notes m) := by
  cases h with
  | event i action doc free =>
    show (Activity.beginForward w.pipeline i action doc).pipeline.cache = _
    simp only [Activity.beginForward, Forwarding.start, Turn.pipeline_map, notes]
    cases w.pipeline.normalizer.normalize doc <;> rfl
  | flush i free => exact Flushing.cache_next _ _ _ _ _
  | sweep i owner free => exact cache_next_sweep _ _ _ _ _
  | pass i a landed v task waits free =>
    simp only [notes, activity?_of_task task, replay_append]
    exact cache_admitted_eq waits i
  | land i a c task sent => rfl
  | reply i a c reply task sent =>
    simp only [notes, activity?_of_task task, replay_append, replay_settlements sent]
    exact cache_replied_eq reply sent (hw.queued (activity?_of_task task)) i

end World

/-! ## Chronicles -/

/-- A world, and what has happened in it so far, the newest first. -/
structure Chronicle where
  world : World
  past : List Note

namespace Chronicle

/-- The chronicle after a move, if the move is possible. -/
def next? (c : Chronicle) (m : Move) : Option Chronicle :=
  (c.world.next? m).map fun w => ⟨w, c.world.notes m ++ c.past⟩

/-- The chronicle after some moves, if they are possible. -/
def run? (c : Chronicle) (moves : List Move) : Option Chronicle := moves.foldlM next? c

/-- What has happened since the window was opened, the newest first. -/
def thisWindow (c : Chronicle) : List Note := sinceOpened c.past

/-- The requests that activity `i` has sent, the oldest first. -/
def sentBy (c : Chronicle) (i : Nat) : List Call := sentIn i c.past

/-- A chronicle that begins with a world in which nothing has happened. -/
def start (p : Pipeline) (held : Holdings) : Chronicle := ⟨.start p held, []⟩

/-- A `World.Step`, with its `notes` added to the past. -/
structure Step (c : Chronicle) (m : Move) (c' : Chronicle) : Prop where
  world : World.Step c.world m c'.world
  past : c'.past = c.world.notes m ++ c.past

theorem step_of_next? {c c' : Chronicle} {m : Move} (h : c.next? m = some c') : Step c m c' := by
  obtain ⟨w, hw, rfl⟩ := Option.map_eq_some_iff.mp h
  exact ⟨World.step_of_next? hw, rfl⟩

theorem run?_cons {c c' : Chronicle} {m : Move} {moves : List Move}
    (h : c.run? (m :: moves) = some c') : ∃ d, c.next? m = some d ∧ d.run? moves = some c' :=
  Option.bind_eq_some_iff.mp h

/-- What every `Step` keeps, `run?` keeps. -/
theorem run?_preserves {P : Chronicle → Prop} (keeps : ∀ {c c' m}, P c → Step c m c' → P c')
    {moves : List Move} {c c' : Chronicle} (hc : P c) (h : c.run? moves = some c') : P c' :=
  foldlM_preserves (K := fun _ => True) (fun _ hc h => keeps hc (step_of_next? h))
    (fun _ _ => trivial) hc h

/-- After a `Step`, `thisWindow` is empty, or it is the old one with the step's notes. -/
theorem Step.window {c c' : Chronicle} {m : Move} (h : Step c m c') :
    c'.thisWindow = [] ∨
      (∀ note ∈ c.world.notes m, note.isOpened = false) ∧
        c'.thisWindow = c.world.notes m ++ c.thisWindow := by
  unfold thisWindow
  rw [h.past]
  rcases c.world.opened_or_not m with ⟨before, hnotes⟩ | hnotes
  · exact Or.inl (by rw [hnotes]; rfl)
  · exact Or.inr ⟨hnotes, sinceOpened_append hnotes _⟩

/-! ## The cache and the history -/

/-- The cache is a `replay` of the past, on an `Orderly` world. -/
structure Recorded (cache : ChangeCache) (c : Chronicle) : Prop where
  orderly : c.world.Orderly
  cache : c.world.pipeline.cache = replay cache c.past

theorem recorded_start {p : Pipeline} (held : Holdings) (h : p.gate = .empty) :
    Recorded p.cache (start p held) := ⟨World.orderly_start held h, rfl⟩

theorem recorded_step {cache : ChangeCache} {c c' : Chronicle} {m : Move}
    (hc : Recorded cache c) (h : Step c m c') : Recorded cache c' := by
  refine ⟨World.orderly_step hc.orderly h.world, ?_⟩
  rw [World.cache_step hc.orderly h.world, h.past, replay_append, ← hc.cache]

/-- The `inactive` identifiers are those that are cached and that no note of `thisWindow` `Shows`.
-/
theorem Recorded.mem_inactive_iff {cache : ChangeCache} {c : Chronicle} (hc : Recorded cache c)
    (hopen : cache.windowOpen = true) (hfresh : ∀ {id e}, cache.get? id = some e → e.active = false)
    (id : String) :
    id ∈ c.world.pipeline.cache.inactive ↔
      (c.world.pipeline.cache.get? id).isSome ∧ ∀ note ∈ c.thisWindow, ¬ note.Shows id := by
  rw [ChangeCache.mem_inactive_iff]
  constructor
  · rintro ⟨e, he, hfalse⟩
    refine ⟨by rw [he]; rfl, fun note hnote hshows => ?_⟩
    have htrue := (active_replay_iff hopen hfresh c.past (hc.cache ▸ he)).mpr ⟨note, hnote, hshows⟩
    cases htrue.symm.trans hfalse
  · rintro ⟨hsome, hnone⟩
    obtain ⟨e, he⟩ := Option.isSome_iff_exists.mp hsome
    refine ⟨e, he, Bool.eq_false_iff.mpr fun htrue => ?_⟩
    obtain ⟨note, hnote, hshows⟩ :=
      (active_replay_iff hopen hfresh c.past (hc.cache ▸ he)).mp htrue
    exact hnone note hnote hshows

end Chronicle
end InventorySync
