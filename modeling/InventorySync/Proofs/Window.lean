import InventorySync.Proofs.Reconciliation

/-!
# Windows without failures

Events come one after another, and every now and then a sweep ends a window and opens the next one.
When the inventory accepts every request, the events of a window decide alone what cache and
inventory hold at its end: for each identifier what its last event in the window left, and nothing
for an identifier without one.

## Key results

- `Marked.forward`: an event in an open window
- `Fresh.sweep`: a sweep leaves what was seen in the window
- `fresh_windows`, `held_windows`: what windows leave, however many came before the last one
-/

namespace InventorySync

/-! ## What events ask for -/

namespace Normalizer

/-- What a delivery asks of the inventory; nothing when the object cannot be read. -/
def call? (n : Normalizer) (d : Delivery) : Option Call :=
  (n.normalize d.2).toOption.map (Call.ofSend d.1)

/-- What deliveries ask of the inventory, the last of them first. -/
def calls (n : Normalizer) (ds : List Delivery) : List Call := (ds.filterMap n.call?).reverse

/-- What deliveries leave at an identifier where nothing was. -/
def leaves (n : Normalizer) (ds : List Delivery) (id : String) : Option String :=
  (∅ : Holdings).left (n.calls ds) id

variable {n : Normalizer}

theorem call?_of_normalize {action : Action} {doc : Json} {r : Record}
    (h : n.normalize doc = .ok r) : n.call? (action, doc) = some (.ofSend action r) := by
  simp only [call?, h, Except.toOption, Option.map_some]

theorem calls_append (n : Normalizer) (ds es : List Delivery) :
    n.calls (ds ++ es) = n.calls es ++ n.calls ds := by
  rw [calls, List.filterMap_append, List.reverse_append]
  rfl

theorem calls_concat {action : Action} {doc : Json} {r : Record} (ds : List Delivery)
    (h : n.normalize doc = .ok r) :
    n.calls (ds ++ [(action, doc)]) = .ofSend action r :: n.calls ds := by
  rw [calls_append, calls, List.filterMap_cons_some (call?_of_normalize h)]
  rfl

variable {ds es : List Delivery}

/-- Every object can be read. -/
def Reads (n : Normalizer) (ds : List Delivery) : Prop := ∀ d ∈ ds, (n.normalize d.2).isOk = true

instance (n : Normalizer) (ds : List Delivery) : Decidable (n.Reads ds) :=
  inferInstanceAs (Decidable (∀ d ∈ ds, (n.normalize d.2).isOk = true))

theorem exists_of_isOk {doc : Json} (h : (n.normalize doc).isOk = true) :
    ∃ r, n.normalize doc = .ok r := by
  cases hdoc : n.normalize doc with
  | ok r => exact ⟨r, rfl⟩
  | error e =>
    rw [hdoc] at h
    cases h

theorem reads_cons {d : Delivery} :
    n.Reads (d :: ds) ↔ (n.normalize d.2).isOk = true ∧ n.Reads ds := List.forall_mem_cons

theorem Reads.left (h : n.Reads (ds ++ es)) : n.Reads ds := fun d hd =>
  h d (List.mem_append_left _ hd)

theorem Reads.right (h : n.Reads (ds ++ es)) : n.Reads es := fun d hd =>
  h d (List.mem_append_right _ hd)

theorem Reads.append (h : n.Reads ds) (h' : n.Reads es) : n.Reads (ds ++ es) := by
  intro d hd
  rcases List.mem_append.mp hd with hd | hd
  · exact h d hd
  · exact h' d hd

end Normalizer

namespace Holdings

theorem lastFor_append (calls calls' : List Call) (id : String) :
    lastFor (calls ++ calls') id = (lastFor calls id).or (lastFor calls' id) :=
  List.find?_append ..

end Holdings

/-- The cache entry of an identifier in an open window: what the events of the window asked for is
seen, all else is as it was when the window was opened, and unseen. -/
def Holdings.marks (base : Holdings) (calls : List Call) (id : String) : Option CacheEntry :=
  match lastFor calls id with
  | some c => c.outcome.map (CacheEntry.mk · true)
  | none => base[id]?.map (CacheEntry.mk · false)

namespace Holdings

theorem marks_cons (base : Holdings) (c : Call) (calls : List Call) (id : String) :
    base.marks (c :: calls) id =
      if c.uid = id then c.outcome.map (CacheEntry.mk · true) else base.marks calls id := by
  unfold marks
  rw [lastFor_cons]
  by_cases h : c.uid = id <;> simp [h]

theorem hash_marks (base : Holdings) (calls : List Call) (id : String) :
    (base.marks calls id).map (·.hash) = base.left calls id := by
  unfold marks left
  cases lastFor calls id <;> simp [Function.comp_def]

/-- `marks` has an identifier unseen exactly if it was in `base` and `lastFor` finds no call for it.
-/
theorem inactive_marks (base : Holdings) (calls : List Call) (id : String) :
    (∃ e, base.marks calls id = some e ∧ e.active = false) ↔
      lastFor calls id = none ∧ base[id]? ≠ none := by
  unfold marks
  cases lastFor calls id with
  | some c => cases c.outcome <;> simp
  | none => cases base[id]? <;> simp

end Holdings

namespace Session

variable {s : Session} {id : String}

/-! ## Events -/

/-- `perform` of an event that the inventory would accept gives its identifier the `outcome` of the
event in cache and inventory, and marks it as seen. -/
theorem view_forward_of_isOk (action : Action) {doc : Json} {r : Record}
    (h : s.pipeline.normalizer.normalize doc = .ok r)
    (hopen : s.pipeline.cache.windowOpen = true) (hok : s.inventory.answer.reply.isOk = true)
    (hheld : s.pipeline.cache.hash? r.identifier = s.inventory.held[r.identifier]?) :
    ((s.perform (.forward action doc)).2.view r.identifier).entry =
        (Call.ofSend action r).outcome.map (CacheEntry.mk · true) ∧
      ((s.perform (.forward action doc)).2.view r.identifier).held =
        (Call.ofSend action r).outcome := by
  by_cases hsame : action ≠ .delete ∧ s.pipeline.cache.hash? r.identifier = some r.contentHash
  · -- Nothing is sent, because the inventory has the content already.
    obtain ⟨hne, hhash⟩ := hsame
    obtain ⟨-, hinventory, hcache, -⟩ := perform_forward_of_unchanged h hne hhash
    obtain ⟨e, he, hcontent⟩ := Option.map_eq_some_iff.mp hhash
    rw [Call.outcome_of_ne_delete hne]
    refine ⟨?_, ?_⟩
    · simp [view, hcache, Forwarding.get?_observe, hne, hopen, he, hcontent]
    · simp only [view, hinventory]
      exact hheld.symm.trans hhash
  · obtain ⟨-, hinventory, hcache, -⟩ := perform_forward_of_changed h hsame
    refine ⟨?_, ?_⟩
    · simp only [view, hcache, hok, if_true, Pipeline.get?_settle,
        Forwarding.windowOpen_observe, hopen]
    · simp only [view, hinventory, ScriptedInventory.held_respond,
        ScriptedInventory.lands_of_isOk hok, true_and, if_true]

/-- An open window: the cache has the `marks` of the `calls`, and the inventory holds what they
left. -/
structure Marked (base : Holdings) (calls : List Call) (s : Session) : Prop where
  willing : s.inventory.Willing
  windowOpen : s.pipeline.cache.windowOpen = true
  entry : ∀ id, s.pipeline.cache.get? id = base.marks calls id
  held : ∀ id, s.inventory.held[id]? = base.left calls id

/-- A window has just been opened. -/
abbrev Fresh (s : Session) : Prop := s.Marked s.inventory.held []

theorem Marked.hash?_eq {base : Holdings} {calls : List Call} (h : s.Marked base calls)
    (id : String) : s.pipeline.cache.hash? id = s.inventory.held[id]? := by
  rw [h.held, ← Holdings.hash_marks, ← h.entry]
  rfl

theorem Marked.forward {base : Holdings} {calls : List Call} {doc : Json} {r : Record}
    (h : s.Marked base calls) (action : Action)
    (hdoc : s.pipeline.normalizer.normalize doc = .ok r) :
    (s.perform (.forward action doc)).2.Marked base (.ofSend action r :: calls) := by
  obtain ⟨hentry, hheld⟩ := view_forward_of_isOk action hdoc h.windowOpen
    h.willing.answer (h.hash?_eq _)
  refine ⟨willing_perform _ h.willing, (windowOpen_forward action doc).trans h.windowOpen, ?_, ?_⟩
  -- What is forwarded decides for its own identifier, and nothing changes for the others.
  · intro id
    rw [Holdings.marks_cons]
    show _ = if r.identifier = id then _ else _
    by_cases hid : r.identifier = id
    · subst hid
      rw [if_pos rfl]
      exact hentry
    · rw [if_neg hid, ← h.entry id]
      exact congrArg View.entry (view_forward_of_ne hdoc hid)
  · intro id
    rw [Holdings.left_cons]
    show _ = if r.identifier = id then _ else _
    by_cases hid : r.identifier = id
    · subst hid
      rw [if_pos rfl]
      exact hheld
    · rw [if_neg hid, ← h.held id]
      exact congrArg View.held (view_forward_of_ne hdoc hid)

/-- `performAll` of events keeps `Marked`, with their calls added. -/
theorem Marked.forwards {base : Holdings} (ds : List Delivery) {es : List Delivery}
    {n : Normalizer} (hn : s.pipeline.normalizer = n) (h : s.Marked base (n.calls ds))
    (hes : n.Reads es) :
    (s.performAll (es.map fun e => .forward e.1 e.2)).Marked base (n.calls (ds ++ es)) := by
  induction es generalizing s ds with
  | nil => rwa [List.append_nil]
  | cons e es ih =>
    obtain ⟨action, doc⟩ := e
    obtain ⟨hfirst, hrest⟩ := Normalizer.reads_cons.mp hes
    obtain ⟨r, hr⟩ := Normalizer.exists_of_isOk hfirst
    have hnext := h.forward action (hn.symm ▸ hr)
    rw [← Normalizer.calls_concat ds hr] at hnext
    rw [List.append_cons, List.map_cons, performAll_cons]
    exact ih _ ((normalizer_perform s _).trans hn) hnext hrest

/-! ## Sweeps -/

/-- A window is open in which nothing has been seen. -/
def Opened (c : ChangeCache) : Prop :=
  c.windowOpen = true ∧ ∀ id e, c.get? id = some e → e.active = false

theorem opened_next (p : Pipeline) (owner : Owner) (ids : List String) (report : SweepReport)
    {last : SweepReport} (h : (Sweeping.next p owner ids report).stage = .done last) :
    Opened (Sweeping.next p owner ids report).pipeline.cache := by
  cases ids with
  | nil =>
    refine ⟨rfl, fun id e he => ?_⟩
    have hclosed : (p.cache.closeWindow.get? id) = some e := he
    rw [ChangeCache.get?_closeWindow] at hclosed
    obtain ⟨e', -, rfl⟩ := Option.map_eq_some_iff.mp hclosed
    rfl
  | cons id rest => cases h

theorem opened_replied (p : Pipeline) (owner : Owner) (id : String) (rest : List String)
    (report : SweepReport) (reply : Reply) {last : SweepReport}
    (h : (Sweeping.replied p owner id rest report reply).stage = .done last) :
    Opened (Sweeping.replied p owner id rest report reply).pipeline.cache := by
  unfold Sweeping.replied at h ⊢
  split at h
  next hok =>
    rw [if_pos hok]
    exact opened_next _ owner rest _ h
  next hfailed =>
    rw [if_neg hfailed]
    exact opened_next _ owner rest _ h

/-- After `perform` of a sweep, a window is `Opened`. -/
theorem opened_of_sweep (s : Session) (owner : Owner) :
    Opened (s.perform (.sweep owner)).2.pipeline.cache := by
  obtain ⟨b, hover, f, rfl, hend⟩ := perform_induct (s := s)
    (I := fun s a => ∃ f, a = .sweep f ∧ ∀ last, f = .done last → Opened s.pipeline.cache)
    (.sweep owner)
    ⟨_, rfl, fun _ h => opened_next s.pipeline owner _ _ h⟩
    (fun h hwait => by
      obtain ⟨f, rfl, -⟩ := h
      cases f <;> cases hwait)
    (fun {s a action r} h hwait _ => by
      obtain ⟨f, rfl, -⟩ := h
      cases f with
      | sending owner id rest report =>
        exact ⟨_, rfl, fun last hlast => opened_replied _ owner id rest report _ hlast⟩
      | done report => cases hwait)
  cases f with
  | sending => cases hover
  | done report => exact hend report rfl

theorem eq_of_inactive {entry : Option CacheEntry} (h : ∀ e, entry = some e → e.active = false) :
    entry = (entry.map (·.hash)).map (CacheEntry.mk · false) := by
  cases entry with
  | none => rfl
  | some e =>
    obtain ⟨hash, active⟩ := e
    obtain rfl : active = false := h _ rfl
    rfl

/-- After `perform` of a sweep, `held` and `hash?` of an identifier are what the calls of the window
`left`. -/
theorem Marked.sweep_at {base : Holdings} {calls : List Call} (h : s.Marked base calls)
    (owner : Owner) (id : String) :
    (s.perform (.sweep owner)).2.inventory.held[id]? = (∅ : Holdings).left calls id ∧
      (s.perform (.sweep owner)).2.pipeline.cache.hash? id =
        (s.perform (.sweep owner)).2.inventory.held[id]? := by
  have hunseen : id ∈ s.pipeline.cache.inactive ↔
      Holdings.lastFor calls id = none ∧ base[id]? ≠ none := by
    rw [ChangeCache.mem_inactive_iff, ← Holdings.inactive_marks, h.entry id]
  -- The sweep spares what it does not find unseen, and deletes the rest.
  rcases view_sweep owner h.willing id with ⟨hseen, e, he, hview⟩ | ⟨hin, reply, -, hview⟩
  · have hheld : (s.perform (.sweep owner)).2.inventory.held[id]? = s.inventory.held[id]? :=
      congrArg View.held hview
    have hentry : (s.perform (.sweep owner)).2.pipeline.cache.get? id = e :=
      congrArg View.entry hview
    refine ⟨?_, ?_⟩
    · -- What is seen was asked for in the window; what nobody asked for was not there either.
      rw [hheld, h.held id]
      unfold Holdings.left
      cases hlast : Holdings.lastFor calls id with
      | some c => rfl
      | none =>
        have hbase : base[id]? = none := by
          by_contra hbase
          exact hseen (hunseen.mpr ⟨hlast, hbase⟩)
        show base[id]? = (∅ : Holdings)[id]?
        rw [hbase]
        rfl
    · rw [hheld, ChangeCache.hash?, hentry, he, h.hash?_eq]
  · have hheld : (s.perform (.sweep owner)).2.inventory.held[id]? = none :=
      congrArg View.held hview
    have hentry : (s.perform (.sweep owner)).2.pipeline.cache.get? id = none :=
      congrArg View.entry hview
    refine ⟨?_, ?_⟩
    · rw [hheld, Holdings.left, (hunseen.mp hin).1]
      rfl
    · rw [hheld, ChangeCache.hash?, hentry]
      rfl

/-- After `perform` of a sweep, a `Marked` session is `Fresh`: the next window is open. -/
theorem Marked.sweep {base : Holdings} {calls : List Call} (h : s.Marked base calls)
    (owner : Owner) : (s.perform (.sweep owner)).2.Fresh := by
  obtain ⟨hopen, hinactive⟩ := opened_of_sweep s owner
  refine ⟨willing_perform _ h.willing, hopen, fun id => ?_, fun id => rfl⟩
  rw [eq_of_inactive (hinactive id)]
  exact congrArg (Option.map _) (h.sweep_at owner id).2

/-! ## Windows -/

/-- Windows, one after another: the events of each, and the sweep that ends it. -/
def windows (s : Session) (owner : Owner) (ws : List (List Delivery)) : Session :=
  s.performAll (ws.flatMap fun w => w.map (fun d => .forward d.1 d.2) ++ [.sweep owner])

theorem performAll_append (s : Session) (os os' : List Operation) :
    s.performAll (os ++ os') = (s.performAll os).performAll os' := List.foldl_append ..

theorem windows_append (s : Session) (owner : Owner) (ws ws' : List (List Delivery)) :
    s.windows owner (ws ++ ws') = (s.windows owner ws).windows owner ws' := by
  simp only [windows, List.flatMap_append, performAll_append]

theorem windows_singleton (s : Session) (owner : Owner) (w : List Delivery) :
    s.windows owner [w] =
      ((s.performAll (w.map fun d => .forward d.1 d.2)).perform (.sweep owner)).2 := by
  rw [windows, List.flatMap_singleton, performAll_append]
  rfl

variable {n : Normalizer} {owner : Owner}

/-- After `windows` a session is `Fresh` again. -/
theorem fresh_windows (hn : s.pipeline.normalizer = n) (h : s.Fresh) {ws : List (List Delivery)}
    (hws : ∀ w ∈ ws, n.Reads w) :
    (s.windows owner ws).Fresh := by
  induction ws generalizing s with
  | nil => exact h
  | cons w ws ih =>
    have hmarked : (s.performAll (w.map fun d => .forward d.1 d.2)).Marked s.inventory.held
        (n.calls w) := Marked.forwards [] hn h (hws w List.mem_cons_self)
    rw [← List.singleton_append, windows_append, windows_singleton]
    exact ih ((normalizer_perform _ _).trans ((normalizer_performAll _ _).trans hn))
      (hmarked.sweep owner) fun w' hw' => hws w' (List.mem_cons_of_mem _ hw')

/-- After `windows`, `held` and `hash?` of an identifier are what the events of the last window
`leaves`. -/
theorem held_windows (hn : s.pipeline.normalizer = n) (h : s.Fresh) {ws : List (List Delivery)}
    {w : List Delivery} (hws : ∀ w' ∈ ws, n.Reads w') (hw : n.Reads w) (id : String) :
    (s.windows owner (ws ++ [w])).inventory.held[id]? = n.leaves w id ∧
      (s.windows owner (ws ++ [w])).pipeline.cache.hash? id = n.leaves w id := by
  have hfresh : (s.windows owner ws).Fresh := fresh_windows hn h hws
  have hnormalizer : (s.windows owner ws).pipeline.normalizer = n :=
    (normalizer_performAll _ _).trans hn
  have hmarked := Marked.forwards [] hnormalizer hfresh hw
  obtain ⟨hheld, hhash⟩ := hmarked.sweep_at owner id
  rw [windows_append, windows_singleton]
  exact ⟨hheld, hhash.trans hheld⟩

/-- A start from the inventory's own list, with a window opened, is `Fresh`. -/
theorem fresh_start (n : Normalizer) (c : ChangeCache) (errors : Nat) (held : Holdings)
    {script : List PreparedAnswer} (willing : ∀ a ∈ script, a.reply.isOk = true) :
    (fresh n c.openWindow errors held script).Fresh := by
  refine ⟨willing, rfl, fun id => ?_, fun id => rfl⟩
  have hhash := (ChangeCache.agreesAt_iff _ _ _).mp (c.openWindow.agreesAt_init held id)
  exact (ChangeCache.get?_init_eq _ _ id).trans (congrArg (Option.map _) hhash)

end Session

end InventorySync
