import InventorySync.Proofs.Activity

/-!
# Activities and an inventory, interleaved

A world has the pipeline, the activities that share it, and the inventory that their requests go
to. It makes one move at a time: an activity begins, is let through the gate, has its request
carried out, or is answered. A request that succeeds is carried out once, at some moment between
its sending and its answer; one that fails is never carried out.

## Key results

- `step_of_next?`: what each move does
- `run?_preserves`: what every step keeps, every run keeps
- `Orderly`: everybody stands at the gate where the gate says, whoever has sent something has the
  gate, and what a flush has sent is still queued; `orderly_step`: every step keeps this
- `sweep_of_crossing`: of two requests for one identifier in flight, one is a sweep's
-/

namespace InventorySync

/-- An activity, and whether the request that it waits for has been carried out. -/
structure Task where
  activity : Activity
  landed : Bool
deriving Inhabited

/-- The pipeline, its activities by visitor, the inventory, and what has happened so far: `passed`,
`effects` and `confirmed`, the newest first in each. -/
structure World where
  pipeline : Pipeline
  tasks : Std.ExtTreeMap Nat Task
  held : Holdings
  /-- The live events that passed the gate. -/
  passed : List (Action × Record)
  /-- The requests that were carried out. -/
  effects : List Call
  /-- The requests that were answered with success. -/
  confirmed : List Call

/-- What can happen next, as `World.next?` carries it out. -/
inductive Move where
  | event (i : Nat) (action : Action) (doc : Json)
  | flush (i : Nat)
  | sweep (i : Nat) (owner : Owner)
  /-- Activity `i` is let through the gate. -/
  | pass (i : Nat)
  /-- The request of activity `i` is carried out. -/
  | land (i : Nat)
  | reply (i : Nat) (reply : Reply)

namespace Move

/-- Whether a sweep begins. -/
def isSweep : Move → Bool
  | .sweep .. => true
  | .event .. | .flush _ | .pass _ | .land _ | .reply .. => false

end Move

/-- A predicate `P` that `next?` keeps on every step of kind `K` is kept by a run of such steps,
which is a `foldlM`. -/
theorem foldlM_preserves {S M : Type} {next? : S → M → Option S} {P : S → Prop} {K : M → Prop}
    (keeps : ∀ {s t m}, K m → P s → next? s m = some t → P t) {ms : List M} {s t : S}
    (hms : ∀ m ∈ ms, K m) (hs : P s) (h : ms.foldlM next? s = some t) : P t := by
  -- The first step keeps it, so the rest of the run starts from a state that has it.
  induction ms generalizing s with
  | nil =>
    obtain rfl := Option.some.inj h
    exact hs
  | cons m ms ih =>
    obtain ⟨u, hu, h⟩ := Option.bind_eq_some_iff.mp h
    have hkeeps := keeps (hms m List.mem_cons_self) hs hu
    exact ih (fun m' hm' => hms m' (List.mem_cons_of_mem _ hm')) hkeeps h

namespace World

/-- Nothing has happened yet. -/
def start (p : Pipeline) (held : Holdings) : World := ⟨p, ∅, held, [], [], []⟩

/-- A start from the inventory's own list, with nothing queued. -/
def fresh (n : Normalizer) (c : ChangeCache) (errors : Nat) (held : Holdings) : World :=
  start ⟨n, c.init held.toList, .empty, .empty, errors⟩ held

/-- Activity `i` is now where a turn has brought it. -/
def turn (w : World) (i : Nat) (t : Turn Activity) : World :=
  { w with pipeline := t.pipeline, tasks := w.tasks.insert i ⟨t.stage, false⟩ }

/-- Activity `i` begins, under a number that nobody else has. -/
def begin? (w : World) (i : Nat) (t : Turn Activity) : Option World :=
  if w.tasks[i]? = none then some (w.turn i t) else none

/-- Activity `i` is let through the gate, where a live event is noted. -/
def pass (w : World) (i : Nat) (a : Activity) : World :=
  { w.turn i (a.admitted w.pipeline) with passed := a.event?.toList ++ w.passed }

/-- The request of activity `i` is carried out. -/
def land (w : World) (i : Nat) (a : Activity) (c : Call) : World :=
  { w with
    tasks := w.tasks.insert i ⟨a, true⟩
    held := w.held.carryOut c
    effects := c :: w.effects }

/-- The request of activity `i` is answered. -/
def answer (w : World) (i : Nat) (a : Activity) (c : Call) (reply : Reply) : World :=
  { w.turn i (a.replied w.pipeline reply) with
    confirmed := if reply.isOk then c :: w.confirmed else w.confirmed }

/-- The world after a move, if the move is possible. -/
def next? (w : World) : Move → Option World
  | .event i action doc => w.begin? i (Activity.beginForward w.pipeline i action doc)
  | .flush i => w.begin? i (Activity.beginFlush w.pipeline i)
  | .sweep i owner => w.begin? i (Activity.beginSweep w.pipeline owner)
  | .pass i => do
    let task ← w.tasks[i]?
    match task.activity.wait with
    | .gate visit => if w.pipeline.gate.admits visit then some (w.pass i task.activity) else none
    | .reply .. | .over _ => none
  | .land i => do
    let task ← w.tasks[i]?
    let c ← task.activity.request?
    if task.landed then none else some (w.land i task.activity c)
  | .reply i reply => do
    let task ← w.tasks[i]?
    let c ← task.activity.request?
    if reply.isOk = task.landed then some (w.answer i task.activity c reply) else none

/-- The world after some moves, if they are possible. -/
def run? (w : World) (moves : List Move) : Option World := moves.foldlM next? w

/-- What a move does: the inversion of `next?`, by `step_of_next?`. -/
inductive Step (w : World) : Move → World → Prop
  | event (i action doc) (free : w.tasks[i]? = none) :
    Step w (.event i action doc) (w.turn i (Activity.beginForward w.pipeline i action doc))
  | flush (i) (free : w.tasks[i]? = none) :
    Step w (.flush i) (w.turn i (Activity.beginFlush w.pipeline i))
  | sweep (i owner) (free : w.tasks[i]? = none) :
    Step w (.sweep i owner) (w.turn i (Activity.beginSweep w.pipeline owner))
  | pass (i a landed v) (task : w.tasks[i]? = some ⟨a, landed⟩) (waits : a.wait = .gate v)
    (free : w.pipeline.gate.admits v = true) : Step w (.pass i) (w.pass i a)
  | land (i a c) (task : w.tasks[i]? = some ⟨a, false⟩) (sent : a.request? = some c) :
    Step w (.land i) (w.land i a c)
  | reply (i a c r) (task : w.tasks[i]? = some ⟨a, Reply.isOk r⟩) (sent : a.request? = some c) :
    Step w (.reply i r) (w.answer i a c r)

theorem step_of_next? {w w' : World} {m : Move} (h : w.next? m = some w') : Step w m w' := by
  have begins : ∀ {i t}, w.begin? i t = some w' → w.tasks[i]? = none ∧ w' = w.turn i t := by
    intro i t h
    unfold begin? at h
    split at h
    next hfree => exact ⟨hfree, (Option.some.inj h).symm⟩
    next => cases h
  -- Three moves begin an activity; the other three are about one that is there.
  cases m with
  | event i action doc =>
    obtain ⟨hfree, rfl⟩ := begins h
    exact .event i action doc hfree
  | flush i =>
    obtain ⟨hfree, rfl⟩ := begins h
    exact .flush i hfree
  | sweep i owner =>
    obtain ⟨hfree, rfl⟩ := begins h
    exact .sweep i owner hfree
  -- To pass, an activity waits for the gate, and the gate admits it.
  | pass i =>
    obtain ⟨⟨a, landed⟩, htask, h⟩ := Option.bind_eq_some_iff.mp h
    dsimp only at h
    split at h
    next v hwait =>
      split at h
      next hfree =>
        obtain rfl := Option.some.inj h
        exact .pass i a landed v htask hwait hfree
      next => cases h
    next => cases h
    next => cases h
  -- A request lands once, and its reply is favourable just if it has landed.
  | land i =>
    obtain ⟨⟨a, landed⟩, htask, h⟩ := Option.bind_eq_some_iff.mp h
    obtain ⟨c, hc, h⟩ := Option.bind_eq_some_iff.mp h
    cases landed with
    | true => cases h
    | false =>
      obtain rfl := Option.some.inj h
      exact .land i a c htask hc
  | reply i r =>
    obtain ⟨⟨a, landed⟩, htask, h⟩ := Option.bind_eq_some_iff.mp h
    obtain ⟨c, hc, h⟩ := Option.bind_eq_some_iff.mp h
    split at h
    next hok =>
      obtain rfl := Option.some.inj h
      dsimp only at hok
      exact .reply i a c r (hok ▸ htask) hc
    next => cases h

theorem run?_cons {w w' : World} {m : Move} {moves : List Move}
    (h : w.run? (m :: moves) = some w') :
    ∃ v, w.next? m = some v ∧ v.run? moves = some w' :=
  Option.bind_eq_some_iff.mp h

/-- A predicate that every `Step` of kind `K` keeps is kept by `run?` on moves of that kind. -/
theorem run?_preserves {P : World → Prop} {K : Move → Prop}
    (keeps : ∀ {w w' m}, K m → P w → Step w m w' → P w') {moves : List Move} {w w' : World}
    (hmoves : ∀ m ∈ moves, K m) (hw : P w) (h : w.run? moves = some w') : P w' :=
  foldlM_preserves (fun hm hw h => keeps hm hw (step_of_next? h)) hmoves hw h

/-! ## Who does what -/

/-- What activity `i` is doing. -/
def activity? (w : World) (i : Nat) : Option Activity := w.tasks[i]?.map (·.activity)

theorem activity?_of_task {w : World} {i : Nat} {a : Activity} {landed : Bool}
    (h : w.tasks[i]? = some ⟨a, landed⟩) : w.activity? i = some a := by
  simp only [activity?, h, Option.map_some]

theorem activity?_eq_none {w : World} {i : Nat} (h : w.tasks[i]? = none) :
    w.activity? i = none := by
  simp only [activity?, h, Option.map_none]

theorem tasks_turn (w : World) (i : Nat) (t : Turn Activity) (j : Nat) :
    (w.turn i t).tasks[j]? = if i = j then some ⟨t.stage, false⟩ else w.tasks[j]? := by
  simp only [turn, Std.ExtTreeMap.getElem?_insert, Std.compare_eq_iff_eq]

theorem activity?_turn (w : World) (i : Nat) (t : Turn Activity) (j : Nat) :
    (w.turn i t).activity? j = if i = j then some t.stage else w.activity? j := by
  simp only [activity?, tasks_turn]
  split <;> rfl

theorem activity?_turn_of_ne (w : World) {i j : Nat} (t : Turn Activity) (h : j ≠ i) :
    (w.turn i t).activity? j = w.activity? j := by
  rw [activity?_turn, if_neg (Ne.symm h)]

/-- An activity of `w.turn i t` is the stage of `t`, or one of `w` at another number than `i`. -/
theorem moved_or_stayed {w : World} {i : Nat} {t : Turn Activity} {j : Nat} {b : Activity}
    (h : (w.turn i t).activity? j = some b) :
    (j = i ∧ b = t.stage) ∨ (j ≠ i ∧ w.activity? j = some b) := by
  rw [activity?_turn] at h
  split at h
  next hij => exact Or.inl ⟨hij.symm, (Option.some.inj h).symm⟩
  next hij => exact Or.inr ⟨Ne.symm hij, h⟩

theorem tasks_land (w : World) (i : Nat) (a : Activity) (c : Call) (j : Nat) :
    (w.land i a c).tasks[j]? = if i = j then some ⟨a, true⟩ else w.tasks[j]? := by
  simp only [land, Std.ExtTreeMap.getElem?_insert, Std.compare_eq_iff_eq]

theorem activity?_land {w : World} {i : Nat} {a : Activity} {landed : Bool} (c : Call)
    (h : w.tasks[i]? = some ⟨a, landed⟩) (j : Nat) :
    (w.land i a c).activity? j = w.activity? j := by
  simp only [activity?, tasks_land]
  split
  next hij => rw [← hij, h]; rfl
  next => rfl

/-- Somebody stands there. -/
def Visiting (w : World) (v : Visit) : Prop := ∃ i a, w.activity? i = some a ∧ a.visit? = some v

/-- Somebody other than `i` stands there. -/
def VisitingBut (w : World) (i : Nat) (v : Visit) : Prop :=
  ∃ j a, j ≠ i ∧ w.activity? j = some a ∧ a.visit? = some v

/-- Whoever stands there is `i` or somebody else. -/
theorem visiting_iff {w : World} {i : Nat} {place : Option Visit}
    (hplace : (w.activity? i).bind Activity.visit? = place) (v : Visit) :
    w.Visiting v ↔ w.VisitingBut i v ∨ place = some v := by
  constructor
  · rintro ⟨j, a, ha, hv⟩
    by_cases hj : j = i
    · rw [hj] at ha
      exact Or.inr (hplace.symm.trans (Option.bind_eq_some_iff.mpr ⟨a, ha, hv⟩))
    · exact Or.inl ⟨j, a, hj, ha, hv⟩
  · rintro (⟨j, a, -, ha, hv⟩ | hv)
    · exact ⟨j, a, ha, hv⟩
    · obtain ⟨a, ha, hav⟩ := Option.bind_eq_some_iff.mp (hplace.trans hv)
      exact ⟨i, a, ha, hav⟩

/-- A turn of `i` moves nobody else. -/
theorem visitingBut_turn (w : World) (i : Nat) (t : Turn Activity) (v : Visit) :
    (w.turn i t).VisitingBut i v ↔ w.VisitingBut i v :=
  exists_congr fun _ => exists_congr fun _ => and_congr_right fun hj => by
    rw [activity?_turn_of_ne w t hj]

/-- The request that activity `i` waits for. -/
def request? (w : World) (i : Nat) : Option Call := (w.activity? i).bind Activity.request?

/-- Nothing that was sent for an identifier waits for an answer. -/
def Quiet (w : World) (id : String) : Prop := ∀ i, ∀ c ∈ w.request? i, c.uid ≠ id

/-- Two requests for one identifier wait for an answer. -/
def Crossing (w : World) (id : String) : Prop :=
  ∃ i j, i ≠ j ∧ (∃ c ∈ w.request? i, c.uid = id) ∧ ∃ c ∈ w.request? j, c.uid = id

/-- Every identifier is `Quiet` when no activity in `tasks` has a `request?`. -/
theorem quiet_of_forall_tasks {w : World}
    (h : ∀ p ∈ w.tasks.toList, p.2.activity.request? = none) (id : String) : w.Quiet id := by
  intro i c hc
  obtain ⟨a, ha, hac⟩ := Option.bind_eq_some_iff.mp hc
  obtain ⟨t, ht, rfl⟩ := Option.map_eq_some_iff.mp ha
  have hnone := h (i, t) (Std.ExtTreeMap.mem_toList_iff_getElem?_eq_some.mpr ht)
  cases hnone.symm.trans hac

theorem request?_eq_some_iff (w : World) (i : Nat) (c : Call) :
    w.request? i = some c ↔ ∃ a, w.activity? i = some a ∧ a.request? = some c :=
  Option.bind_eq_some_iff

/-! ## Order -/

/-- The order that every `Step` keeps: everybody stands where `pipeline.gate` says, whoever has a
`request?` is admitted, and what a flush has sent is still queued in `pipeline.retry`. -/
structure Orderly (w : World) : Prop where
  proper : ∀ {i a}, w.activity? i = some a → a.Proper
  own : ∀ {i a v}, w.activity? i = some a → a.visit? = some v → v.visitor = i
  tracks : w.pipeline.gate.Tracks w.Visiting
  through : ∀ {i a c v}, w.activity? i = some a → a.request? = some c → a.visit? = some v →
    w.pipeline.gate.admits v = true
  queued : ∀ {i a}, w.activity? i = some a → a.Queued w.pipeline.retry

theorem Orderly.congr {w w' : World} (hw : w.Orderly) (hp : w'.pipeline = w.pipeline)
    (ha : ∀ i, w'.activity? i = w.activity? i) : w'.Orderly where
  proper h := hw.proper (ha _ ▸ h)
  own h := hw.own (ha _ ▸ h)
  tracks := by
    rw [hp]
    refine hw.tracks.congr fun v => ?_
    simp only [Visiting, ha]
  through h := by
    rw [hp]
    exact hw.through (ha _ ▸ h)
  queued h := by
    rw [hp]
    exact hw.queued (ha _ ▸ h)

theorem orderly_start {p : Pipeline} (held : Holdings) (h : p.gate = .empty) :
    (start p held).Orderly := by
  have nobody : ∀ i, (start p held).activity? i = none := by
    intro i
    simp [activity?, start]
  refine ⟨?_, ?_, ?_, ?_, ?_⟩
  · intro i a ha
    cases (nobody i).symm.trans ha
  · intro i a v ha
    cases (nobody i).symm.trans ha
  · show p.gate.Tracks _
    rw [h]
    refine SendGate.tracks_empty.congr fun v => ?_
    simp [Visiting, nobody]
  · intro i a c v ha
    cases (nobody i).symm.trans ha
  · intro i a ha
    cases (nobody i).symm.trans ha

/-- Of two visits of one identifier, `admits` holds of one alone. -/
theorem Orderly.exclusive {w : World} (hw : w.Orderly) {i j : Nat} {a b : Activity} {u v : Visit}
    (ha : w.activity? i = some a) (hb : w.activity? j = some b) (hu : a.visit? = some u)
    (hv : b.visit? = some v) (hid : u.identifier = v.identifier)
    (hau : w.pipeline.gate.admits u = true) (hav : w.pipeline.gate.admits v = true) : i = j := by
  obtain rfl := hw.tracks.exclusive ⟨i, a, ha, hu⟩ ⟨j, b, hb, hv⟩ hid hau hav
  rw [← hw.own ha hu, ← hw.own hb hv]

/-- While `a` has the gate of an identifier, a `request?` for it is the one of `a`, sweeps aside. -/
theorem Orderly.eq_of_request {w : World} (hw : w.Orderly) {i j : Nat} {a b : Activity} {v : Visit}
    {c : Call} (ha : w.activity? i = some a) (hb : w.activity? j = some b)
    (hv : a.visit? = some v) (hav : w.pipeline.gate.admits v = true) (hc : b.request? = some c)
    (hid : v.identifier = c.uid) (hs : b.isSweeping = false) : i = j := by
  obtain ⟨u, hu, huid⟩ := b.visit?_of_request hc (hw.proper hb) hs
  exact hw.exclusive ha hb hv hu (hid.trans huid.symm) hav (hw.through hb hc hu)

/-- Of two requests that are `Crossing` at an identifier, one `isSweeping`. -/
theorem sweep_of_crossing {w : World} (hw : w.Orderly) {id : String} (h : w.Crossing id) :
    ∃ i a c, w.activity? i = some a ∧ a.isSweeping = true ∧ a.request? = some c ∧ c.uid = id := by
  obtain ⟨i, j, hij, ⟨c, hc, hcid⟩, ⟨d, hd, hdid⟩⟩ := h
  obtain ⟨a, ha, hac⟩ := (w.request?_eq_some_iff i c).mp hc
  obtain ⟨b, hb, hbd⟩ := (w.request?_eq_some_iff j d).mp hd
  -- Two that are no sweeps would both have the gate, and one alone has it.
  by_cases hsa : a.isSweeping = true
  · exact ⟨i, a, c, ha, hsa, hac, hcid⟩
  by_cases hsb : b.isSweeping = true
  · exact ⟨j, b, d, hb, hsb, hbd, hdid⟩
  obtain ⟨v, hv, hvid⟩ := a.visit?_of_request hac (hw.proper ha) (Bool.eq_false_iff.mpr hsa)
  have hid : v.identifier = d.uid := by rw [hvid, hcid, hdid]
  exact absurd (hw.eq_of_request ha hb hv (hw.through ha hac hv) hbd hid
    (Bool.eq_false_iff.mpr hsb)) hij

/-! ## Steps keep the order -/

/-- `turn` keeps the order, if the gate makes a `Shift` for `i` and the items that the others have
sent again stay queued as they were. -/
theorem Orderly.turn {w : World} (hw : w.Orderly) {i : Nat} {t : Turn Activity}
    {place : Option Visit} (hplace : (w.activity? i).bind Activity.visit? = place)
    (shift : SendGate.Shift i w.pipeline.gate place t.pipeline.gate t.stage.visit?)
    (proper : t.stage.Proper)
    (through : ∀ {c v}, t.stage.request? = some c → t.stage.visit? = some v →
      t.pipeline.gate.admits v = true)
    (queued : t.stage.Queued t.pipeline.retry)
    (kept : ∀ {j a item}, j ≠ i → w.activity? j = some a → a.resent? = some item →
      t.pipeline.retry.get? item.identifier = w.pipeline.retry.get? item.identifier) :
    (w.turn i t).Orderly := by
  have hothers : ∀ v, w.VisitingBut i v → v.visitor ≠ i := by
    intro v ⟨j, a, hj, ha, hv⟩ heq
    exact hj ((hw.own ha hv).symm.trans heq)
  have hown : ∀ v ∈ place, v.visitor = i := by
    intro v hv
    obtain ⟨a, ha, hav⟩ := Option.bind_eq_some_iff.mp (hplace.trans hv)
    exact hw.own ha hav
  -- Before the move the gate tracks the others and whoever moves, after it the others and whoever
  -- has moved.
  have hbefore : w.pipeline.gate.Tracks fun v => w.VisitingBut i v ∨ place = some v :=
    hw.tracks.congr (visiting_iff hplace)
  have hafter := shift.tracks hown hothers hbefore
  have hmoved : ((w.turn i t).activity? i).bind Activity.visit? = t.stage.visit? := by
    rw [activity?_turn, if_pos rfl, Option.bind_some]
  constructor
  case proper =>
    intro j a ha
    obtain ⟨rfl, rfl⟩ | ⟨-, ha⟩ := moved_or_stayed ha
    · exact proper
    · exact hw.proper ha
  case own =>
    intro j a v ha hv
    obtain ⟨rfl, rfl⟩ | ⟨-, ha⟩ := moved_or_stayed ha
    · exact shift.visitor hown v hv
    · exact hw.own ha hv
  case tracks =>
    refine hafter.congr fun v => ?_
    rw [visiting_iff hmoved, visitingBut_turn]
  -- Nobody else loses the gate by the move.
  case through =>
    intro j a c v ha hc hv
    obtain ⟨rfl, rfl⟩ | ⟨hj, ha⟩ := moved_or_stayed ha
    · exact through hc hv
    · exact shift.admits hown hothers hbefore ⟨j, a, hj, ha, hv⟩ (hw.through ha hc hv)
  -- What the others have sent again is queued as before.
  case queued =>
    intro j a ha item hitem
    obtain ⟨rfl, rfl⟩ | ⟨hj, ha⟩ := moved_or_stayed ha
    · exact queued item hitem
    · show t.pipeline.retry.holds item.identifier item.seq = true
      rw [RetryQueue.holds_congr (kept hj ha hitem)]
      exact hw.queued ha item hitem

/-- `turn` keeps the order where no activity was, if the stage of `t` stands nowhere or has no
`request?`. -/
theorem Orderly.begins {w : World} (hw : w.Orderly) {i : Nat} {t : Turn Activity}
    (free : w.tasks[i]? = none)
    (shift : SendGate.Shift i w.pipeline.gate none t.pipeline.gate t.stage.visit?)
    (proper : t.stage.Proper) (unsent : t.stage.visit? = none ∨ t.stage.request? = none)
    (unresent : t.stage.resent? = none)
    (retry : ∀ id, t.pipeline.retry.get? id = w.pipeline.retry.get? id) :
    (w.turn i t).Orderly := by
  have hplace : (w.activity? i).bind Activity.visit? = none := by
    rw [activity?_eq_none free, Option.bind_none]
  refine hw.turn hplace shift proper ?_ ?_ ?_
  · intro c v hc hv
    obtain hnone | hnone := unsent
    · cases hnone.symm.trans hv
    · cases hnone.symm.trans hc
  · intro item hitem
    cases unresent.symm.trans hitem
  · intro j a item _ _ _
    exact retry item.identifier

/-- Whoever has the gate of `id` may make a `RetryQueue.Change` at `id`: no other activity has sent
its item again, so `get?` is the same at whatever they have sent. -/
theorem Orderly.kept_of_change {w : World} (hw : w.Orderly) {i : Nat} {a : Activity} {v : Visit}
    {id : String} {q : RetryQueue} (ha : w.activity? i = some a) (hv : a.visit? = some v)
    (hid : v.identifier = id) (hav : w.pipeline.gate.admits v = true)
    (hq : RetryQueue.Change id w.pipeline.retry q) {j : Nat} {b : Activity} {item : RetryItem}
    (hj : j ≠ i) (hb : w.activity? j = some b) (hitem : b.resent? = some item) :
    q.get? item.identifier = w.pipeline.retry.get? item.identifier := by
  -- A flush that has sent the identifier's item would have the same gate.
  refine hq.get?_of_ne fun heq => hj ?_
  obtain ⟨hc, hs⟩ := b.request?_of_resent hitem
  exact (hw.eq_of_request ha hb hv hav hc (hid.trans heq) hs).symm

/-- `pass` keeps the order: an activity that the gate admits goes on. -/
theorem Orderly.pass {w : World} (hw : w.Orderly) {i : Nat} {a : Activity} {landed : Bool}
    {v : Visit} (task : w.tasks[i]? = some ⟨a, landed⟩) (waits : a.wait = .gate v)
    (free : w.pipeline.gate.admits v = true) : (w.pass i a).Orderly := by
  have ha := activity?_of_task task
  have hv := Activity.visit?_of_gate waits
  have hproper := hw.proper ha
  have hplace : (w.activity? i).bind Activity.visit? = a.visit? := by
    rw [ha, Option.bind_some]
  have hown : v.visitor = i := hw.own ha hv
  have hshift : SendGate.Shift i w.pipeline.gate a.visit?
      (a.admitted w.pipeline).pipeline.gate (a.admitted w.pipeline).stage.visit? :=
    hown ▸ Activity.shift_admitted waits
  -- The note of a live event is seen by nobody here.
  suffices hturn : (w.turn i (a.admitted w.pipeline)).Orderly from
    hturn.congr rfl fun _ => rfl
  refine hw.turn hplace hshift (Activity.proper_admitted hproper) ?_
    (Activity.queued_of_gate waits) ?_
  -- Whoever sends on being let through still stands where it was let through.
  · intro c u hc hu
    obtain ⟨hplace', hgate⟩ := Activity.request?_admitted waits hc
    obtain rfl := Option.some.inj (hplace'.symm.trans hu)
    rw [hgate]
    exact free
  -- It has the gate of what it changes.
  · intro j b item hj hb hitem
    exact hw.kept_of_change ha hv rfl free (Activity.change_admitted waits hproper) hj hb hitem

/-- `answer` keeps the order: an activity goes on with the reply to its request. -/
theorem Orderly.answer {w : World} (hw : w.Orderly) {i : Nat} {a : Activity} {c : Call}
    {r : Reply} (task : w.tasks[i]? = some ⟨a, r.isOk⟩) (sent : a.request? = some c) :
    (w.answer i a c r).Orderly := by
  have ha := activity?_of_task task
  have hproper := hw.proper ha
  have hplace : (w.activity? i).bind Activity.visit? = a.visit? := by
    rw [ha, Option.bind_some]
  -- The note of the answer is seen by nobody here.
  suffices hturn : (w.turn i (a.replied w.pipeline r)).Orderly from
    hturn.congr rfl fun _ => rfl
  refine hw.turn hplace (Activity.shift_replied r sent fun v hv => hw.own ha hv)
    (Activity.proper_replied r hproper) ?_ ?_ ?_
  -- Only a sweep sends again, and a sweep stands nowhere.
  · intro d u hd hu
    by_cases hs : a.isSweeping = true
    · rw [Activity.visit?_replied_sweep _ _ hs] at hu
      cases hu
    · rw [Activity.request?_replied r sent (Bool.eq_false_iff.mpr hs)] at hd
      cases hd
  · intro item hitem
    rw [Activity.resent?_replied r sent] at hitem
    cases hitem
  -- A sweep leaves the queue alone, and everybody else has the gate of what was sent.
  · intro j b item hj hb hitem
    by_cases hs : a.isSweeping = true
    · rw [Activity.retry_replied_sweep _ _ hs]
    · obtain ⟨v, hv, hid⟩ := a.visit?_of_request sent hproper (Bool.eq_false_iff.mpr hs)
      exact hw.kept_of_change ha hv hid (hw.through ha sent hv)
        (Activity.change_replied r sent) hj hb hitem

theorem orderly_step {w w' : World} {m : Move} (hw : w.Orderly) (h : Step w m w') :
    w'.Orderly := by
  cases h with
  | event i action doc free =>
    exact hw.begins free (Activity.shift_beginForward w.pipeline i action doc)
      (Activity.proper_beginForward w.pipeline i action doc)
      (Or.inr (Activity.request?_beginForward w.pipeline i action doc))
      (Activity.resent?_beginForward w.pipeline i action doc)
      (fun id => by rw [Activity.retry_beginForward])
  | flush i free =>
    exact hw.begins free (Activity.shift_beginFlush w.pipeline i)
      (Flushing.proper_next _ _ _ _ _) (Or.inr (Flushing.request?_next _ _ _ _ _))
      (Flushing.resent?_next _ _ _ _ _) (fun id => by rw [Activity.retry_beginFlush]; rfl)
  | sweep i owner free =>
    exact hw.begins free (Activity.shift_beginSweep w.pipeline i owner) trivial (Or.inl rfl) rfl
      (fun id => by rw [Activity.retry_beginSweep])
  | pass i a landed v task waits free => exact hw.pass task waits free
  -- That a request is carried out is seen by nobody here.
  | land i a c task sent => exact hw.congr rfl (activity?_land c task)
  | reply i a c r task sent => exact hw.answer task sent

theorem orderly_run {w w' : World} {moves : List Move} (hw : w.Orderly)
    (h : w.run? moves = some w') : w'.Orderly :=
  run?_preserves (K := fun _ => True) (fun _ => orderly_step) (fun _ _ => trivial) hw h

end World
end InventorySync
