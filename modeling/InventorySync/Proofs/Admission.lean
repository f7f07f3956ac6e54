import InventorySync.Proofs.Handles
import InventorySync.Proofs.Queues
import Mathlib.Data.List.Induction

/-!
# Runs of the gate

Visitors come for identifiers, ask for the lock, get it and give it back, in any order. Nobody
gives up waiting. The gate is kept in both ways, with lines and with counted handles: whoever has
only come has a handle and is in no line yet. For each identifier the visitors ask, get the gate
and leave in one and the same order, and what can happen next for it depends on nothing that has
happened for others.

## Key results

- `Sound.step`: every move keeps the lines and the handles together
- `InOrder.step`: what every move adds to the order; `inOrder_run`: so it holds after every run
- `GateHouse.gate_in_order`: the gate is exclusive, never stuck, first come first served, and leaves
  nothing behind
-/

namespace InventorySync

open Std (ExtTreeMap)

/-! ## Moves -/

/-- What somebody can do at the gate; `GateHouse.next?` says when. -/
inductive GateStep where
  /-- Take a handle of the lock of an identifier. -/
  | come
  /-- Ask for the lock. -/
  | ask
  /-- Get the gate. -/
  | pass
  /-- Give the gate back. -/
  | leave
deriving DecidableEq, Repr

/-- Somebody does a `GateStep` for an identifier. -/
structure GateMove where
  step : GateStep
  visitor : Nat
  id : String
deriving DecidableEq, Repr

/-- Who did something for an identifier, in the order of doing. -/
def visitors (step : GateStep) (moves : List GateMove) (id : String) : List Nat :=
  (moves.filter fun m => m.step = step ∧ m.id = id).map (·.visitor)

theorem visitors_concat (step : GateStep) (moves : List GateMove) (m : GateMove) (id : String) :
    visitors step (moves ++ [m]) id =
      visitors step moves id ++ if m.step = step ∧ m.id = id then [m.visitor] else [] := by
  unfold visitors
  rw [List.filter_append, List.map_append]
  congr 1
  by_cases h : m.step = step ∧ m.id = id <;> simp [h]

/-- How far somebody has got: `visit?` is the place in line. -/
inductive Stage where
  /-- It has not asked for the lock yet. -/
  | coming
  | waiting (visit : Visit)
  /-- It has got the gate. -/
  | inside (visit : Visit)
deriving DecidableEq, Repr

namespace Stage

/-- The place in line. -/
def visit? : Stage → Option Visit
  | coming => none
  | waiting visit => some visit
  | inside visit => some visit

def isInside : Stage → Bool
  | inside _ => true
  | _ => false

end Stage

/-- Somebody at the gate, with the `Stage`. -/
structure Attendance where
  id : String
  /-- The slot whose lock it has a handle of. -/
  slot : Nat
  stage : Stage
deriving DecidableEq, Repr

/-- The gate, kept with lines as a `SendGate` and with counted handles as a `CountedGate`, and who
is `present`. -/
structure GateHouse where
  gate : SendGate
  counted : CountedGate
  present : ExtTreeMap Nat Attendance

namespace GateHouse

/-- Nobody is there. -/
def empty : GateHouse := ⟨.empty, .empty, ∅⟩

def come (w : GateHouse) (i : Nat) (id : String) : GateHouse :=
  { w with
    counted := (w.counted.reach id).2
    present := w.present.insert i ⟨id, (w.counted.reach id).1, .coming⟩ }

def ask (w : GateHouse) (i : Nat) (id : String) (slot : Nat) : GateHouse where
  gate := (w.gate.enter id i).2
  counted := w.counted.ask slot i
  present := w.present.insert i ⟨id, slot, .waiting (w.gate.enter id i).1⟩

def pass (w : GateHouse) (i : Nat) (id : String) (slot : Nat) (visit : Visit) : GateHouse :=
  { w with present := w.present.insert i ⟨id, slot, .inside visit⟩ }

/-- One move, since nobody comes while the slots are looked through: giving the lock back, counting
the handles that are left, and dropping the slot. -/
def leave (w : GateHouse) (i : Nat) (id : String) (slot : Nat) (visit : Visit) : GateHouse where
  gate := (w.gate.leave visit).2
  counted := w.counted.leave id slot
  present := w.present.erase i

/-- A move, if it is possible. -/
def next? (w : GateHouse) : GateMove → Option GateHouse
  | ⟨.come, i, id⟩ => if w.present[i]? = none then some (w.come i id) else none
  | ⟨.ask, i, id⟩ =>
    match w.present[i]? with
    | some ⟨own, slot, .coming⟩ => if own = id then some (w.ask i id slot) else none
    | _ => none
  | ⟨.pass, i, id⟩ =>
    match w.present[i]? with
    | some ⟨own, slot, .waiting visit⟩ =>
      if own = id ∧ w.counted.owner? slot = some i then some (w.pass i id slot visit) else none
    | _ => none
  | ⟨.leave, i, id⟩ =>
    match w.present[i]? with
    | some ⟨own, slot, .inside visit⟩ =>
      if own = id then some (w.leave i id slot visit) else none
    | _ => none

/-- Moves one after another. -/
def run? (w : GateHouse) (moves : List GateMove) : Option GateHouse := moves.foldlM next? w

/-- What each move does: the inversion of `next?`. -/
inductive Step (w : GateHouse) : GateMove → GateHouse → Prop
  | come {i id} (absent : w.present[i]? = none) : Step w ⟨.come, i, id⟩ (w.come i id)
  | ask {i id slot} (comes : w.present[i]? = some ⟨id, slot, .coming⟩) :
      Step w ⟨.ask, i, id⟩ (w.ask i id slot)
  | pass {i id slot visit} (waits : w.present[i]? = some ⟨id, slot, .waiting visit⟩)
      (free : w.counted.owner? slot = some i) :
      Step w ⟨.pass, i, id⟩ (w.pass i id slot visit)
  | leave {i id slot visit} (has : w.present[i]? = some ⟨id, slot, .inside visit⟩) :
      Step w ⟨.leave, i, id⟩ (w.leave i id slot visit)

theorem step_of_next? {w w' : GateHouse} {m : GateMove} (h : w.next? m = some w') :
    Step w m w' := by
  obtain ⟨step, i, id⟩ := m
  -- Each kind of move is possible at one stage of the visitor, and for its own identifier.
  cases step with
  | come =>
    simp only [next?] at h
    split at h
    next habsent =>
      obtain rfl := Option.some.inj h
      exact .come habsent
    next => cases h
  | ask =>
    simp only [next?] at h
    split at h
    next own slot hcomes =>
      split at h
      next hid =>
        subst hid
        obtain rfl := Option.some.inj h
        exact .ask hcomes
      next => cases h
    next => cases h
  | pass =>
    simp only [next?] at h
    split at h
    next own slot visit hwaits =>
      split at h
      next hfree =>
        -- Only the owner of the lock gets the gate.
        obtain ⟨rfl, hfree⟩ := hfree
        obtain rfl := Option.some.inj h
        exact .pass hwaits hfree
      next => cases h
    next => cases h
  | leave =>
    simp only [next?] at h
    split at h
    next own slot visit hhas =>
      split at h
      next hid =>
        subst hid
        obtain rfl := Option.some.inj h
        exact .leave hhas
      next => cases h
    next => cases h

theorem run?_concat {w w' : GateHouse} {moves : List GateMove} {m : GateMove}
    (h : w.run? (moves ++ [m]) = some w') :
    ∃ v, w.run? moves = some v ∧ Step v m w' := by
  rw [run?, List.foldlM_append] at h
  obtain ⟨v, hv, hlast⟩ := Option.bind_eq_some_iff.mp h
  obtain ⟨u, hu, hnil⟩ := Option.bind_eq_some_iff.mp hlast
  obtain rfl := Option.some.inj hnil
  exact ⟨v, hv, step_of_next? hu⟩

/-! ## Who is where -/

/-- Where a visitor stands in line. -/
def visit? (w : GateHouse) (i : Nat) : Option Visit := w.present[i]?.bind (·.stage.visit?)

/-- Which identifier a visitor has come for, and the slot whose lock it has a handle of. -/
def grip (w : GateHouse) (i : Nat) : Option (String × Nat) :=
  w.present[i]?.map fun a => (a.id, a.slot)

/-- Somebody has the gate of an identifier. -/
def Has (w : GateHouse) (i : Nat) (id : String) : Prop :=
  ∃ slot visit, w.present[i]? = some ⟨id, slot, .inside visit⟩

/-- Somebody waits for the gate of an identifier. -/
def Waits (w : GateHouse) (i : Nat) (id : String) : Prop :=
  ∃ slot visit, w.present[i]? = some ⟨id, slot, .waiting visit⟩

/-- Somebody has come for an identifier and not asked for the lock yet. -/
def Comes (w : GateHouse) (i : Nat) (id : String) : Prop :=
  ∃ slot, w.present[i]? = some ⟨id, slot, .coming⟩

variable {w w' : GateHouse} {moves : List GateMove} {i slot : Nat} {id : String} {visit : Visit}
  {a : Attendance}

theorem grip_of_present (h : w.present[i]? = some a) : w.grip i = some (a.id, a.slot) := by
  rw [grip, h, Option.map_some]

theorem visit?_of_present (h : w.present[i]? = some a) : w.visit? i = a.stage.visit? := by
  rw [visit?, h, Option.bind_some]

theorem present_insert (w' : GateHouse) (h : w'.present = w.present.insert i a) (j : Nat) :
    w'.present[j]? = if i = j then some a else w.present[j]? := by
  rw [h, ExtTreeMap.getElem?_insert]
  simp only [Std.compare_eq_iff_eq]

theorem visit?_insert (w' : GateHouse) (h : w'.present = w.present.insert i a) (j : Nat) :
    w'.visit? j = if i = j then a.stage.visit? else w.visit? j := by
  rw [visit?, present_insert w' h]
  split <;> rfl

theorem grip_insert (w' : GateHouse) (h : w'.present = w.present.insert i a) (j : Nat) :
    w'.grip j = if i = j then some (a.id, a.slot) else w.grip j := by
  rw [grip, present_insert w' h]
  split <;> rfl

theorem present_leave (w : GateHouse) (i : Nat) (id : String) (slot : Nat) (visit : Visit)
    (j : Nat) :
    (w.leave i id slot visit).present[j]? = if i = j then none else w.present[j]? := by
  rw [leave, ExtTreeMap.getElem?_erase]
  simp only [Std.compare_eq_iff_eq]

theorem visit?_leave (w : GateHouse) (i : Nat) (id : String) (slot : Nat) (visit : Visit)
    (j : Nat) : (w.leave i id slot visit).visit? j = if i = j then none else w.visit? j := by
  rw [visit?, present_leave]
  split <;> rfl

theorem grip_leave (w : GateHouse) (i : Nat) (id : String) (slot : Nat) (visit : Visit)
    (j : Nat) : (w.leave i id slot visit).grip j = if i = j then none else w.grip j := by
  rw [grip, present_leave]
  split <;> rfl

theorem grip_eq_some_iff (w : GateHouse) (i : Nat) (id : String) :
    (∃ slot, w.grip i = some (id, slot)) ↔ w.Has i id ∨ w.Waits i id ∨ w.Comes i id := by
  constructor
  · rintro ⟨slot, h⟩
    obtain ⟨⟨own, handle, stage⟩, ha, hgrip⟩ := Option.map_eq_some_iff.mp h
    obtain ⟨rfl, rfl⟩ := Prod.mk.inj hgrip
    cases stage with
    | coming => exact Or.inr (Or.inr ⟨_, ha⟩)
    | waiting visit => exact Or.inr (Or.inl ⟨_, visit, ha⟩)
    | inside visit => exact Or.inl ⟨_, visit, ha⟩
  · rintro (⟨slot, visit, h⟩ | ⟨slot, visit, h⟩ | ⟨slot, h⟩) <;> exact ⟨slot, grip_of_present h⟩

/-! ## What every move keeps -/

/-- Everybody stands where `gate` says, the handles of `counted` are those of everybody `present`,
and who is `inside` is the first in line. -/
structure Sound (w : GateHouse) : Prop where
  tracks : w.gate.Tracks fun v => ∃ i, w.visit? i = some v
  tidy : w.gate.Tidy
  balanced : w.counted.Balanced w.grip w.gate.queue
  own : ∀ {i : Nat} {a : Attendance} {v : Visit}, w.present[i]? = some a →
    a.stage.visit? = some v → v.visitor = i ∧ v.identifier = a.id
  first : ∀ {i : Nat} {id : String} {slot : Nat} {v : Visit},
    w.present[i]? = some ⟨id, slot, .inside v⟩ → (w.gate.queue id).head? = some i

theorem sound_empty : empty.Sound where
  tracks := SendGate.tracks_empty.congr fun v => by simp [visit?, empty]
  tidy := SendGate.tidy_empty
  balanced := CountedGate.balanced_empty
  own h := by simp [empty] at h
  first h := by simp [empty] at h

/-- Those in the `queue` of an identifier are those of whom `Has` or `Waits` holds. -/
theorem Sound.mem_queue_iff (hw : w.Sound) : i ∈ w.gate.queue id ↔ w.Has i id ∨ w.Waits i id := by
  rw [hw.tracks.mem_queue_iff]
  constructor
  · rintro ⟨v, ⟨j, hv⟩, rfl, rfl⟩
    obtain ⟨⟨own, slot, stage⟩, ha, hstage⟩ := Option.bind_eq_some_iff.mp hv
    obtain ⟨hvis, hid⟩ := hw.own ha hstage
    rw [hvis, hid]
    cases stage with
    | coming => cases hstage
    | waiting visit => exact Or.inr ⟨slot, visit, ha⟩
    | inside visit => exact Or.inl ⟨slot, visit, ha⟩
  · rintro (⟨slot, v, h⟩ | ⟨slot, v, h⟩)
    all_goals
      obtain ⟨hvis, hid⟩ := hw.own h rfl
      exact ⟨v, ⟨i, visit?_of_present h⟩, hid, hvis⟩

/-- `owner?` of a lock is the first in the `queue`. -/
theorem Sound.owner?_eq (hw : w.Sound) (h : w.present[i]? = some a) :
    w.counted.owner? a.slot = (w.gate.queue a.id).head? :=
  hw.balanced.owner?_eq (grip_of_present h)

theorem Sound.admits_iff (hw : w.Sound) (h : w.present[i]? = some a)
    (hvisit : a.stage.visit? = some visit) :
    w.gate.admits visit = true ↔ w.counted.owner? a.slot = some i := by
  obtain ⟨hvis, hid⟩ := hw.own h hvisit
  rw [hw.tracks.admits_iff ⟨i, (visit?_of_present h).trans hvisit⟩, hvis, hid, hw.owner?_eq h]

theorem Sound.come (hw : w.Sound) (absent : w.present[i]? = none) (id : String) :
    (w.come i id).Sound := by
  have hpresent := present_insert (w.come i id) rfl
  -- Whoever only comes has not asked for a lock yet, so all visits are as they were.
  have hvisit : ∀ j, (w.come i id).visit? j = w.visit? j := by
    intro j
    rw [visit?_insert _ rfl]
    split
    next hij => rw [← hij, visit?, absent]; rfl
    next => rfl
  have hgrip : w.grip i = none := by
    rw [grip, absent, Option.map_none]
  refine ⟨?_, hw.tidy, hw.balanced.reach id hgrip (grip_insert (w.come i id) rfl), ?_, ?_⟩
  · simp only [hvisit]
    exact hw.tracks
  · intro j a v hv
    rw [hpresent] at hv
    split at hv
    · cases hv
      nofun
    · exact hw.own hv
  · intro j id' slot v hv
    rw [hpresent] at hv
    split at hv
    · cases hv
    · exact hw.first hv

theorem Sound.ask (hw : w.Sound) (comes : w.present[i]? = some ⟨id, slot, .coming⟩) :
    (w.ask i id slot).Sound := by
  have hpresent := present_insert (w.ask i id slot) rfl
  have hvisit := visit?_insert (w.ask i id slot) rfl
  have hgrip : (w.ask i id slot).grip = w.grip := by
    refine funext fun j => ?_
    rw [grip_insert _ rfl]
    split
    next hij => rw [← hij, grip_of_present comes]
    next => rfl
  -- Nobody in line is the one who asks, who stood nowhere before.
  have hnew : ∀ v, (∃ j, w.visit? j = some v) → v.visitor ≠ i := by
    rintro v ⟨j, hv⟩ hvis
    obtain ⟨a, ha, hstage⟩ := Option.bind_eq_some_iff.mp hv
    obtain rfl : j = i := (hw.own ha hstage).1.symm.trans hvis
    rw [comes] at ha
    cases ha
    cases hstage
  have hqueue : ∀ id', (w.ask i id slot).gate.queue id' =
      if id = id' then w.gate.queue id' ++ [i] else w.gate.queue id' :=
    hw.tracks.queue_enter id i
  constructor
  case tidy => exact hw.tidy.enter hw.tracks id i
  -- Those who stand somewhere are those who did, and the one who has asked.
  case tracks =>
    refine (hw.tracks.enter id hnew).congr fun v => ?_
    simp only [hvisit]
    constructor
    · rintro (⟨j, hv⟩ | rfl)
      · refine ⟨j, ?_⟩
        rwa [if_neg]
        rintro rfl
        rw [visit?_of_present comes] at hv
        cases hv
      · exact ⟨i, if_pos rfl⟩
    · rintro ⟨j, hv⟩
      split at hv
      · exact Or.inr (Option.some.inj hv).symm
      · exact Or.inl ⟨j, hv⟩
  -- The handles are the same, and whoever had only come was in no line.
  case balanced =>
    rw [hgrip]
    refine hw.balanced.ask (grip_of_present comes) ?_ hqueue
    rw [hw.mem_queue_iff, Has, Waits, comes]
    rintro (⟨_, _, h⟩ | ⟨_, _, h⟩) <;> cases h
  case own =>
    intro j a v hv hstage
    rw [hpresent] at hv
    split at hv
    next hij =>
      cases hv
      cases hstage
      exact ⟨(SendGate.visitor_enter w.gate id i).trans hij, SendGate.identifier_enter w.gate id i⟩
    next => exact hw.own hv hstage
  -- Who is first in a line stays first when somebody comes to its end.
  case first =>
    intro j id' slot' v hv
    rw [hpresent] at hv
    rw [hqueue]
    split at hv
    · cases hv
    · have hfirst := hw.first hv
      split
      · rw [List.head?_append, hfirst]
        rfl
      · exact hfirst

theorem Sound.pass (hw : w.Sound) (waits : w.present[i]? = some ⟨id, slot, .waiting visit⟩)
    (free : w.counted.owner? slot = some i) : (w.pass i id slot visit).Sound := by
  have hpresent := present_insert (w.pass i id slot visit) rfl
  -- The place in line and the handle are the same inside as they were in waiting.
  have hvisit : ∀ j, (w.pass i id slot visit).visit? j = w.visit? j := by
    intro j
    rw [visit?_insert _ rfl]
    split
    next hij => rw [← hij, visit?_of_present waits]; rfl
    next => rfl
  have hgrip : (w.pass i id slot visit).grip = w.grip := by
    refine funext fun j => ?_
    rw [grip_insert _ rfl]
    split
    next hij => rw [← hij, grip_of_present waits]
    next => rfl
  constructor
  case tidy => exact hw.tidy
  case tracks =>
    simp only [hvisit]
    exact hw.tracks
  case balanced =>
    rw [hgrip]
    exact hw.balanced
  case own =>
    intro j a v hv hstage
    rw [hpresent] at hv
    split at hv
    next hij =>
      subst hij
      cases hv
      cases hstage
      obtain ⟨hvis, hid⟩ := hw.own waits rfl
      exact ⟨hvis, hid⟩
    next => exact hw.own hv hstage
  -- Whoever is let inside owns the lock, which is to be the first in line.
  case first =>
    intro j id' slot' v hv
    rw [hpresent] at hv
    split at hv
    next hij =>
      cases hv
      rw [← hij, ← free]
      exact (hw.owner?_eq waits).symm
    next => exact hw.first hv

theorem Sound.queue_leave (hw : w.Sound) (has : w.present[i]? = some ⟨id, slot, .inside visit⟩)
    (id' : String) : (w.leave i id slot visit).gate.queue id' =
      if id = id' then (w.gate.queue id').erase i else w.gate.queue id' := by
  obtain ⟨hvis, hid⟩ := hw.own has rfl
  show (w.gate.leave visit).2.queue id' = _
  rw [hw.tracks.queue_leave ⟨i, visit?_of_present has⟩, hvis, hid]

theorem Sound.leave (hw : w.Sound) (has : w.present[i]? = some ⟨id, slot, .inside visit⟩) :
    (w.leave i id slot visit).Sound := by
  have hpresent := present_leave w i id slot visit
  have hvisit := visit?_leave w i id slot visit
  have hi : w.visit? i = some visit := visit?_of_present has
  obtain ⟨hvis, hid⟩ := hw.own has rfl
  have hreg := hw.tracks.registered ⟨i, hi⟩
  obtain ⟨rest, hqueue⟩ := List.head?_eq_some_iff.mp (hw.first has)
  constructor
  case tidy => exact hw.tidy.leave hreg (hw.tracks.apart hreg)
  -- Those who still stand somewhere are the others.
  case tracks =>
    simp only [hvisit]
    refine SendGate.Tracks.leave (hw.tracks.congr fun v => ?_) ?_
    · constructor
      · rintro ⟨j, hv⟩
        by_cases hij : i = j
        · subst hij
          exact Or.inr (Option.some.inj (hv.symm.trans hi))
        · exact Or.inl ⟨j, by rwa [if_neg hij]⟩
      · rintro (⟨j, hv⟩ | rfl)
        · split at hv
          · cases hv
          · exact ⟨j, hv⟩
        · exact ⟨i, hi⟩
    · rintro ⟨j, hv⟩
      split at hv
      next => cases hv
      next hij =>
        obtain ⟨a, ha, hstage⟩ := Option.bind_eq_some_iff.mp hv
        exact hij (hvis.symm.trans (hw.own ha hstage).1)
  -- The lock goes to the rest of the line, at whose head the visitor was.
  case balanced =>
    refine hw.balanced.leave (grip_of_present has) hqueue (grip_leave w i id slot visit) ?_
    intro id'
    rw [hw.queue_leave has]
    split
    next hid => rw [← hid, hqueue, List.erase_cons_head]
    next => rfl
  case own =>
    intro j a v hv
    rw [hpresent] at hv
    split at hv
    · cases hv
    · exact hw.own hv
  -- Whoever else is inside is in another line: two who are first in one line are one.
  case first =>
    intro j id' slot' v hv
    rw [hpresent] at hv
    split at hv
    next => cases hv
    next hij =>
      rw [hw.queue_leave has, if_neg]
      · exact hw.first hv
      · rintro rfl
        exact hij (Option.some.inj ((hw.first has).symm.trans (hw.first hv)))

theorem Sound.step (hw : w.Sound) {m : GateMove} (h : Step w m w') : w'.Sound := by
  cases h with
  | come absent => exact hw.come absent _
  | ask comes => exact hw.ask comes
  | pass waits free => exact hw.pass waits free
  | leave has => exact hw.leave has

/-! ## Who is inside -/

/-- Who has the gate of an identifier: the first in its line, unless that one has not got it yet. -/
def inside? (w : GateHouse) (id : String) : Option Nat :=
  (w.gate.queue id).head?.filter fun i => w.present[i]?.any (·.stage.isInside)

theorem Sound.inside?_eq_some_iff (hw : w.Sound) : w.inside? id = some i ↔ w.Has i id := by
  rw [inside?, Option.filter_eq_some_iff]
  constructor
  · rintro ⟨hhead, hinside⟩
    rcases hw.mem_queue_iff.mp (List.mem_of_head? hhead) with hhas | ⟨slot, visit, hwaits⟩
    · exact hhas
    · rw [hwaits] at hinside
      cases hinside
  · rintro ⟨slot, visit, hhas⟩
    exact ⟨hw.first hhas, by rw [hhas]; rfl⟩

/-- Whoever is `inside?` is the first in the `queue`. -/
theorem inside?_prefix (w : GateHouse) (id : String) :
    (w.inside? id).toList <+: w.gate.queue id := by
  unfold inside?
  cases w.gate.queue id with
  | nil => exact List.prefix_rfl
  | cons first rest =>
    rw [List.head?_cons, Option.filter_some]
    split
    · exact ⟨rest, rfl⟩
    · exact List.nil_prefix

/-- `Has` holds of one visitor of an identifier alone. -/
theorem Sound.exclusive (hw : w.Sound) {j : Nat} (hi : w.Has i id) (hj : w.Has j id) : i = j := by
  rw [← hw.inside?_eq_some_iff] at hi hj
  exact Option.some.inj (hi.symm.trans hj)

/-- `inside?` stays the same when somebody comes or asks. -/
theorem Sound.inside?_insert (hw : w.Sound) (hw' : w'.Sound)
    (h : w'.present = w.present.insert i a) (ha : a.stage.isInside = false)
    (hi : ∀ id, ¬ w.Has i id) (id : String) : w'.inside? id = w.inside? id := by
  refine Option.ext fun j => ?_
  rw [hw'.inside?_eq_some_iff, hw.inside?_eq_some_iff, Has, present_insert w' h]
  split
  next hij =>
    subst hij
    refine iff_of_false ?_ (hi id)
    rintro ⟨slot, visit, h⟩
    cases h
    cases ha
  next => rfl

theorem Sound.inside?_of_waits (hw : w.Sound)
    (waits : w.present[i]? = some ⟨id, slot, .waiting visit⟩)
    (free : w.counted.owner? slot = some i) : w.inside? id = none := by
  -- The first in line is the one who waits.
  have hhead : (w.gate.queue id).head? = some i := (hw.owner?_eq waits).symm.trans free
  rw [inside?, hhead, Option.filter_some, waits]
  rfl

theorem Sound.inside?_pass (hw : w.Sound)
    (waits : w.present[i]? = some ⟨id, slot, .waiting visit⟩)
    (free : w.counted.owner? slot = some i) (id' : String) :
    (w.pass i id slot visit).inside? id' = if id = id' then some i else w.inside? id' := by
  refine Option.ext fun j => ?_
  rw [(hw.pass waits free).inside?_eq_some_iff, Has, present_insert _ rfl]
  by_cases hid : id = id'
  · subst hid
    rw [if_pos rfl]
    by_cases hij : i = j
    · simp [hij]
    · have hnobody : w.inside? id ≠ some j := by
        rw [hw.inside?_of_waits waits free]
        nofun
      rw [ne_eq, hw.inside?_eq_some_iff, Has] at hnobody
      simpa [hij] using hnobody
  · rw [if_neg hid, hw.inside?_eq_some_iff, Has]
    by_cases hij : i = j
    · subst hij
      simp [waits, hid]
    · simp [hij]

theorem Sound.inside?_leave (hw : w.Sound) (has : w.present[i]? = some ⟨id, slot, .inside visit⟩)
    (id' : String) :
    (w.leave i id slot visit).inside? id' = if id = id' then none else w.inside? id' := by
  refine Option.ext fun j => ?_
  rw [(hw.leave has).inside?_eq_some_iff, Has, present_leave]
  by_cases hid : id = id'
  · subst hid
    rw [if_pos rfl]
    constructor
    · rintro ⟨slot', v, hv⟩
      split at hv
      next => cases hv
      next hij => exact absurd (hw.exclusive ⟨slot, visit, has⟩ ⟨slot', v, hv⟩) hij
    · nofun
  · rw [if_neg hid, hw.inside?_eq_some_iff, Has]
    by_cases hij : i = j
    · subst hij
      simp [has, hid]
    · simp [hij]

/-! ## One order -/

/-- For every identifier, those who have left asked first, and those who are in the `queue` asked
after them; those who got the gate are those who have left, and whoever is `inside?`. -/
structure InOrder (moves : List GateMove) (w : GateHouse) : Prop where
  sound : w.Sound
  asked : ∀ id, visitors .ask moves id = visitors .leave moves id ++ w.gate.queue id
  got : ∀ id, visitors .pass moves id = visitors .leave moves id ++ (w.inside? id).toList

theorem inOrder_empty : InOrder [] empty where
  sound := sound_empty
  asked id := by simp [visitors, SendGate.queue, empty, SendGate.empty]
  got id := by simp [visitors, inside?, SendGate.queue, empty, SendGate.empty]

theorem InOrder.step (h : InOrder moves w) {m : GateMove} (hstep : Step w m w') :
    InOrder (moves ++ [m]) w' := by
  have hw := h.sound
  constructor
  case sound => exact hw.step hstep
  -- Asking adds to the line, and leaving moves its first to those who have left.
  case asked =>
    intro id
    rw [visitors_concat, visitors_concat, h.asked id]
    cases hstep with
    | come absent => simp [come]
    | @ask i id' slot comes =>
      show _ = _ ++ (w.gate.enter id' i).2.queue id
      rw [hw.tracks.queue_enter]
      by_cases hid : id' = id <;> simp [hid]
    | pass waits free => simp [pass]
    | @leave i id' slot visit has =>
      rw [hw.queue_leave has]
      by_cases hid : id' = id
      · subst hid
        obtain ⟨rest, hqueue⟩ := List.head?_eq_some_iff.mp (hw.first has)
        simp [hqueue]
      · simp [hid]
  -- Only getting the gate and leaving change who is inside.
  case got =>
    intro id
    rw [visitors_concat, visitors_concat, h.got id]
    cases hstep with
    | come absent =>
      rw [hw.inside?_insert (hw.come absent _) rfl rfl (by simp [Has, absent])]
      simp
    | ask comes =>
      rw [hw.inside?_insert (hw.ask comes) rfl rfl (by simp [Has, comes])]
      simp
    | @pass i id' slot visit waits free =>
      rw [hw.inside?_pass waits free]
      by_cases hid : id' = id
      · subst hid
        simp [hw.inside?_of_waits waits free]
      · simp [hid]
    | @leave i id' slot visit has =>
      rw [hw.inside?_leave has]
      by_cases hid : id' = id
      · subst hid
        have hinside := hw.inside?_eq_some_iff.mpr ⟨slot, visit, has⟩
        simp [hinside]
      · simp [hid]

theorem inOrder_run (h : empty.run? moves = some w) : InOrder moves w := by
  induction moves using List.reverseRecOn generalizing w with
  | nil =>
    obtain rfl := Option.some.inj h
    exact inOrder_empty
  | append_singleton moves m ih =>
    obtain ⟨v, hv, hstep⟩ := run?_concat h
    exact (ih hv).step hstep

/-! ## What can happen next -/

theorem isSome_ask_iff (w : GateHouse) (i : Nat) (id : String) :
    (w.next? ⟨.ask, i, id⟩).isSome = true ↔ w.Comes i id := by
  constructor
  · intro h
    obtain ⟨w', hw'⟩ := Option.isSome_iff_exists.mp h
    cases step_of_next? hw' with
    | ask comes => exact ⟨_, comes⟩
  · rintro ⟨slot, hcomes⟩
    simp [next?, hcomes]

/-- Whether `next?` allows a `.pass` for an identifier depends on who has asked for it, got it and
left it before, and on nothing else: whoever had it last has left, and the next one who asked is it.
-/
theorem InOrder.isSome_pass_iff (h : InOrder moves w) (i : Nat) (id : String) :
    (w.next? ⟨.pass, i, id⟩).isSome = true ↔
      visitors .pass moves id = visitors .leave moves id ∧
        (visitors .ask moves id)[(visitors .pass moves id).length]? = some i := by
  have hw := h.sound
  have hnext : (w.next? ⟨.pass, i, id⟩).isSome = true ↔
      ∃ slot v, w.present[i]? = some ⟨id, slot, .waiting v⟩ ∧ w.counted.owner? slot = some i := by
    constructor
    · intro hsome
      obtain ⟨w', hw'⟩ := Option.isSome_iff_exists.mp hsome
      cases step_of_next? hw' with
      | pass waits free => exact ⟨_, _, waits, free⟩
    · rintro ⟨slot, v, hv, hfree⟩
      simp [next?, hv, hfree]
  have hempty : visitors .pass moves id = visitors .leave moves id ↔ w.inside? id = none := by
    rw [h.got id]
    cases w.inside? id <;> simp
  -- The next one who asked is the first in line when nobody is inside.
  have hhead : w.inside? id = none →
      (visitors .ask moves id)[(visitors .pass moves id).length]? = (w.gate.queue id).head? := by
    intro hnobody
    rw [hempty.mpr hnobody, h.asked, List.getElem?_append_right (Nat.le_refl _), Nat.sub_self,
      List.head?_eq_getElem?]
  rw [hnext, hempty]
  constructor
  · rintro ⟨slot, v, hv, hfree⟩
    have hnobody := hw.inside?_of_waits hv hfree
    exact ⟨hnobody, (hhead hnobody).trans ((hw.owner?_eq hv).symm.trans hfree)⟩
  · rintro ⟨hnobody, hi⟩
    rw [hhead hnobody] at hi
    rcases hw.mem_queue_iff.mp (List.mem_of_head? hi) with hhas | ⟨slot, v, hv⟩
    · -- Were this one inside, it would be the one who is.
      rw [hw.inside?_eq_some_iff.mpr hhas] at hnobody
      cases hnobody
    · exact ⟨slot, v, hv, (hw.owner?_eq hv).trans hi⟩

/-- Where somebody is in the `queue` of an identifier, `Has` holds of somebody, or `next?` allows a
`.pass`. -/
theorem InOrder.never_stuck (h : InOrder moves w) (hi : i ∈ w.gate.queue id) :
    (∃ j, w.Has j id) ∨ ∃ j, (w.next? ⟨.pass, j, id⟩).isSome = true := by
  obtain ⟨first, rest, hqueue⟩ := List.exists_cons_of_ne_nil (List.ne_nil_of_mem hi)
  cases hinside : w.inside? id with
  | some j => exact Or.inl ⟨j, h.sound.inside?_eq_some_iff.mp hinside⟩
  | none =>
    have hgot : visitors .pass moves id = visitors .leave moves id := by
      rw [h.got, hinside, Option.toList_none, List.append_nil]
    refine Or.inr ⟨first, (h.isSome_pass_iff first id).mpr ⟨hgot, ?_⟩⟩
    rw [hgot, h.asked, hqueue]
    simp

/-- After any `run?`, in which visitors come for identifiers, ask for the lock, get it and give it
back in whatever order: of those who `Has` holds of, no two have the gate for one identifier, even
when its slot has gone and come again; where somebody `Waits`, somebody has the gate, or can get it
now, and whoever `Comes` can ask; all get it and leave in the order of asking; who can get it
depends on what has happened for the same identifier alone; and the identifiers that have a slot are
those that somebody is there for. Their locks have one handle more than visitors who are there, and
whoever has the gate has the lock that the identifier has now. The gate that keeps lines `admits`
the same visitors, and has slots for those identifiers that somebody has asked for. -/
theorem gate_in_order (h : empty.run? moves = some w) :
    (∀ i j id, w.Has i id → w.Has j id → i = j) ∧
    (∀ i id, w.Waits i id →
      (∃ j, w.Has j id) ∨ ∃ j, (w.next? ⟨.pass, j, id⟩).isSome = true) ∧
    (∀ i id, w.Comes i id → (w.next? ⟨.ask, i, id⟩).isSome = true) ∧
    (∀ id, visitors .leave moves id <+: visitors .pass moves id ∧
      visitors .pass moves id <+: visitors .ask moves id) ∧
    (∀ i id, (w.next? ⟨.pass, i, id⟩).isSome = true ↔
      visitors .pass moves id = visitors .leave moves id ∧
        (visitors .ask moves id)[(visitors .pass moves id).length]? = some i) ∧
    (∀ id, w.counted.slots[id]? ≠ none ↔ ∃ i, w.Has i id ∨ w.Waits i id ∨ w.Comes i id) ∧
    (w.present = ∅ → w.counted.slots = ∅ ∧ w.counted.locks = ∅) ∧
    (∀ id slot, w.counted.slots[id]? = some slot → ∃ there : List Nat, there.Nodup ∧
      (∀ i, i ∈ there ↔ w.Has i id ∨ w.Waits i id ∨ w.Comes i id) ∧
      w.counted.locks[slot]?.map (·.handles) = some (there.length + 1)) ∧
    (∀ i id, w.Has i id → w.counted.slots[id]?.bind w.counted.owner? = some i) ∧
    (∀ i id slot visit, w.present[i]? = some ⟨id, slot, .waiting visit⟩ ∨
      w.present[i]? = some ⟨id, slot, .inside visit⟩ →
        (w.gate.admits visit = true ↔ w.counted.owner? slot = some i)) ∧
    (∀ id, w.gate.slots[id]? ≠ none ↔ ∃ i, w.Has i id ∨ w.Waits i id) ∧
    (w.present = ∅ → w.gate.slots = ∅ ∧ w.gate.lines = ∅) := by
  have horder := inOrder_run h
  have hw := horder.sound
  refine ⟨fun i j id => hw.exclusive, ?_, fun i id => (w.isSome_ask_iff i id).mpr, fun id => ?_,
    horder.isSome_pass_iff, fun id => ?_, ?_, ?_, ?_, ?_, fun id => ?_, ?_⟩
  -- Progress, and the order of those who ask, get the gate and leave.
  · exact fun i id hwaits => horder.never_stuck (hw.mem_queue_iff.mpr (Or.inr hwaits))
  · rw [horder.got, horder.asked]
    exact ⟨List.prefix_append _ _, (List.prefix_append_right_inj _).mpr (w.inside?_prefix id)⟩
  -- The slots and the handles of the gate that counts them.
  · rw [hw.balanced.slots_ne_none_iff]
    exact exists_congr fun i => w.grip_eq_some_iff i id
  · intro hnobody
    exact hw.balanced.eq_empty fun i => by simp [grip, hnobody]
  · intro id slot hslot
    obtain ⟨there, -, hnodup, hmem, hlock⟩ := hw.balanced.counted hslot
    refine ⟨there, hnodup, fun i => ?_, by rw [hlock]; rfl⟩
    rw [hmem, ← w.grip_eq_some_iff]
    -- Whoever has a handle for the identifier has one of the slot that it has now.
    constructor
    · exact fun hi => ⟨slot, hi⟩
    · rintro ⟨s, hi⟩
      obtain rfl := Option.some.inj ((hw.balanced.registered hi).symm.trans hslot)
      exact hi
  -- The owners of its locks, and what the gate with lines says of them.
  · rintro i id ⟨slot, visit, hhas⟩
    rw [hw.balanced.registered (grip_of_present hhas), Option.bind_some, hw.owner?_eq hhas]
    exact hw.first hhas
  · rintro i id slot visit (hi | hi) <;> exact hw.admits_iff hi rfl
  · rw [hw.tidy.slots_ne_none_iff]
    constructor
    · intro hne
      obtain ⟨i, hi⟩ := List.exists_mem_of_ne_nil _ hne
      exact ⟨i, hw.mem_queue_iff.mp hi⟩
    · rintro ⟨i, hi⟩
      exact List.ne_nil_of_mem (hw.mem_queue_iff.mpr hi)
  · intro hnobody
    refine hw.tidy.eq_empty hw.tracks ?_
    rintro v ⟨i, hv⟩
    simp [visit?, hnobody] at hv

/-- One comes while another has the gate, and asks only after that one has left and a third has
asked. When all have left, the slot goes; then two more come and ask, and somebody for another
identifier. -/
def crowd : List GateMove :=
  [⟨.come, 0, "a"⟩, ⟨.ask, 0, "a"⟩, ⟨.pass, 0, "a"⟩, ⟨.come, 2, "a"⟩, ⟨.leave, 0, "a"⟩,
    ⟨.come, 3, "a"⟩, ⟨.ask, 3, "a"⟩, ⟨.ask, 2, "a"⟩, ⟨.pass, 3, "a"⟩, ⟨.leave, 3, "a"⟩,
    ⟨.pass, 2, "a"⟩, ⟨.leave, 2, "a"⟩, ⟨.come, 0, "a"⟩, ⟨.come, 4, "a"⟩, ⟨.ask, 0, "a"⟩,
    ⟨.ask, 4, "a"⟩, ⟨.come, 1, "b"⟩, ⟨.ask, 1, "b"⟩, ⟨.pass, 1, "b"⟩]

/-- At the end of `crowd` the last of them waits at a new slot, and somebody can get the gate. -/
theorem gate_in_order_of_crowd : ∃ w, empty.run? crowd = some w ∧
    w.present[4]? = some ⟨"a", 1, .waiting ⟨"a", 2, 4⟩⟩ ∧
    ((∃ j, w.Has j "a") ∨ ∃ j, (w.next? ⟨.pass, j, "a"⟩).isSome = true) ∧
    visitors .pass crowd "a" <+: visitors .ask crowd "a" := by
  have hend : ((empty.run? crowd).bind fun w => w.present[4]?) =
      some ⟨"a", 1, .waiting ⟨"a", 2, 4⟩⟩ := by
    decide +kernel
  obtain ⟨w, hrun, hwaits⟩ := Option.bind_eq_some_iff.mp hend
  obtain ⟨-, hturn, -, horder, -⟩ := gate_in_order hrun
  exact ⟨w, hrun, hwaits, hturn 4 "a" ⟨_, _, hwaits⟩, (horder "a").2⟩

end GateHouse
end InventorySync
