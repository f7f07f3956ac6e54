import InventorySync.Gate
import Mathlib.Data.List.Nodup

/-!
# Who stands at the gate

A gate is used by visitors, each of whom stands at one place at a time. `Tracks` ties the gate's
slots and lines to the visits that are under way; it is kept by every way in which one visitor can
move on while the others stay where they are (`Shift`).

## Key results

- `Tracks.exclusive`: two visits of one identifier that both have the gate are the same visit
- `Shift.tracks`: a move of one visitor keeps `Tracks`
- `Shift.admits`: a move of one visitor takes the gate from nobody else
-/

namespace InventorySync.SendGate

/-- The slots and lines of `g` are those of the visits that are `here`, and of no others. -/
structure Tracks (g : SendGate) (here : Visit → Prop) : Prop where
  registered : ∀ {v : Visit}, here v → g.slots[v.identifier]? = some v.slot
  standing : ∀ {v : Visit}, here v → v.visitor ∈ g.line v.slot
  known : ∀ {s i : Nat}, i ∈ g.line s → ∃ v : Visit, here v ∧ v.slot = s ∧ v.visitor = i
  /-- Nobody stands at two places. -/
  once : ∀ {v v' : Visit}, here v → here v' → v.visitor = v'.visitor → v = v'
  nodup : ∀ s, (g.line s).Nodup
  fresh : ∀ {id : String} {s : Nat}, g.slots[id]? = some s → s < g.nextSlot
  apart : ∀ {id id' : String} {s : Nat}, g.slots[id]? = some s → g.slots[id']? = some s → id = id'

theorem tracks_empty : empty.Tracks fun _ => False where
  registered h := h.elim
  standing h := h.elim
  known h := by simp [empty, line] at h
  once h := h.elim
  nodup s := by simp [empty, line]
  fresh h := by simp [empty] at h
  apart h := by simp [empty] at h

theorem Tracks.congr {g : SendGate} {here here' : Visit → Prop} (hg : g.Tracks here)
    (h : ∀ v, here v ↔ here' v) : g.Tracks here' := by
  obtain rfl : here = here' := funext fun v => propext (h v)
  exact hg

/-- Two visits of one identifier that `admits` holds of are the same visit. -/
theorem Tracks.exclusive {g : SendGate} {here : Visit → Prop} (hg : g.Tracks here) {v v' : Visit}
    (hv : here v) (hv' : here v') (hid : v.identifier = v'.identifier)
    (ha : g.admits v = true) (ha' : g.admits v' = true) : v = v' := by
  have hslot : v.slot = v'.slot := by
    have h := hg.registered hv
    rw [hid, hg.registered hv'] at h
    exact (Option.some.inj h).symm
  -- Both are at the head of one line, so they are one visitor, and nobody stands at two places.
  simp only [admits, beq_iff_eq] at ha ha'
  rw [hslot, ha'] at ha
  exact hg.once hv hv' (Option.some.inj ha).symm

/-- The line of `nextSlot`, which is not in use yet, is empty. -/
theorem Tracks.line_nextSlot {g : SendGate} {here : Visit → Prop} (hg : g.Tracks here) :
    g.line g.nextSlot = [] := by
  refine List.eq_nil_iff_forall_not_mem.mpr fun i hi => ?_
  -- Whoever stood there would have a registered slot, and those are all older.
  obtain ⟨v, hv, hslot, -⟩ := hg.known hi
  have := hg.fresh (hg.registered hv)
  omega

/-! ## Entering -/

@[simp] theorem identifier_enter (g : SendGate) (id : String) (i : Nat) :
    (g.enter id i).1.identifier = id := by
  unfold enter
  split <;> rfl

@[simp] theorem visitor_enter (g : SendGate) (id : String) (i : Nat) :
    (g.enter id i).1.visitor = i := by
  unfold enter
  split <;> rfl

theorem slots_enter (g : SendGate) (id : String) (i : Nat) (id' : String) :
    (g.enter id i).2.slots[id']? =
      if id = id' then some (g.enter id i).1.slot else g.slots[id']? := by
  unfold enter
  split
  next slot h =>
    split
    next hid => rw [← hid, h]
    next => rfl
  next h => simp [Std.ExtTreeMap.getElem?_insert]

theorem line_enter {g : SendGate} {here : Visit → Prop} (hg : g.Tracks here) (id : String)
    (i s : Nat) :
    (g.enter id i).2.line s =
      if (g.enter id i).1.slot = s then g.line s ++ [i] else g.line s := by
  unfold enter
  split
  next slot h =>
    simp only [line, Std.ExtTreeMap.getElem?_insert, Std.compare_eq_iff_eq]
    split
    next hs => simp [hs]
    next => rfl
  next h =>
    have hnew := hg.line_nextSlot
    simp only [line, Std.ExtTreeMap.getElem?_insert, Std.compare_eq_iff_eq] at hnew ⊢
    split
    next hs => rw [← hs, hnew]; rfl
    next => rfl

/-- The slot that `enter` gives is the one registered for `id`, or `nextSlot` if none is. -/
theorem slot_enter (g : SendGate) (id : String) (i : Nat) :
    g.slots[id]? = some (g.enter id i).1.slot ∨
      (g.slots[id]? = none ∧ (g.enter id i).1.slot = g.nextSlot) := by
  unfold enter
  split
  next slot h => exact Or.inl h
  next h => exact Or.inr ⟨h, rfl⟩

theorem nextSlot_enter (g : SendGate) (id : String) (i : Nat) :
    g.nextSlot ≤ (g.enter id i).2.nextSlot ∧
      ((g.enter id i).1.slot = g.nextSlot → g.slots[id]? = none →
        g.nextSlot < (g.enter id i).2.nextSlot) := by
  unfold enter
  split
  next slot h => simp [h]
  next h => simp

/-- `enter` keeps the slots of those who are `here`, since it takes the slot of `id` if there is
one. -/
theorem Tracks.registered_enter {g : SendGate} {here : Visit → Prop} (hg : g.Tracks here)
    (id : String) (i : Nat) {v : Visit} (hv : here v) :
    (g.enter id i).2.slots[v.identifier]? = some v.slot := by
  rw [slots_enter]
  split
  next hid =>
    obtain h | ⟨h, -⟩ := slot_enter g id i
    · rw [← h, hid, hg.registered hv]
    · rw [hid, hg.registered hv] at h
      cases h
  next => exact hg.registered hv

/-- Those in the lines after `enter` are those who were there, and the newcomer. -/
theorem Tracks.known_enter {g : SendGate} {here : Visit → Prop} (hg : g.Tracks here) (id : String)
    (i : Nat) {s j : Nat} (hj : j ∈ (g.enter id i).2.line s) :
    ∃ v, (here v ∨ v = (g.enter id i).1) ∧ v.slot = s ∧ v.visitor = j := by
  have hbefore : j ∈ g.line s → ∃ v, (here v ∨ v = (g.enter id i).1) ∧ v.slot = s ∧
      v.visitor = j := by
    intro hj
    obtain ⟨v, hv, h⟩ := hg.known hj
    exact ⟨v, Or.inl hv, h⟩
  rw [line_enter hg] at hj
  split at hj
  next hs =>
    obtain hj | hj := List.mem_append.mp hj
    · exact hbefore hj
    · obtain rfl := List.mem_singleton.mp hj
      exact ⟨_, Or.inr rfl, hs, visitor_enter g id j⟩
  next => exact hbefore hj

theorem Tracks.nodup_enter {g : SendGate} {here : Visit → Prop} (hg : g.Tracks here) (id : String)
    {i : Nat} (hi : ∀ v, here v → v.visitor ≠ i) (s : Nat) : ((g.enter id i).2.line s).Nodup := by
  rw [line_enter hg]
  split
  · refine List.nodup_append.mpr ⟨hg.nodup s, List.nodup_singleton i, ?_⟩
    intro j hj k hk heq
    obtain rfl := List.mem_singleton.mp hk
    obtain ⟨v, hv, -, hvis⟩ := hg.known hj
    exact hi v hv (hvis.trans heq)
  · exact hg.nodup s

theorem Tracks.fresh_enter {g : SendGate} {here : Visit → Prop} (hg : g.Tracks here) (id : String)
    (i : Nat) {id' : String} {s : Nat} (h : (g.enter id i).2.slots[id']? = some s) :
    s < (g.enter id i).2.nextSlot := by
  obtain ⟨hle, hlt⟩ := nextSlot_enter g id i
  rw [slots_enter] at h
  split at h
  next hid =>
    obtain rfl := Option.some.inj h
    obtain hold | ⟨hnone, hnew⟩ := slot_enter g id i
    · exact Nat.lt_of_lt_of_le (hg.fresh hold) hle
    · rw [hnew]
      exact hlt hnew hnone
  next => exact Nat.lt_of_lt_of_le (hg.fresh h) hle

/-- If the slot that `enter` gives was registered, it was for `id`. -/
theorem Tracks.eq_of_slot_enter {g : SendGate} {here : Visit → Prop} (hg : g.Tracks here)
    {id id' : String} {i : Nat} (h : g.slots[id']? = some (g.enter id i).1.slot) : id = id' := by
  obtain hold | ⟨-, hnew⟩ := slot_enter g id i
  · exact hg.apart hold h
  · have := hg.fresh h
    omega

theorem Tracks.apart_enter {g : SendGate} {here : Visit → Prop} (hg : g.Tracks here) (id : String)
    (i : Nat) {id' id'' : String} {s : Nat} (h : (g.enter id i).2.slots[id']? = some s)
    (h' : (g.enter id i).2.slots[id'']? = some s) : id' = id'' := by
  rw [slots_enter] at h h'
  split at h <;> split at h'
  next hid hid' => rw [← hid, ← hid']
  next hid _ => rw [← hid, hg.eq_of_slot_enter (h'.trans h.symm)]
  next _ hid' => rw [← hid', hg.eq_of_slot_enter (h.trans h'.symm)]
  next => exact hg.apart h h'

/-- `enter` adds one visit to those that are `here`, at the end of its line. -/
theorem Tracks.enter {g : SendGate} {here : Visit → Prop} (hg : g.Tracks here) (id : String)
    {i : Nat} (hi : ∀ v, here v → v.visitor ≠ i) :
    (g.enter id i).2.Tracks fun v => here v ∨ v = (g.enter id i).1 where
  registered := by
    rintro v (hv | rfl)
    · exact hg.registered_enter id i hv
    · rw [identifier_enter, slots_enter, if_pos rfl]
  standing := by
    rintro v (hv | rfl)
    · rw [line_enter hg]
      split
      · exact List.mem_append_left _ (hg.standing hv)
      · exact hg.standing hv
    · rw [line_enter hg, if_pos rfl, visitor_enter]
      simp
  known := hg.known_enter id i
  once := by
    -- The newcomer is nobody of those who were there.
    rintro v v' (hv | rfl) (hv' | rfl) heq
    · exact hg.once hv hv' heq
    · exact absurd (heq.trans (visitor_enter g id i)) (hi v hv)
    · exact absurd (heq.symm.trans (visitor_enter g id i)) (hi v' hv')
    · rfl
  nodup := hg.nodup_enter id hi
  fresh := hg.fresh_enter id i
  apart := hg.apart_enter id i

/-- `enter` keeps `admits`: someone new stands at the end of a line. -/
theorem Tracks.admits_enter {g : SendGate} {here : Visit → Prop} (hg : g.Tracks here)
    (id : String) (i : Nat) {v : Visit} (ha : g.admits v = true) :
    (g.enter id i).2.admits v = true := by
  simp only [admits, holder?, beq_iff_eq] at ha ⊢
  rw [line_enter hg]
  split
  · rw [List.head?_append, ha]; rfl
  · exact ha

/-! ## Leaving -/

theorem line_leave (g : SendGate) (v : Visit) (s : Nat) :
    (g.leave v).2.line s = if v.slot = s then (g.line s).erase v.visitor else g.line s := by
  simp only [leave, line]
  by_cases hrest : (g.lines[v.slot]?.getD []).erase v.visitor = []
  · simp only [List.isEmpty_iff, hrest, if_true, Std.ExtTreeMap.getElem?_erase,
      Std.compare_eq_iff_eq]
    split
    next hs => rw [← hs, hrest]; rfl
    next => rfl
  · simp only [List.isEmpty_iff, hrest, if_false, Std.ExtTreeMap.getElem?_insert,
      Std.compare_eq_iff_eq]
    split
    next hs => rw [← hs]; rfl
    next => rfl

/-- `leave` takes out the slot of its identifier if nobody is left in the line, and no other slot.
-/
theorem slots_leave {g : SendGate} {v : Visit} (hv : g.slots[v.identifier]? = some v.slot)
    (id : String) :
    (g.leave v).2.slots[id]? =
      if v.identifier = id ∧ (g.line v.slot).erase v.visitor = [] then none else g.slots[id]? := by
  simp only [leave, line, hv, List.isEmpty_iff]
  by_cases hempty : (g.lines[v.slot]?.getD []).erase v.visitor = []
  · simp [hempty, Std.ExtTreeMap.getElem?_erase]
  · simp [hempty]

section Leave

variable {g : SendGate} {here : Visit → Prop} {v : Visit}

/-- No slot is new after `leave`, which carries over whatever is said about slots in use. -/
theorem slots_of_slots_leave (hv : g.slots[v.identifier]? = some v.slot) {id : String} {s : Nat}
    (h : (g.leave v).2.slots[id]? = some s) : g.slots[id]? = some s := by
  rw [slots_leave hv] at h
  split at h
  · cases h
  · exact h

/-- `leave` takes nobody else out of a line, since nobody else is that visitor. -/
theorem Tracks.standing_leave (hg : g.Tracks fun u => here u ∨ u = v) (hv : ¬ here v) {u : Visit}
    (hu : here u) : u.visitor ∈ (g.leave v).2.line u.slot := by
  have hother : u.visitor ≠ v.visitor := by
    intro heq
    obtain rfl := hg.once (Or.inl hu) (Or.inr rfl) heq
    exact hv hu
  rw [line_leave]
  split
  · exact (List.mem_erase_of_ne hother).mpr (hg.standing (Or.inl hu))
  · exact hg.standing (Or.inl hu)

/-- `leave` keeps the slot of whoever still stands in its line. -/
theorem Tracks.registered_leave (hg : g.Tracks fun u => here u ∨ u = v) (hv : ¬ here v) {u : Visit}
    (hu : here u) : (g.leave v).2.slots[u.identifier]? = some u.slot := by
  have hreg : g.slots[v.identifier]? = some v.slot := hg.registered (Or.inr rfl)
  rw [slots_leave hreg, if_neg, hg.registered (Or.inl hu)]
  intro ⟨hid, hempty⟩
  have hslot : u.slot = v.slot := by
    have h := hg.registered (Or.inl hu)
    rw [← hid, hreg] at h
    exact (Option.some.inj h).symm
  have h := hg.standing_leave hv hu
  rw [line_leave, if_pos hslot.symm, hslot, hempty] at h
  cases h

theorem Tracks.known_leave (hg : g.Tracks fun u => here u ∨ u = v) {s i : Nat}
    (hi : i ∈ (g.leave v).2.line s) : ∃ u, here u ∧ u.slot = s ∧ u.visitor = i := by
  rw [line_leave] at hi
  split at hi
  next hs =>
    obtain ⟨hne, hi⟩ := (hg.nodup s).mem_erase_iff.mp hi
    obtain ⟨u, hu | rfl, hslot, hvis⟩ := hg.known hi
    · exact ⟨u, hu, hslot, hvis⟩
    · exact absurd hvis.symm hne
  next hs =>
    obtain ⟨u, hu | rfl, hslot, hvis⟩ := hg.known hi
    · exact ⟨u, hu, hslot, hvis⟩
    · exact absurd hslot hs

/-- `leave` takes one visit out of those that are `here`. -/
theorem Tracks.leave (hg : g.Tracks fun u => here u ∨ u = v) (hv : ¬ here v) :
    (g.leave v).2.Tracks here where
  registered := hg.registered_leave hv
  standing := hg.standing_leave hv
  known := hg.known_leave
  once hu hu' heq := hg.once (Or.inl hu) (Or.inl hu') heq
  nodup s := by
    rw [line_leave]
    split
    · exact (hg.nodup s).erase _
    · exact hg.nodup s
  fresh h := hg.fresh (slots_of_slots_leave (hg.registered (Or.inr rfl)) h)
  apart h h' := hg.apart (slots_of_slots_leave (hg.registered (Or.inr rfl)) h)
    (slots_of_slots_leave (hg.registered (Or.inr rfl)) h')

end Leave

/-- `leave` keeps `admits` for everybody else. -/
theorem admits_leave {g : SendGate} {u v : Visit} (hne : u.visitor ≠ v.visitor)
    (ha : g.admits u = true) : (g.leave v).2.admits u = true := by
  simp only [admits, holder?, beq_iff_eq] at ha ⊢
  rw [line_leave]
  split
  · -- Whoever is first in the line stays first, since somebody else goes.
    obtain ⟨rest, hline⟩ := List.head?_eq_some_iff.mp ha
    rw [hline, List.erase_cons_tail (by simpa using hne)]
    rfl
  · exact ha

/-! ## Moves of one visitor -/

/-- How visitor `i` moves on, from the place where it stands to the place where it stands next. -/
inductive Shift (i : Nat) : SendGate → Option Visit → SendGate → Option Visit → Prop
  | stay (g place) : Shift i g place g place
  | enter (g id) : Shift i g none (g.enter id i).2 (some (g.enter id i).1)
  | leave (g v) : Shift i g (some v) (g.leave v).2 none
  | trans {g g' g'' place place' place''} (first : Shift i g place g' place')
      (second : Shift i g' place' g'' place'') : Shift i g place g'' place''

/-- A `Shift` of visitor `i` ends at a place of visitor `i`. -/
theorem Shift.visitor {i : Nat} {g g' : SendGate} {place place' : Option Visit}
    (h : Shift i g place g' place') (own : ∀ v ∈ place, v.visitor = i) :
    ∀ v ∈ place', v.visitor = i := by
  induction h with
  | stay => exact own
  | enter g id => simp
  | leave => simp
  | trans _ _ ih ih' => exact ih' (ih own)

/-- A `Shift` keeps `Tracks`: the others stay, and `i` stands at its new place. -/
theorem Shift.tracks {i : Nat} {g g' : SendGate} {place place' : Option Visit}
    (h : Shift i g place g' place') {others : Visit → Prop}
    (own : ∀ v ∈ place, v.visitor = i) (hi : ∀ v, others v → v.visitor ≠ i)
    (hg : g.Tracks fun v => others v ∨ place = some v) :
    g'.Tracks fun v => others v ∨ place' = some v := by
  induction h with
  | stay => exact hg
  | enter g id =>
    have hg' : g.Tracks others := hg.congr (by simp)
    exact (hg'.enter id hi).congr (by simp [eq_comm])
  | leave g v =>
    have hv : ¬ others v := fun hv => hi v hv (own v rfl)
    have hg' : g.Tracks fun u => others u ∨ u = v := hg.congr (by simp [eq_comm])
    exact (hg'.leave hv).congr (by simp)
  -- Between the two moves the visitor is still itself.
  | trans first _ ih ih' => exact ih' (first.visitor own) (ih own hg)

/-- A `Shift` of `i` keeps `admits` for the others. -/
theorem Shift.admits {i : Nat} {g g' : SendGate} {place place' : Option Visit}
    (h : Shift i g place g' place') {others : Visit → Prop}
    (own : ∀ v ∈ place, v.visitor = i) (hi : ∀ v, others v → v.visitor ≠ i)
    (hg : g.Tracks fun v => others v ∨ place = some v) {u : Visit} (hu : others u)
    (ha : g.admits u = true) : g'.admits u = true := by
  induction h with
  | stay => exact ha
  | enter g id => exact hg.admits_enter id i ha
  | leave g v => exact admits_leave (fun heq => hi u hu (heq.trans (own v rfl))) ha
  | trans first _ ih ih' => exact ih' (first.visitor own) (first.tracks own hi hg) (ih own hg ha)

end InventorySync.SendGate
