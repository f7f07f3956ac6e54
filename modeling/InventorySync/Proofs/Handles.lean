import Mathlib.Data.List.Nodup
import Std.Data.ExtTreeMap

/-!
# A gate kept by counting handles

A slot of the gate is a lock that is shared by handles: the gate has one, and so has everybody who
has come for the identifier, whether it has asked for the lock, waits for it, has it, or has only
taken the handle so far. The gate may drop a slot when its own handle is the only one left: then
nobody can come to the lock any more, and a new lock for the identifier keeps nobody apart who
should be.

## Key results

- `Shared`: the handles of a lock are those of the gate and of everybody who is there for its
  identifier
- `Balanced.reach`, `Balanced.ask`, `Balanced.leave`: this stays so when somebody comes, asks for
  the lock, or leaves; each is put together from one preservation lemma for each field
- `Balanced.slots_ne_none_iff`, `Balanced.eq_empty`: an identifier has a slot while somebody is
  there for it
-/

namespace InventorySync

open Std (ExtTreeMap)

/-- A lock that is shared by handles. -/
structure SharedLock where
  handles : Nat
  /-- Who has the lock, or to whom it was handed. -/
  owner : Option Nat
  /-- Who waits for it, in the order of asking. -/
  waiting : List Nat
deriving DecidableEq, Repr

namespace SharedLock

/-- A free lock with its first handle. -/
def new : SharedLock := ⟨1, none, []⟩

/-- One more handle. -/
def share (l : SharedLock) : SharedLock := { l with handles := l.handles + 1 }

/-- Ask for the lock; a free one is had at once. -/
def ask (l : SharedLock) (visitor : Nat) : SharedLock :=
  match l.owner with
  | none => { l with owner := some visitor }
  | some _ => { l with waiting := l.waiting ++ [visitor] }

/-- Give the lock back, which hands it to the first who waits, and drop the handle. -/
def release (l : SharedLock) : SharedLock :=
  ⟨l.handles - 1, l.waiting.head?, l.waiting.tail⟩

/-- A lock with so many handles and this line: the first has it, and the others wait. -/
def ofLine (handles : Nat) (line : List Nat) : SharedLock := ⟨handles, line.head?, line.tail⟩

theorem ask_ofLine (handles : Nat) (line : List Nat) (visitor : Nat) :
    (ofLine handles line).ask visitor = ofLine handles (line ++ [visitor]) := by
  cases line <;> simp [ofLine, ask]

theorem release_ofLine (handles visitor : Nat) (line : List Nat) :
    (ofLine (handles + 1) (visitor :: line)).release = ofLine handles line := by
  simp [ofLine, release]

end SharedLock

/-- The slots in use, each a lock. -/
structure CountedGate where
  slots : ExtTreeMap String Nat
  locks : ExtTreeMap Nat SharedLock
  nextSlot : Nat
deriving DecidableEq

namespace CountedGate

/-- The gate with nobody at it. -/
def empty : CountedGate := ⟨∅, ∅, 0⟩

/-- Take a handle of the lock of an identifier; a new lock if it has none. -/
def reach (c : CountedGate) (id : String) : Nat × CountedGate :=
  match c.slots[id]? with
  | some slot => (slot, { c with locks := c.locks.modify slot SharedLock.share })
  | none =>
    (c.nextSlot, ⟨c.slots.insert id c.nextSlot, c.locks.insert c.nextSlot SharedLock.new.share,
      c.nextSlot + 1⟩)

/-- Ask for the lock of a slot. -/
def ask (c : CountedGate) (slot visitor : Nat) : CountedGate :=
  { c with locks := c.locks.modify slot (·.ask visitor) }

/-- Leave: give the lock back, and drop the slot that the identifier has now if the gate's own
handle is the only one left. -/
def leave (c : CountedGate) (id : String) (slot : Nat) : CountedGate :=
  let locks := c.locks.modify slot SharedLock.release
  match c.slots[id]? with
  | some now =>
    if locks[now]?.map (·.handles) = some 1 then
      { c with slots := c.slots.erase id, locks := locks.erase now }
    else { c with locks }
  | none => { c with locks }

/-- Who has the lock of a slot, or to whom it was handed. -/
def owner? (c : CountedGate) (slot : Nat) : Option Nat := c.locks[slot]?.bind (·.owner)

/-! ## Counting -/

/-- The lock of slot `s` has one handle for the gate and one for each of those who are there for
`id`, and is in the hands of the first in the line of `id`. -/
def Shared (c : CountedGate) (grip : Nat → Option (String × Nat)) (line : String → List Nat)
    (id : String) (s : Nat) : Prop :=
  ∃ holders : List Nat,
    holders ≠ [] ∧ holders.Nodup ∧ (∀ i, i ∈ holders ↔ grip i = some (id, s)) ∧
      c.locks[s]? = some (.ofLine (holders.length + 1) (line id))

/-- The handles are those of the visitors: `grip` gives for everybody who is there the identifier it
has come for and the slot whose lock it has a handle of, and `line` who has asked for the lock of an
identifier, in the order of asking. -/
structure Balanced (c : CountedGate) (grip : Nat → Option (String × Nat))
    (line : String → List Nat) : Prop where
  registered : ∀ {i : Nat} {id : String} {s : Nat}, grip i = some (id, s) → c.slots[id]? = some s
  /-- The lock of a slot in use is shared by those who are there. -/
  counted : ∀ {id : String} {s : Nat}, c.slots[id]? = some s → c.Shared grip line id s
  /-- Only those ask who are there. -/
  standing : ∀ {id : String} {i : Nat}, i ∈ line id → ∃ s, grip i = some (id, s)
  nodup : ∀ id, (line id).Nodup
  known : ∀ {s : Nat} {l : SharedLock}, c.locks[s]? = some l → ∃ id : String, c.slots[id]? = some s
  fresh : ∀ {id : String} {s : Nat}, c.slots[id]? = some s → s < c.nextSlot
  apart : ∀ {id id' : String} {s : Nat}, c.slots[id]? = some s → c.slots[id']? = some s → id = id'

variable {c c' : CountedGate} {grip grip' : Nat → Option (String × Nat)}
  {line line' : String → List Nat} {id id' : String} {i j s : Nat}

/-- Sharing (`Shared`) is kept for a lock that nobody has touched, and for whose identifier nobody
has come or gone. -/
theorem Shared.congr (h : c.Shared grip line id s) (hlock : c'.locks[s]? = c.locks[s]?)
    (hgrip : ∀ j, grip' j = some (id, s) ↔ grip j = some (id, s)) (hline : line' id = line id) :
    c'.Shared grip' line' id s := by
  obtain ⟨holders, hne, hnodup, hmem, hl⟩ := h
  exact ⟨holders, hne, hnodup, fun j => (hmem j).trans (hgrip j).symm, by rw [hlock, hl, hline]⟩

/-- When `i` comes or goes, those who are there for an identifier that `i` was not there for, and is
not there for then, are the same. -/
theorem grip_iff_of_ne {new : Option (String × Nat)}
    (hgrip : ∀ j, grip' j = if i = j then new else grip j) (hold : grip i ≠ some (id', s))
    (hnew : new ≠ some (id', s)) (j : Nat) :
    grip' j = some (id', s) ↔ grip j = some (id', s) := by
  rw [hgrip]
  split
  next hij =>
    subst hij
    simp [hold, hnew]
  next => rfl

theorem balanced_empty : empty.Balanced (fun _ => none) fun _ => [] where
  registered h := nomatch h
  counted h := by simp [empty] at h
  standing h := nomatch h
  nodup _ := List.nodup_nil
  known h := by simp [empty] at h
  fresh h := by simp [empty] at h
  apart h := by simp [empty] at h

/-- In a gate that is `Balanced` nobody has asked for an identifier without a slot. -/
theorem Balanced.line_eq_nil (h : c.Balanced grip line) (hslot : c.slots[id]? = none) :
    line id = [] := by
  refine List.eq_nil_iff_forall_not_mem.mpr fun i hi => ?_
  obtain ⟨s, hs⟩ := h.standing hi
  rw [h.registered hs] at hslot
  cases hslot

theorem Balanced.owner?_eq (h : c.Balanced grip line) (hi : grip i = some (id, s)) :
    c.owner? s = (line id).head? := by
  obtain ⟨holders, -, -, -, hlock⟩ := h.counted (h.registered hi)
  rw [owner?, hlock]
  rfl

/-- In a gate that is `Balanced` an identifier has a slot while somebody is there for it. -/
theorem Balanced.slots_ne_none_iff (h : c.Balanced grip line) (id : String) :
    c.slots[id]? ≠ none ↔ ∃ i s, grip i = some (id, s) := by
  constructor
  · intro hslot
    obtain ⟨s, hs⟩ := Option.ne_none_iff_exists'.mp hslot
    obtain ⟨holders, hne, -, hmem, -⟩ := h.counted hs
    obtain ⟨i, hi⟩ := List.exists_mem_of_ne_nil _ hne
    exact ⟨i, s, (hmem i).mp hi⟩
  · rintro ⟨i, s, hi⟩
    rw [h.registered hi]
    nofun

/-- A gate that is `Balanced` has nothing in it when nobody is there. -/
theorem Balanced.eq_empty (h : c.Balanced grip line) (nobody : ∀ i, grip i = none) :
    c.slots = ∅ ∧ c.locks = ∅ := by
  have hslots : ∀ id : String, c.slots[id]? = none := by
    intro id
    by_contra hslot
    obtain ⟨i, s, hi⟩ := (h.slots_ne_none_iff id).mp hslot
    rw [nobody] at hi
    cases hi
  constructor
  · refine ExtTreeMap.ext_getElem? fun id => ?_
    rw [hslots, ExtTreeMap.getElem?_empty]
  · refine ExtTreeMap.ext_getElem? fun s => ?_
    rw [ExtTreeMap.getElem?_empty]
    by_contra hlock
    obtain ⟨l, hl⟩ := Option.ne_none_iff_exists'.mp hlock
    obtain ⟨id, hid⟩ := h.known hl
    rw [hslots] at hid
    cases hid

/-! ### Coming -/

theorem slots_reach (c : CountedGate) (id id' : String) :
    (c.reach id).2.slots[id']? = if id = id' then some (c.reach id).1 else c.slots[id']? := by
  unfold reach
  split
  next slot h =>
    split
    next hid => rw [← hid, h]
    next => rfl
  next h => simp [ExtTreeMap.getElem?_insert]

/-- The slot that `reach` gives is the identifier's own one, or one that nobody has used. -/
theorem slot_reach (c : CountedGate) (id : String) :
    c.slots[id]? = some (c.reach id).1 ∨
      c.slots[id]? = none ∧ (c.reach id).1 = c.nextSlot := by
  unfold reach
  split
  next slot h => exact Or.inl h
  next h => exact Or.inr ⟨h, rfl⟩

theorem nextSlot_reach (c : CountedGate) (id : String) :
    c.nextSlot ≤ (c.reach id).2.nextSlot ∧
      ((c.reach id).1 = c.nextSlot → c.slots[id]? = none →
        c.nextSlot < (c.reach id).2.nextSlot) := by
  unfold reach
  split
  next slot h => simp [h]
  next h => simp

/-- The `nextSlot`, which has not been used yet, has no lock. -/
theorem Balanced.lock_nextSlot (h : c.Balanced grip line) : c.locks[c.nextSlot]? = none := by
  cases hlock : c.locks[c.nextSlot]? with
  | none => rfl
  | some l =>
    obtain ⟨id, hid⟩ := h.known hlock
    exact absurd (h.fresh hid) (Nat.lt_irrefl _)

theorem Balanced.locks_reach (h : c.Balanced grip line) (id : String) (s : Nat) :
    (c.reach id).2.locks[s]? =
      if (c.reach id).1 = s then some (c.locks[s]?.getD .new).share else c.locks[s]? := by
  have hnew := h.lock_nextSlot
  unfold reach
  split
  next slot hslot =>
    obtain ⟨holders, -, -, -, hlock⟩ := h.counted hslot
    simp only [ExtTreeMap.getElem?_modify, Std.compare_eq_iff_eq]
    split
    next hs => rw [← hs, hlock]; rfl
    next => rfl
  next hslot =>
    simp only [ExtTreeMap.getElem?_insert, Std.compare_eq_iff_eq]
    split
    next hs => rw [← hs, hnew]; rfl
    next => rfl

/-- A slot that belongs to another identifier is not the one that `reach` gives. -/
theorem Balanced.slot_reach_ne (h : c.Balanced grip line) {id' : String}
    (hs : c.slots[id']? = some s) (hid : id ≠ id') : (c.reach id).1 ≠ s := by
  intro hsame
  rcases c.slot_reach id with hold | ⟨-, hnew⟩
  · exact hid (h.apart hold (hsame ▸ hs))
  · have := h.fresh hs
    omega

/-- `reach` leaves the slots that are in use as they are. -/
theorem slots_reach_of_some (c : CountedGate) (id : String) (hs : c.slots[id']? = some s) :
    (c.reach id).2.slots[id']? = some s := by
  rw [slots_reach]
  split
  next hid =>
    subst hid
    cases c.slot_reach id with
    | inl hold => rw [← hold, hs]
    | inr hnew => cases hs.symm.trans hnew.1
  next => exact hs

theorem Balanced.registered_reach (h : c.Balanced grip line) (id : String)
    (hgrip : ∀ j, grip' j = if i = j then some (id, (c.reach id).1) else grip j)
    (hj : grip' j = some (id', s)) : (c.reach id).2.slots[id']? = some s := by
  rw [hgrip] at hj
  split at hj
  · cases hj
    rw [slots_reach, if_pos rfl]
  · exact c.slots_reach_of_some id (h.registered hj)

/-- After `reach` whoever comes has one handle more of a lock in use, or the first one of a new
lock. -/
theorem Balanced.shared_reach (h : c.Balanced grip line) (id : String) (absent : grip i = none)
    (hgrip : ∀ j, grip' j = if i = j then some (id, (c.reach id).1) else grip j) :
    (c.reach id).2.Shared grip' line id (c.reach id).1 := by
  have hmem : ∀ j, grip' j = some (id, (c.reach id).1) ↔
      j = i ∨ grip j = some (id, (c.reach id).1) := by
    intro j
    rw [hgrip]
    by_cases hij : i = j
    · simp [hij]
    · simp [hij, Ne.symm hij]
  have hlock := h.locks_reach id (c.reach id).1
  rw [if_pos rfl] at hlock
  cases c.slot_reach id with
  | inl hold =>
    obtain ⟨holders, -, hnodup, hholders, hl⟩ := h.counted hold
    have hi : i ∉ holders := by
      rw [hholders, absent]
      nofun
    refine ⟨i :: holders, by simp, List.nodup_cons.mpr ⟨hi, hnodup⟩, fun j => ?_, ?_⟩
    · rw [List.mem_cons, hholders, hmem]
    · rw [hlock, hl, List.length_cons]
      rfl
  | inr hfree =>
    -- Nobody was there for the identifier, and nobody has asked for a lock that did not exist.
    obtain ⟨hnone, hnew⟩ := hfree
    have hnobody : ∀ j, grip j ≠ some (id, (c.reach id).1) := fun j hj =>
      nomatch hnone.symm.trans (h.registered hj)
    refine ⟨[i], by simp, List.nodup_singleton i, fun j => ?_, ?_⟩
    · rw [hmem, List.mem_singleton]
      simp [hnobody]
    · rw [hlock, hnew, h.lock_nextSlot, h.line_eq_nil hnone]
      rfl

/-- The locks of other identifiers are not touched by `reach`. -/
theorem Balanced.shared_reach_of_ne (h : c.Balanced grip line) (absent : grip i = none)
    (hgrip : ∀ j, grip' j = if i = j then some (id, (c.reach id).1) else grip j)
    (hid : id ≠ id') (hs : c.slots[id']? = some s) : (c.reach id).2.Shared grip' line id' s := by
  refine (h.counted hs).congr ?_ (grip_iff_of_ne hgrip ?_ ?_) rfl
  · rw [h.locks_reach, if_neg (h.slot_reach_ne hs hid)]
  · rw [absent]
    nofun
  · intro heq
    exact hid (Prod.mk.inj (Option.some.inj heq)).1

theorem Balanced.counted_reach (h : c.Balanced grip line) (id : String) (absent : grip i = none)
    (hgrip : ∀ j, grip' j = if i = j then some (id, (c.reach id).1) else grip j)
    (hs : (c.reach id).2.slots[id']? = some s) : (c.reach id).2.Shared grip' line id' s := by
  rw [slots_reach] at hs
  split at hs
  next hid =>
    subst hid
    obtain rfl := Option.some.inj hs
    exact h.shared_reach id absent hgrip
  next hid => exact h.shared_reach_of_ne absent hgrip hid hs

theorem Balanced.known_reach (h : c.Balanced grip line) (id : String) {l : SharedLock}
    (hlock : (c.reach id).2.locks[s]? = some l) :
    ∃ id' : String, (c.reach id).2.slots[id']? = some s := by
  rw [h.locks_reach] at hlock
  split at hlock
  next hs => exact ⟨id, by rw [slots_reach, if_pos rfl, hs]⟩
  next =>
    obtain ⟨id', hs⟩ := h.known hlock
    exact ⟨id', c.slots_reach_of_some id hs⟩

theorem Balanced.fresh_reach (h : c.Balanced grip line) (id : String)
    (hs : (c.reach id).2.slots[id']? = some s) : s < (c.reach id).2.nextSlot := by
  obtain ⟨hnext, hused⟩ := c.nextSlot_reach id
  rw [slots_reach] at hs
  split at hs
  · obtain rfl := Option.some.inj hs
    cases c.slot_reach id with
    | inl hold => exact Nat.lt_of_lt_of_le (h.fresh hold) hnext
    | inr hfree =>
      rw [hfree.2]
      exact hused hfree.2 hfree.1
  · exact Nat.lt_of_lt_of_le (h.fresh hs) hnext

theorem Balanced.apart_reach (h : c.Balanced grip line) (id : String) {id₁ id₂ : String}
    (h₁ : (c.reach id).2.slots[id₁]? = some s) (h₂ : (c.reach id).2.slots[id₂]? = some s) :
    id₁ = id₂ := by
  rw [slots_reach] at h₁ h₂
  split at h₁ <;> split at h₂
  next hid₁ hid₂ => rw [← hid₁, ← hid₂]
  next hid₁ hid₂ => exact absurd (Option.some.inj h₁) (h.slot_reach_ne h₂ hid₂)
  next hid₁ hid₂ => exact absurd (Option.some.inj h₂) (h.slot_reach_ne h₁ hid₁)
  next => exact h.apart h₁ h₂

/-- `reach` keeps the balance: somebody comes for an identifier and takes a handle of its lock. -/
theorem Balanced.reach (h : c.Balanced grip line) (id : String) (absent : grip i = none)
    (hgrip : ∀ j, grip' j = if i = j then some (id, (c.reach id).1) else grip j) :
    (c.reach id).2.Balanced grip' line where
  registered := h.registered_reach id hgrip
  counted := h.counted_reach id absent hgrip
  standing := by
    intro id' j hj
    obtain ⟨s, hs⟩ := h.standing hj
    -- Whoever has asked was there before, so it is not the one who comes.
    have hij : i ≠ j := by
      rintro rfl
      cases absent.symm.trans hs
    exact ⟨s, by rw [hgrip, if_neg hij, hs]⟩
  nodup := h.nodup
  known := h.known_reach id
  fresh := h.fresh_reach id
  apart := h.apart_reach id

/-! ### Asking and leaving -/

theorem locks_modify (c : CountedGate) (slot s : Nat) (f : SharedLock → SharedLock) :
    (c.locks.modify slot f)[s]? = if slot = s then c.locks[s]?.map f else c.locks[s]? := by
  simp only [ExtTreeMap.getElem?_modify, Std.compare_eq_iff_eq]
  split
  next hs => rw [hs]
  next => rfl

/-- `ask` adds to the line of one identifier and leaves the handles alone. -/
theorem Balanced.counted_ask (h : c.Balanced grip line) (hi : grip i = some (id, s))
    (hline : ∀ id', line' id' = if id = id' then line id' ++ [i] else line id') {s' : Nat}
    (hs' : c.slots[id']? = some s') : (c.ask s i).Shared grip line' id' s' := by
  have hlock : (c.ask s i).locks[s']? =
      if s = s' then c.locks[s']?.map (·.ask i) else c.locks[s']? := locks_modify _ _ _ _
  by_cases hid : id = id'
  · subst hid
    obtain rfl : s = s' := Option.some.inj ((h.registered hi).symm.trans hs')
    obtain ⟨holders, hne, hnodup, hmem, hl⟩ := h.counted hs'
    refine ⟨holders, hne, hnodup, hmem, ?_⟩
    rw [hlock, if_pos rfl, hl, hline, if_pos rfl, Option.map_some, SharedLock.ask_ofLine]
  · have hs : s ≠ s' := fun hs => hid (h.apart (h.registered hi) (hs ▸ hs'))
    refine (h.counted hs').congr ?_ (fun _ => Iff.rfl) ?_
    · rw [hlock, if_neg hs]
    · rw [hline, if_neg hid]

/-- `ask` keeps the balance: somebody who has a handle asks for the lock. -/
theorem Balanced.ask (h : c.Balanced grip line) (hi : grip i = some (id, s)) (hnew : i ∉ line id)
    (hline : ∀ id', line' id' = if id = id' then line id' ++ [i] else line id') :
    (c.ask s i).Balanced grip line' where
  registered hj := h.registered hj
  counted := h.counted_ask hi hline
  -- Whoever is in a line has come: the others had before, and `i` has the handle `hi`.
  standing := by
    intro id' j hj
    rw [hline] at hj
    split at hj
    next hid =>
      cases List.mem_append.mp hj with
      | inl hj => exact h.standing hj
      | inr hj =>
        obtain rfl := List.mem_singleton.mp hj
        exact ⟨s, hid ▸ hi⟩
    next => exact h.standing hj
  nodup := by
    intro id'
    rw [hline]
    split
    next hid =>
      rw [← List.concat_eq_append]
      exact (h.nodup id').concat (hid ▸ hnew)
    next => exact h.nodup id'
  -- No lock is new.
  known := by
    intro s' l hlock
    have hlock : (c.locks.modify s (·.ask i))[s']? = some l := hlock
    rw [locks_modify] at hlock
    split at hlock
    next hs => exact ⟨id, hs ▸ h.registered hi⟩
    next => exact h.known hlock
  fresh hs := h.fresh hs
  apart hs hs' := h.apart hs hs'

/-- What is left of `c` when `i`, who was there for `id` with a handle of slot `s`, has given the
lock to the rest of the line: the slot and its lock stay for the others who have a handle, whether
they are in the line or not. -/
structure Left (c : CountedGate) (grip : Nat → Option (String × Nat)) (i : Nat) (id : String)
    (s : Nat) (rest others : List Nat) (c' : CountedGate) : Prop where
  nodup : others.Nodup
  mem_iff : ∀ j, j ∈ others ↔ j ≠ i ∧ grip j = some (id, s)
  slots : ∀ id', c'.slots[id']? = if id = id' ∧ others = [] then none else c.slots[id']?
  locks : ∀ s' : Nat, c'.locks[s']? =
    if s = s' then if others = [] then none else some (.ofLine (others.length + 1) rest)
    else c.locks[s']?
  nextSlot : c'.nextSlot = c.nextSlot

/-- `leave` looks at the number of handles to find out whether anybody else is there. -/
theorem Balanced.left_leave (h : c.Balanced grip line) {rest : List Nat}
    (hi : grip i = some (id, s)) (hfirst : line id = i :: rest) :
    ∃ others, Left c grip i id s rest others (c.leave id s) := by
  have hslot := h.registered hi
  obtain ⟨holders, -, hnodup, hmem, hlock⟩ := h.counted hslot
  have hlength : holders.length = (holders.erase i).length + 1 := by
    rw [List.length_erase_of_mem ((hmem i).mpr hi)]
    have := List.length_pos_of_mem ((hmem i).mpr hi)
    omega
  -- First the lock is given back, with one handle less and without the first in the line.
  have hreleased : ∀ s' : Nat, (c.locks.modify s SharedLock.release)[s']? =
      if s = s' then some (.ofLine ((holders.erase i).length + 1) rest) else c.locks[s']? := by
    intro s'
    rw [locks_modify]
    split
    next hs =>
      rw [← hs, hlock, hlength, hfirst, Option.map_some, SharedLock.release_ofLine]
    next => rfl
  -- Then the slot is dropped if the gate's own handle is the only one left.
  have hleave : c.leave id s =
      if holders.erase i = [] then
        { c with
          slots := c.slots.erase id
          locks := (c.locks.modify s SharedLock.release).erase s }
      else { c with locks := c.locks.modify s SharedLock.release } := by
    have hone : (c.locks.modify s SharedLock.release)[s]?.map (·.handles) = some 1 ↔
        holders.erase i = [] := by
      rw [hreleased, if_pos rfl, Option.map_some, Option.some.injEq,
        ← List.length_eq_zero_iff]
      exact Nat.add_eq_right
    simp only [CountedGate.leave, hslot, hone]
  have hothers : ∀ j, j ∈ holders.erase i ↔ j ≠ i ∧ grip j = some (id, s) := by
    intro j
    rw [hnodup.mem_erase_iff, hmem]
  rw [hleave]
  refine ⟨holders.erase i, ?_⟩
  by_cases hnobody : holders.erase i = []
  · rw [if_pos hnobody]
    refine ⟨hnodup.erase i, hothers, fun id' => ?_, fun s' => ?_, rfl⟩
    · simp [ExtTreeMap.getElem?_erase, hnobody]
    · simp only [ExtTreeMap.getElem?_erase, Std.compare_eq_iff_eq, hreleased, hnobody]
      split <;> simp [*]
  · rw [if_neg hnobody]
    refine ⟨hnodup.erase i, hothers, fun id' => ?_, fun s' => ?_, rfl⟩
    · rw [if_neg fun hid => hnobody hid.2]
    · rw [if_neg hnobody]
      exact hreleased s'

namespace Left

variable {rest others : List Nat}

/-- The slots in what is `Left` were there before. -/
theorem slots_of_some (hleft : Left c grip i id s rest others c') {s' : Nat}
    (hs' : c'.slots[id']? = some s') : c.slots[id']? = some s' := by
  rw [hleft.slots] at hs'
  split at hs'
  · cases hs'
  · exact hs'

theorem registered (hleft : Left c grip i id s rest others c') (h : c.Balanced grip line)
    (hi : grip i = some (id, s)) (hgrip : ∀ j, grip' j = if i = j then none else grip j) {s' : Nat}
    (hj : grip' j = some (id', s')) : c'.slots[id']? = some s' := by
  rw [hgrip] at hj
  split at hj
  next => cases hj
  next hij =>
    rw [hleft.slots, if_neg]
    · exact h.registered hj
    · -- Somebody else is there for the identifier, so its slot was not dropped.
      rintro ⟨rfl, hnobody⟩
      have hs : s = s' := Option.some.inj ((h.registered hi).symm.trans (h.registered hj))
      have hmem : j ∈ others := (hleft.mem_iff j).mpr ⟨Ne.symm hij, hs ▸ hj⟩
      rw [hnobody] at hmem
      cases hmem

/-- The lock of the one who leaves is `Shared` by the others who are there. -/
theorem shared (hleft : Left c grip i id s rest others c')
    (hgrip : ∀ j, grip' j = if i = j then none else grip j) (hline : line' id = rest)
    (hothers : others ≠ []) : c'.Shared grip' line' id s := by
  refine ⟨others, hothers, hleft.nodup, fun j => ?_, ?_⟩
  · rw [hleft.mem_iff, hgrip]
    by_cases hij : i = j
    · simp [hij]
    · simp [hij, Ne.symm hij]
  · rw [hleft.locks, if_pos rfl, if_neg hothers, hline]

theorem counted (hleft : Left c grip i id s rest others c') (h : c.Balanced grip line)
    (hi : grip i = some (id, s)) (hgrip : ∀ j, grip' j = if i = j then none else grip j)
    (hline : ∀ id', line' id' = if id = id' then rest else line id') {s' : Nat}
    (hs' : c'.slots[id']? = some s') : c'.Shared grip' line' id' s' := by
  have hslot := h.registered hi
  have hs := hleft.slots_of_some hs'
  by_cases hid : id = id'
  · subst hid
    obtain rfl : s = s' := Option.some.inj (hslot.symm.trans hs)
    refine hleft.shared hgrip (by rw [hline, if_pos rfl]) fun hnobody => ?_
    -- A slot that nobody has a handle of is dropped.
    rw [hleft.slots, if_pos ⟨rfl, hnobody⟩] at hs'
    cases hs'
  · have hne : s ≠ s' := fun hss => hid (h.apart hslot (hss ▸ hs))
    refine (h.counted hs).congr ?_ (grip_iff_of_ne hgrip ?_ nofun) ?_
    · rw [hleft.locks, if_neg hne]
    · rw [hi]
      intro heq
      exact hid (Prod.mk.inj (Option.some.inj heq)).1
    · rw [hline, if_neg hid]

theorem known (hleft : Left c grip i id s rest others c') (h : c.Balanced grip line)
    (hi : grip i = some (id, s)) {s' : Nat} {l : SharedLock} (hlock : c'.locks[s']? = some l) :
    ∃ id' : String, c'.slots[id']? = some s' := by
  have hslot := h.registered hi
  rw [hleft.locks] at hlock
  split at hlock
  next hs =>
    split at hlock
    next => cases hlock
    next hothers => exact ⟨id, by rw [hleft.slots, if_neg fun h => hothers h.2, hslot, hs]⟩
  next hs =>
    obtain ⟨id', hid'⟩ := h.known hlock
    refine ⟨id', ?_⟩
    rwa [hleft.slots, if_neg]
    rintro ⟨rfl, -⟩
    exact hs (Option.some.inj (hslot.symm.trans hid'))

end Left

/-- Those who still stand in a line when one has left are there, with their grip. -/
theorem Balanced.standing_leave (h : c.Balanced grip line) {rest : List Nat}
    (hi : grip i = some (id, s)) (hfirst : line id = i :: rest)
    (hgrip : ∀ j, grip' j = if i = j then none else grip j)
    (hline : ∀ id', line' id' = if id = id' then rest else line id') (hj : j ∈ line' id') :
    ∃ s', grip' j = some (id', s') := by
  obtain ⟨hnot, -⟩ := List.nodup_cons.mp (hfirst ▸ h.nodup id)
  rw [hline] at hj
  split at hj
  next hid =>
    subst hid
    obtain ⟨s', hs'⟩ := h.standing (hfirst ▸ List.mem_cons_of_mem i hj)
    have hij : i ≠ j := fun hij => hnot (hij ▸ hj)
    exact ⟨s', by rw [hgrip, if_neg hij, hs']⟩
  next hid =>
    obtain ⟨s', hs'⟩ := h.standing hj
    -- Whoever leaves has asked for its own identifier alone.
    have hij : i ≠ j := by
      rintro rfl
      exact hid (Prod.mk.inj (Option.some.inj (hi.symm.trans hs'))).1
    exact ⟨s', by rw [hgrip, if_neg hij, hs']⟩

/-- `leave` keeps the balance: the first in the line leaves. -/
theorem Balanced.leave (h : c.Balanced grip line) {rest : List Nat} (hi : grip i = some (id, s))
    (hfirst : line id = i :: rest) (hgrip : ∀ j, grip' j = if i = j then none else grip j)
    (hline : ∀ id', line' id' = if id = id' then rest else line id') :
    (c.leave id s).Balanced grip' line' := by
  obtain ⟨others, hleft⟩ := h.left_leave hi hfirst
  exact {
    registered := hleft.registered h hi hgrip
    counted := hleft.counted h hi hgrip hline
    standing := h.standing_leave hi hfirst hgrip hline
    nodup := by
      intro id'
      rw [hline]
      split
      · exact (List.nodup_cons.mp (hfirst ▸ h.nodup id)).2
      · exact h.nodup id'
    known := hleft.known h hi
    fresh := by
      intro id' s' hs'
      rw [hleft.nextSlot]
      exact h.fresh (hleft.slots_of_some hs')
    apart := fun hs' hs'' => h.apart (hleft.slots_of_some hs') (hleft.slots_of_some hs'') }

end CountedGate
end InventorySync
