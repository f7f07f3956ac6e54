import InventorySync.Proofs.Gate

/-!
# Lines of identifiers

Every identifier has one line, whatever slots it has had: whoever asks for it comes to the end of
the line, and whoever leaves goes out of it. An identifier has a slot while somebody is in its
line.

## Key results

- `Tracks.queue_enter`, `Tracks.queue_leave`: what happens to the line of an identifier
- `Tidy.enter`, `Tidy.leave`: a slot in use has somebody in its line
- `Tidy.eq_empty`: with nobody there, there is nothing
-/

namespace InventorySync.SendGate

variable {g : SendGate} {here : Visit → Prop}

/-! ## Who is in line -/

/-- Who stands in line for an identifier, the one who has the gate first. -/
def queue (g : SendGate) (id : String) : List Nat := (g.slots[id]?.map g.line).getD []

theorem Tracks.queue_eq (hg : g.Tracks here) {v : Visit} (hv : here v) :
    g.queue v.identifier = g.line v.slot := by
  rw [queue, hg.registered hv]
  rfl

/-- Those stand in the `queue` of an identifier who are `here` for it. -/
theorem Tracks.mem_queue_iff (hg : g.Tracks here) {id : String} {i : Nat} :
    i ∈ g.queue id ↔ ∃ v, here v ∧ v.identifier = id ∧ v.visitor = i := by
  constructor
  · intro h
    unfold queue at h
    cases hslot : g.slots[id]? with
    | none =>
      rw [hslot] at h
      cases h
    | some slot =>
      rw [hslot] at h
      obtain ⟨v, hv, rfl, hvis⟩ := hg.known h
      exact ⟨v, hv, hg.apart (hg.registered hv) hslot, hvis⟩
  · rintro ⟨v, hv, rfl, rfl⟩
    rw [hg.queue_eq hv]
    exact hg.standing hv

theorem Tracks.admits_iff (hg : g.Tracks here) {v : Visit} (hv : here v) :
    g.admits v = true ↔ (g.queue v.identifier).head? = some v.visitor := by
  rw [hg.queue_eq hv, admits, holder?, beq_iff_eq]

theorem Tracks.queue_enter (hg : g.Tracks here) (id : String) (i : Nat) (id' : String) :
    (g.enter id i).2.queue id' = if id = id' then g.queue id' ++ [i] else g.queue id' := by
  unfold queue
  rw [slots_enter]
  by_cases hid : id = id'
  · subst hid
    rw [if_pos rfl, if_pos rfl, Option.map_some, Option.getD_some, line_enter hg, if_pos rfl]
    rcases slot_enter g id i with h | ⟨h, hnew⟩
    · rw [h]
      rfl
    · rw [h, hnew, hg.line_nextSlot]
      rfl
  · rw [if_neg hid, if_neg hid]
    cases hslot : g.slots[id']? with
    | none => rfl
    | some slot =>
      -- The slot that is entered belongs to the other identifier, or to none so far.
      have hne : (g.enter id i).1.slot ≠ slot := by
        intro hsame
        rcases slot_enter g id i with h | ⟨-, hnew⟩
        · exact hid (hg.apart h (hsame ▸ hslot))
        · have := hg.fresh hslot
          omega
      show (g.enter id i).2.line slot = g.line slot
      rw [line_enter hg, if_neg hne]

theorem Tracks.queue_leave (hg : g.Tracks here) {v : Visit} (hv : here v) (id : String) :
    (g.leave v).2.queue id =
      if v.identifier = id then (g.queue id).erase v.visitor else g.queue id := by
  have hslot := hg.registered hv
  unfold queue
  rw [slots_leave hslot]
  by_cases hid : v.identifier = id
  · subst hid
    rw [if_pos rfl, hslot]
    by_cases hempty : (g.line v.slot).erase v.visitor = []
    · rw [if_pos ⟨rfl, hempty⟩]
      exact hempty.symm
    · rw [if_neg fun h => hempty h.2]
      show (g.leave v).2.line v.slot = (g.line v.slot).erase v.visitor
      rw [line_leave, if_pos rfl]
  · rw [if_neg fun h => hid h.1, if_neg hid]
    cases hother : g.slots[id]? with
    | none => rfl
    | some slot =>
      show (g.leave v).2.line slot = g.line slot
      rw [line_leave, if_neg fun hsame : v.slot = slot => hid (hg.apart hslot (hsame ▸ hother))]

/-! ## Slots in use -/

theorem lines_enter (hg : g.Tracks here) (id : String) (i s : Nat) :
    (g.enter id i).2.lines[s]? =
      if (g.enter id i).1.slot = s then some (g.line s ++ [i]) else g.lines[s]? := by
  have hnew := hg.line_nextSlot
  unfold enter
  split
  next slot h =>
    simp only [Std.ExtTreeMap.getElem?_insert, Std.compare_eq_iff_eq]
    split
    next hs => rw [hs]
    next => rfl
  next h =>
    simp only [Std.ExtTreeMap.getElem?_insert, Std.compare_eq_iff_eq]
    split
    next hs => rw [← hs, hnew]; rfl
    next => rfl

theorem lines_leave (g : SendGate) (v : Visit) (s : Nat) :
    (g.leave v).2.lines[s]? =
      if v.slot = s then
        if (g.line s).erase v.visitor = [] then none else some ((g.line s).erase v.visitor)
      else g.lines[s]? := by
  simp only [leave, List.isEmpty_iff]
  by_cases hs : v.slot = s
  · subst hs
    rw [if_pos rfl]
    split
    · exact Std.ExtTreeMap.getElem?_erase_self
    · exact Std.ExtTreeMap.getElem?_insert_self
  · rw [if_neg hs]
    split <;> simp [Std.ExtTreeMap.getElem?_erase, Std.ExtTreeMap.getElem?_insert, hs]

/-- A line in `lines` has somebody in it, and so has the line of every slot in `slots`. -/
structure Tidy (g : SendGate) : Prop where
  kept : ∀ {s : Nat} {line : List Nat}, g.lines[s]? = some line → line ≠ []
  used : ∀ {id : String} {s : Nat}, g.slots[id]? = some s → g.line s ≠ []

theorem tidy_empty : empty.Tidy where
  kept h := by simp [empty] at h
  used h := by simp [empty] at h

theorem Tidy.enter (hg : g.Tidy) (ht : g.Tracks here) (id : String) (i : Nat) :
    (g.enter id i).2.Tidy where
  kept := by
    intro s line h
    rw [lines_enter ht] at h
    split at h
    · rw [← Option.some.inj h]
      simp
    · exact hg.kept h
  used := by
    intro id' s h
    rw [line_enter ht]
    split
    next => simp
    next hs =>
      rw [slots_enter] at h
      split at h
      · exact absurd (Option.some.inj h) hs
      · exact hg.used h

theorem Tidy.leave (hg : g.Tidy) {v : Visit} (hv : g.slots[v.identifier]? = some v.slot)
    (apart : ∀ {id}, g.slots[id]? = some v.slot → v.identifier = id) : (g.leave v).2.Tidy where
  kept := by
    intro s line h
    rw [lines_leave] at h
    split at h
    · split at h
      · cases h
      next hrest => rwa [← Option.some.inj h]
    · exact hg.kept h
  used := by
    intro id s h
    rw [slots_leave hv] at h
    rw [line_leave]
    split at h
    · cases h
    next hkeep =>
      split
      next hs =>
        -- The slot is still there, so somebody is left in its line.
        subst hs
        exact fun hempty => hkeep ⟨apart h, hempty⟩
      next => exact hg.used h

/-- In a gate that is `Tidy` an identifier has a slot while somebody is in its `queue`. -/
theorem Tidy.slots_ne_none_iff (hg : g.Tidy) (id : String) :
    g.slots[id]? ≠ none ↔ g.queue id ≠ [] := by
  unfold queue
  cases hslot : g.slots[id]? with
  | none => simp
  | some slot => simpa using hg.used hslot

/-- A gate that is `Tidy` has nothing in it when nobody is `here`. -/
theorem Tidy.eq_empty (hg : g.Tidy) (ht : g.Tracks here) (nobody : ∀ v, ¬ here v) :
    g.slots = ∅ ∧ g.lines = ∅ := by
  constructor
  · refine Std.ExtTreeMap.ext_getElem? fun id => ?_
    rw [Std.ExtTreeMap.getElem?_empty]
    by_contra hslot
    obtain ⟨i, hi⟩ := List.exists_mem_of_ne_nil _ ((hg.slots_ne_none_iff id).mp hslot)
    obtain ⟨v, hv, -⟩ := ht.mem_queue_iff.mp hi
    exact nobody v hv
  · refine Std.ExtTreeMap.ext_getElem? fun s => ?_
    rw [Std.ExtTreeMap.getElem?_empty]
    by_contra hline
    obtain ⟨line, hline⟩ := Option.ne_none_iff_exists'.mp hline
    obtain ⟨i, hi⟩ := List.exists_mem_of_ne_nil _ (hg.kept hline)
    have hmem : i ∈ g.line s := by rwa [SendGate.line, hline, Option.getD_some]
    obtain ⟨v, hv, -⟩ := ht.known hmem
    exact nobody v hv

end InventorySync.SendGate
