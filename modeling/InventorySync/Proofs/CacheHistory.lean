import InventorySync.Proofs.Cache
import InventorySync.Proofs.Commands
import Mathlib.Data.List.Induction
import Mathlib.Data.String.Basic

/-!
# What the cache remembers of its history

Everything that a cache answers can be read off the commands that it was given: the hash of an
identifier off the last command that stored or dropped it, the window off the last command that
opened or closed it, and whether an identifier counts as seen off what happened to it since the last
fresh start or the end of the last window.

## Key results

- `seenIn_concat`: what one more command does to what counts as seen
- `Recalls`: a cache and the commands that it was given; every command keeps this
  (`Recalls.answer`)
- `answer_exchange`: commands about two identifiers do not notice each other
- `cache_follows_history`: any commands, from a new cache
-/

namespace InventorySync

/-! ## Commands -/

/-- What can be asked of a cache; `ChangeCache.answer` carries it out. -/
inductive CacheCommand where
  | init (remote : List (String × String))
  | check (id hash : String)
  | mark (id : String)
  | update (id hash : String)
  | forget (id : String)
  | openWindow
  | closeWindow
deriving DecidableEq, Repr

/-- What comes back of a `CacheCommand`: whether an identifier has to be sent, whether it was known,
or how many were seen. -/
inductive CacheAnswer where
  | done
  | needed (yes : Bool)
  | known (yes : Bool)
  | seen (count : Nat)
deriving DecidableEq, Repr

/-- The cache carries a command out. -/
def ChangeCache.answer (c : ChangeCache) : CacheCommand → CacheAnswer × ChangeCache
  | .init remote => (.done, c.init remote)
  | .check id hash => (.needed (c.needsUpdate id hash), c)
  | .mark id => (.done, c.markActive id)
  | .update id hash => (.done, c.updateHash id hash)
  | .forget id => (.known (c.get? id).isSome, c.forget id)
  | .openWindow => (.done, c.openWindow)
  | .closeWindow => (.seen c.activeCount, c.closeWindow)

namespace CacheCommand

/-- What the command leaves of an identifier, if it stores or drops it: of the pairs of a fresh
start the last one counts. -/
def stores? (id : String) : CacheCommand → Option (Option String)
  | .init remote => some (remote.reverse.lookup id)
  | .update id' hash => if id' = id then some (some hash) else none
  | .forget id' => if id' = id then some none else none
  | .check .. | .mark _ | .openWindow | .closeWindow => none

/-- Whether a window is open afterwards, if the command opens or closes it. -/
def opens? : CacheCommand → Option Bool
  | .openWindow => some true
  | .closeWindow => some false
  | .init _ | .check .. | .mark _ | .update .. | .forget _ => none

/-- Whether whatever was seen no longer counts. -/
def startsOver : CacheCommand → Bool
  | .init _ | .closeWindow => true
  | .check .. | .mark _ | .update .. | .forget _ | .openWindow => false

/-- The one identifier that the command is about. -/
def identifier? : CacheCommand → Option String
  | .check id _ | .mark id | .update id _ | .forget id => some id
  | .init _ | .openWindow | .closeWindow => none

/-- Two commands about different identifiers. -/
def Apart (x y : CacheCommand) : Prop :=
  ∃ id id', x.identifier? = some id ∧ y.identifier? = some id' ∧ id ≠ id'

end CacheCommand

/-! ## The history -/

section History

open CacheCommand

/-- The hash that the last command to store or drop the identifier has left. -/
def lastStored (past : List CacheCommand) (id : String) : Option String :=
  (past.reverse.findSome? (stores? id)).join

/-- Whether a window is open after the commands. -/
def windowAfter (past : List CacheCommand) : Bool := (past.reverse.findSome? opens?).getD false

/-- Whether a command, given after the others, is a sign of the identifier: with a window open it is
updated, or it is marked while it is known. -/
def IsSign (past : List CacheCommand) (id : String) (c : CacheCommand) : Prop :=
  windowAfter past = true ∧
    ((∃ hash, c = .update id hash) ∨ (c = .mark id ∧ (lastStored past id).isSome = true))

/-- Whether there was a sign of the identifier since the last fresh start or end of a window. -/
def SeenIn (past : List CacheCommand) (id : String) : Prop :=
  ∃ before c after, past = before ++ c :: after ∧ IsSign before id c ∧
    ∀ later ∈ after, later.startsOver = false

theorem lastStored_concat (past : List CacheCommand) (c : CacheCommand) (id : String) :
    lastStored (past ++ [c]) id = (c.stores? id).getD (lastStored past id) := by
  unfold lastStored
  rw [List.reverse_append, List.reverse_singleton, List.singleton_append, List.findSome?_cons]
  cases c.stores? id <;> rfl

theorem windowAfter_concat (past : List CacheCommand) (c : CacheCommand) :
    windowAfter (past ++ [c]) = c.opens?.getD (windowAfter past) := by
  unfold windowAfter
  rw [List.reverse_append, List.reverse_singleton, List.singleton_append, List.findSome?_cons]
  cases c.opens? <;> rfl

/-- After one more command an identifier is `SeenIn` the history if the command `IsSign` of it, or
if it was before and the command does not start over. -/
theorem seenIn_concat (past : List CacheCommand) (c : CacheCommand) (id : String) :
    SeenIn (past ++ [c]) id ↔ IsSign past id c ∨ (c.startsOver = false ∧ SeenIn past id) := by
  constructor
  · intro ⟨before, sign, after, hsplit, hsign, hlater⟩
    -- The sign is the last command, or the last command comes after it.
    cases after.eq_nil_or_concat with
    | inl hnil =>
      subst hnil
      obtain ⟨hpast, hc⟩ := List.append_inj' hsplit rfl
      left
      rw [hpast, List.singleton_inj.mp hc]
      exact hsign
    | inr hconcat =>
      obtain ⟨front, last, rfl⟩ := hconcat
      have hsplit' : past ++ [c] = (before ++ sign :: front) ++ [last] := by simpa using hsplit
      obtain ⟨hpast, hc⟩ := List.append_inj' hsplit' rfl
      have hlast : c = last := List.singleton_inj.mp hc
      right
      constructor
      · rw [hlast]
        exact hlater last (by simp)
      · exact ⟨before, sign, front, hpast, hsign, fun later h => hlater later (by simp [h])⟩
  -- A sign stays one as long as nothing starts over after it.
  · intro h
    cases h with
    | inl hsign => exact ⟨past, c, [], rfl, hsign, by simp⟩
    | inr hearlier =>
      obtain ⟨hgoes, before, sign, after, rfl, hsign, hlater⟩ := hearlier
      refine ⟨before, sign, after ++ [c], by simp, hsign, ?_⟩
      intro later hmem
      cases List.mem_append.mp hmem with
      | inl hin => exact hlater later hin
      | inr hlast => rw [List.mem_singleton.mp hlast]; exact hgoes

/-- What is `SeenIn` the history was seen in the window that is still open, `windowAfter`. -/
theorem windowAfter_of_seenIn {past : List CacheCommand} {id : String} (h : SeenIn past id) :
    windowAfter past = true := by
  -- From the end: a sign needs an open window, and what closes one starts over.
  induction past using List.reverseRecOn with
  | nil =>
    obtain ⟨before, sign, after, hsplit, -⟩ := h
    simp at hsplit
  | append_singleton past c ih =>
    rw [windowAfter_concat]
    cases (seenIn_concat past c id).mp h with
    | inl hsign =>
      obtain ⟨hopen, hupdate | hmark⟩ := hsign
      · obtain ⟨hash, rfl⟩ := hupdate
        exact hopen
      · rw [hmark.1]
        exact hopen
    | inr hearlier =>
      obtain ⟨hgoes, hseen⟩ := hearlier
      have hopen := ih hseen
      cases c with
      | closeWindow => cases hgoes
      | openWindow => rfl
      | init _ | check _ _ | mark _ | update _ _ | forget _ => exact hopen

end History

/-! ## Seen identifiers -/

namespace ChangeCache

variable (c : ChangeCache)

/-- Whether an identifier is known and was seen. -/
def isActive (id : String) : Bool := (c.get? id).any (·.active)

theorem isSome_hash? (id : String) : (c.hash? id).isSome = (c.get? id).isSome :=
  Option.isSome_map

theorem isActive_init (remote : List (String × String)) (id : String) :
    (c.init remote).isActive id = false := by
  rw [isActive, get?_init]
  cases remote.reverse.lookup id <;> rfl

theorem isActive_markActive (id id' : String) :
    (c.markActive id).isActive id' =
      (c.isActive id' || (c.windowOpen && decide (id = id') && (c.hash? id').isSome)) := by
  rw [isActive, isActive, get?_markActive, hash?]
  cases c.get? id' with
  | none => simp
  | some e =>
    by_cases h : c.windowOpen = true ∧ id = id'
    · simp [h]
    · have hunmarked : (c.windowOpen && decide (id = id')) = false := by simpa using h
      simp [h, hunmarked]

theorem isActive_updateHash (id hash id' : String) :
    (c.updateHash id hash).isActive id' = if id = id' then c.windowOpen else c.isActive id' := by
  rw [isActive, get?_updateHash]
  split <;> rfl

theorem isActive_forget (id id' : String) :
    (c.forget id).isActive id' = if id = id' then false else c.isActive id' := by
  rw [isActive, get?_forget]
  split <;> rfl

theorem isActive_closeWindow (id : String) : c.closeWindow.isActive id = false := by
  rw [isActive, get?_closeWindow]
  cases c.get? id <;> rfl

theorem mem_inactive_iff_isActive (id : String) :
    id ∈ c.inactive ↔ (c.hash? id).isSome = true ∧ c.isActive id = false := by
  rw [mem_inactive_iff, isSome_hash?, isActive]
  cases c.get? id <;> simp

theorem pairwise_inactive : c.inactive.Pairwise (· < ·) :=
  Std.ExtTreeMap.ordered_keys.imp compare_lt_iff_lt.mp

/-- `activeCount` counts every identifier that `isActive` once. -/
theorem activeCount_eq :
    ∃ seen : List String, seen.Nodup ∧ (∀ id, id ∈ seen ↔ c.isActive id = true) ∧
      c.activeCount = seen.length := by
  let seen := c.entries.filter fun _ e => e.active
  refine ⟨seen.keys, Std.ExtTreeMap.nodup_keys, ?_, Std.ExtTreeMap.length_keys.symm⟩
  intro id
  rw [Std.ExtTreeMap.mem_keys, Std.ExtTreeMap.mem_iff_isSome_getElem?,
    Std.ExtTreeMap.getElem?_filter', isActive, get?]
  cases c.entries[id]? with
  | none => simp
  | some e => cases h : e.active <;> simp [Option.filter, h]

theorem needsUpdate_eq (id hash : String) :
    c.needsUpdate id hash = decide (c.hash? id ≠ some hash) := by
  have hiff := c.needsUpdate_eq_false_iff id hash
  cases h : c.needsUpdate id hash with
  | false => simp [hiff.mp h]
  | true =>
    have hne : c.hash? id ≠ some hash := fun heq => by simp [hiff.mpr heq] at h
    simp [hne]

theorem hash?_init_eq (remote : List (String × String)) (id : String) :
    (c.init remote).hash? id = remote.reverse.lookup id := by
  rw [hash?, get?_init, Option.map_map]
  exact Option.map_id_apply

/-! ## The cache and its history -/

/-- What a cache has is what its commands have left: its window, its hashes and its marks are those
of the history. -/
structure Recalls (past : List CacheCommand) : Prop where
  hash? : ∀ id, c.hash? id = lastStored past id
  windowOpen : c.windowOpen = windowAfter past
  isActive : ∀ id, c.isActive id = true ↔ (lastStored past id).isSome = true ∧ SeenIn past id

variable {c : ChangeCache} {past : List CacheCommand}

theorem recalls_empty : empty.Recalls [] where
  hash? _ := by simp [hash?, get?, empty, lastStored]
  windowOpen := rfl
  isActive _ := by simp [isActive, get?, empty, lastStored]

theorem Recalls.hash?_answer (h : c.Recalls past) (x : CacheCommand) (id : String) :
    (c.answer x).2.hash? id = lastStored (past ++ [x]) id := by
  rw [lastStored_concat, ← h.hash? id]
  cases x with
  | init remote => exact c.hash?_init_eq remote id
  | check _ _ => rfl
  | mark id' => exact c.hash?_markActive id' id
  | update id' hash =>
    show (c.updateHash id' hash).hash? id = _
    rw [hash?_updateHash, CacheCommand.stores?]
    split <;> rfl
  | forget id' =>
    show (c.forget id').hash? id = _
    rw [hash?_forget, CacheCommand.stores?]
    split <;> rfl
  | openWindow => rfl
  | closeWindow => exact c.hash?_closeWindow id

theorem windowOpen_answer (c : ChangeCache) (x : CacheCommand) :
    (c.answer x).2.windowOpen = x.opens?.getD c.windowOpen := by
  cases x with
  | mark id => exact c.windowOpen_markActive id
  | init _ | check _ _ | update _ _ | forget _ | openWindow | closeWindow => rfl

theorem Recalls.isActive_answer (h : c.Recalls past) (x : CacheCommand) (id : String) :
    (c.answer x).2.isActive id = true ↔
      (lastStored (past ++ [x]) id).isSome = true ∧ SeenIn (past ++ [x]) id := by
  rw [seenIn_concat, lastStored_concat]
  have hactive := h.isActive id
  -- A command is no sign, unless it is a mark or an update, and keeps the earlier ones, unless it
  -- starts over.
  cases x with
  | init remote =>
    have hgone : (c.init remote).isActive id = false := c.isActive_init remote id
    simp [answer, hgone, IsSign, CacheCommand.startsOver]
  | check _ _ =>
    simpa [answer, IsSign, CacheCommand.startsOver, CacheCommand.stores?] using hactive
  | mark id' =>
    show (c.markActive id').isActive id = true ↔ _
    rw [isActive_markActive, h.hash?, h.windowOpen, Bool.or_eq_true, hactive]
    simp only [IsSign, CacheCommand.startsOver, CacheCommand.stores?, Option.getD_none,
      Bool.and_eq_true, decide_eq_true_eq, CacheCommand.mark.injEq, reduceCtorEq, exists_false,
      false_or, true_and]
    -- A mark counts only for what is known.
    grind
  | update id' hash =>
    show (c.updateHash id' hash).isActive id = true ↔ _
    rw [isActive_updateHash, h.windowOpen]
    by_cases hid : id' = id
    · -- Whatever was seen before, the window is what decides.
      subst hid
      have hopen : SeenIn past id' → windowAfter past = true := windowAfter_of_seenIn
      simp only [IsSign, CacheCommand.startsOver, CacheCommand.stores?, if_true, Option.getD_some,
        Option.isSome_some, true_and]
      grind
    · simpa [hid, IsSign, CacheCommand.startsOver, CacheCommand.stores?] using hactive
  | forget id' =>
    show (c.forget id').isActive id = true ↔ _
    rw [isActive_forget]
    -- What was seen stays seen; but the identifier is no longer known.
    by_cases hid : id' = id
    · simp [hid, CacheCommand.stores?]
    · simpa [hid, IsSign, CacheCommand.startsOver, CacheCommand.stores?] using hactive
  | openWindow =>
    show c.isActive id = true ↔ _
    simpa [IsSign, CacheCommand.startsOver, CacheCommand.stores?] using hactive
  | closeWindow =>
    have hgone : c.closeWindow.isActive id = false := c.isActive_closeWindow id
    simp [answer, hgone, IsSign, CacheCommand.startsOver]

theorem Recalls.answer (h : c.Recalls past) (x : CacheCommand) :
    (c.answer x).2.Recalls (past ++ [x]) where
  hash? := h.hash?_answer x
  windowOpen := by rw [windowOpen_answer, windowAfter_concat, h.windowOpen]
  isActive := h.isActive_answer x

theorem recalls_run (past : List CacheCommand) :
    (runAll ChangeCache.answer .empty past).2.Recalls past := by
  induction past using List.reverseRecOn with
  | nil => exact recalls_empty
  | append_singleton past x ih =>
    rw [runAll_concat]
    exact ih.answer x

/-! ## Commands about different identifiers -/

theorem ext_get? {c d : ChangeCache} (hwindow : c.windowOpen = d.windowOpen)
    (hget : ∀ id, c.get? id = d.get? id) : c = d := by
  obtain ⟨entries, window⟩ := c
  obtain ⟨entries', window'⟩ := d
  have hentries : entries = entries' := Std.ExtTreeMap.ext_getElem? fun {id} => hget id
  rw [hentries, show window = window' from hwindow]

/-- `answer` to a command about one identifier leaves `windowOpen` alone. -/
theorem windowOpen_answer_of_identifier {x : CacheCommand} {id : String}
    (hx : x.identifier? = some id) (c : ChangeCache) :
    (c.answer x).2.windowOpen = c.windowOpen := by
  rw [windowOpen_answer]
  cases x with
  | check _ _ | mark _ | update _ _ | forget _ => rfl
  | init _ | openWindow | closeWindow => cases hx

/-- `answer` to a command about one identifier leaves the entries of others alone. -/
theorem get?_answer_of_ne {x : CacheCommand} {id id' : String} (hx : x.identifier? = some id)
    (hne : id ≠ id') (c : ChangeCache) : (c.answer x).2.get? id' = c.get? id' := by
  cases x with
  | check _ _ => rfl
  | mark _ =>
    cases hx
    exact (c.get?_markActive id id').trans (if_neg fun h => hne h.2)
  | update _ hash =>
    cases hx
    exact (c.get?_updateHash id hash id').trans (if_neg hne)
  | forget _ =>
    cases hx
    exact (c.get?_forget id id').trans (if_neg hne)
  | init _ | openWindow | closeWindow => cases hx

/-- `answer` to a command about one identifier depends on `windowOpen` and on that identifier's
entry, and so does what it leaves there. -/
theorem answer_congr {x : CacheCommand} {id : String} (hx : x.identifier? = some id)
    {c d : ChangeCache} (hwindow : c.windowOpen = d.windowOpen) (hget : c.get? id = d.get? id) :
    (c.answer x).1 = (d.answer x).1 ∧ (c.answer x).2.get? id = (d.answer x).2.get? id := by
  cases x with
  | check _ _ =>
    cases hx
    simp [answer, needsUpdate, hget]
  | mark _ =>
    cases hx
    simp [answer, get?_markActive, hget, hwindow]
  | update _ _ =>
    cases hx
    simp [answer, get?_updateHash, hwindow]
  | forget _ =>
    cases hx
    simp [answer, get?_forget, hget]
  | init _ | openWindow | closeWindow => cases hx

/-- `answer` to two commands that are `Apart` is the same in either order. -/
theorem answer_exchange {x y : CacheCommand} (apart : x.Apart y) (c : ChangeCache) :
    (c.answer x).1 = ((c.answer y).2.answer x).1 ∧ (c.answer y).1 = ((c.answer x).2.answer y).1 ∧
      ((c.answer x).2.answer y).2 = ((c.answer y).2.answer x).2 := by
  obtain ⟨id, id', hx, hy, hne⟩ := apart
  -- What the one leaves is, for the other, what was there before.
  have hafterY := answer_congr hx (windowOpen_answer_of_identifier hy c)
    (get?_answer_of_ne hy hne.symm c)
  have hafterX := answer_congr hy (windowOpen_answer_of_identifier hx c)
    (get?_answer_of_ne hx hne c)
  refine ⟨hafterY.1.symm, hafterX.1.symm, ext_get? ?_ ?_⟩
  · rw [windowOpen_answer_of_identifier hy, windowOpen_answer_of_identifier hx,
      windowOpen_answer_of_identifier hx, windowOpen_answer_of_identifier hy]
  · intro other
    -- Each of the two identifiers has what its own command leaves.
    by_cases hid : id = other
    · subst hid
      rw [get?_answer_of_ne hy hne.symm, hafterY.2]
    · by_cases hid' : id' = other
      · subst hid'
        rw [get?_answer_of_ne hx hne, hafterX.2]
      · rw [get?_answer_of_ne hy hid', get?_answer_of_ne hx hid, get?_answer_of_ne hx hid,
          get?_answer_of_ne hy hid']

/-- After `runAll` of any commands on a new cache, its state and its answers can be read off the
commands, and neighbours that are `Apart`, about different identifiers, can be exchanged. -/
theorem cache_follows_history (past : List CacheCommand) :
    let c := (runAll ChangeCache.answer .empty past).2
    (∀ id, c.hash? id = lastStored past id) ∧
    (∀ id hash, c.answer (.check id hash) =
      (.needed (decide (lastStored past id ≠ some hash)), c)) ∧
    (∀ id, c.isActive id = true ↔ (lastStored past id).isSome = true ∧ SeenIn past id) ∧
    c.windowOpen = windowAfter past ∧
    (c.windowOpen = false → ∀ id, c.isActive id = false) ∧
    c.inactive.Pairwise (· < ·) ∧
    (∀ id, id ∈ c.inactive ↔ (lastStored past id).isSome = true ∧ ¬ SeenIn past id) ∧
    (∃ seen : List String, seen.Nodup ∧ (∀ id, id ∈ seen ↔ c.isActive id = true) ∧
      (c.answer .closeWindow).1 = .seen seen.length) ∧
    (∀ x y later, x.Apart y → ∃ first a b last final, first.length = past.length ∧
      runAll ChangeCache.answer .empty (past ++ x :: y :: later) =
        (first ++ a :: b :: last, final) ∧
      runAll ChangeCache.answer .empty (past ++ y :: x :: later) =
        (first ++ b :: a :: last, final)) := by
  intro c
  have h : c.Recalls past := recalls_run past
  refine ⟨h.hash?, ?_, h.isActive, h.windowOpen, ?_, c.pairwise_inactive, ?_, ?_, ?_⟩
  · intro id hash
    show (CacheAnswer.needed (c.needsUpdate id hash), c) = _
    rw [needsUpdate_eq, h.hash?]
  · intro hclosed id
    -- What is active was seen in a window that would still be open.
    by_contra hactive
    have hseen := ((h.isActive id).mp (by simpa using hactive)).2
    rw [h.windowOpen, windowAfter_of_seenIn hseen] at hclosed
    cases hclosed
  · intro id
    rw [mem_inactive_iff_isActive, h.hash?, ← Bool.not_eq_true, h.isActive]
    tauto
  · obtain ⟨seen, hnodup, hmem, hcount⟩ := c.activeCount_eq
    exact ⟨seen, hnodup, hmem, congrArg CacheAnswer.seen hcount⟩
  · intro x y later apart
    exact runAll_exchange (fun s => answer_exchange apart s) past later

end ChangeCache

end InventorySync
