import InventorySync.Proofs.Members

/-!
# Paths into a value

A path goes through members of objects and items of arrays. A member is taken out at the end of a
path of names, and then every look-up along a path that does not meet that one finds what it found
before.

## Key results

- `Json.at?_without_self`: nothing is left where a member was taken out
- `Json.at?_without`: everything else is as it was, at every depth
- `Json.without_cons_insert`: taking out below a member changes that member alone
-/

namespace InventorySync

namespace Members

variable {ms : Members} {name key : String} {v w : Json} {f : Json → Json}

/-! ## Members changed in place -/

/-- The members with the value under a name changed. -/
def modify (name : String) (f : Json → Json) (ms : Members) : Members :=
  ms.map fun m => (m.1, if m.1 = name then f m.2 else m.2)

theorem get?_modify (name : String) (f : Json → Json) (ms : Members) (key : String) :
    get? (modify name f ms) key =
      if key = name then (get? ms key).map f else get? ms key := by
  induction ms with
  | nil => simp [modify]
  | cons m ms ih =>
    obtain ⟨k, v⟩ := m
    unfold modify at ih ⊢
    rw [List.map_cons, get?_cons, get?_cons, ih]
    by_cases hkey : key = k
    · subst hkey
      by_cases hname : key = name <;> simp [hname]
    · simp [hkey]

theorem names_modify (name : String) (f : Json → Json) (ms : Members) :
    names (modify name f ms) = names ms := by
  simp [names, modify, Function.comp_def]

theorem sorted_iff_names : Sorted ms ↔ (names ms).Pairwise (· < ·) := by
  rw [Sorted, names, List.pairwise_map]

theorem sorted_modify (name : String) (f : Json → Json) (h : Sorted ms) :
    Sorted (modify name f ms) := by
  rw [sorted_iff_names, names_modify]
  exact sorted_iff_names.mp h

/-! ## A member put in twice, put back, or taken out again -/

theorem insert_insert (name : String) (v w : Json) (ms : Members) :
    insert name w (insert name v ms) = insert name w ms := by
  induction ms with
  | nil => simp [insert]
  | cons m ms ih =>
    obtain ⟨k, u⟩ := m
    by_cases hsame : name = k
    · simp [insert, hsame]
    · by_cases hlt : name < k
      · simp [insert, hsame, hlt]
      · simp [insert, hsame, hlt, ih]

theorem insert_of_get? (h : Sorted ms) (hfound : get? ms name = some v) :
    insert name v ms = ms := by
  apply ext_of_sorted (sorted_insert name v h) h
  intro key
  rw [get?_insert]
  split
  next hkey => rw [hkey, hfound]
  next => rfl

theorem erase_insert (name : String) (v : Json) (ms : Members) :
    erase (insert name v ms) name = erase ms name := by
  induction ms with
  | nil => simp [insert, erase]
  | cons m ms ih =>
    obtain ⟨k, u⟩ := m
    unfold erase at ih ⊢
    by_cases hsame : name = k
    · simp [insert, hsame]
    · by_cases hlt : name < k
      · simp [insert, hsame, hlt]
      · rw [insert, if_neg hsame, if_neg hlt, List.filter_cons, List.filter_cons, ih]

theorem modify_insert (h : Sorted ms) (name : String) (f : Json → Json) (v : Json) :
    modify name f (insert name v ms) = insert name (f v) ms := by
  apply ext_of_sorted (sorted_modify name f (sorted_insert name v h)) (sorted_insert name _ h)
  intro key
  rw [get?_modify, get?_insert, get?_insert]
  split <;> rfl

theorem modify_of_get?_eq_none (f : Json → Json) (hmissing : get? ms name = none) :
    modify name f ms = ms := by
  unfold modify
  nth_rewrite 2 [← List.map_id ms]
  apply List.map_congr_left
  intro m hm
  have hother : m.1 ≠ name := by
    rintro rfl
    exact get?_eq_none_iff.mp hmissing (List.mem_map_of_mem hm)
  simp [hother]

end Members

namespace Json

/-! ## Paths -/

/-- A step into a value. -/
inductive Step where
  | member (name : String)
  | item (place : Nat)
deriving DecidableEq, Repr

/-- A way into a value, step by step. -/
abbrev Path := List Step

instance : Coe String Step := ⟨.member⟩

/-- What stands at the end of a path. -/
def at? : Json → Path → Option Json
  | v, [] => some v
  | .object ms, .member name :: rest => (Members.get? ms name).bind fun v => v.at? rest
  | .array items, .item place :: rest => items[place]?.bind fun v => v.at? rest
  | _, _ :: _ => none

/-- A value without the member at the end of a path of names. -/
def without : Json → List String → Json
  | .object ms, [name] => .object (Members.erase ms name)
  | .object ms, name :: next :: rest =>
    .object (Members.modify name (fun v => v.without (next :: rest)) ms)
  | v, _ => v

/-- Neither path leads to the other one's end. -/
def Apart (p q : Path) : Prop := ¬ p <+: q ∧ ¬ q <+: p

instance (p q : Path) : Decidable (Apart p q) := inferInstanceAs (Decidable (_ ∧ _))

theorem at?_append (v : Json) (p q : Path) : v.at? (p ++ q) = (v.at? p).bind (·.at? q) := by
  induction p generalizing v with
  | nil => simp [at?]
  | cons step p ih =>
    cases v with
    | object ms =>
      cases step with
      | member name => simp only [List.cons_append, at?, Option.bind_assoc, ih]
      | item place => rfl
    | array items =>
      cases step with
      | member name => rfl
      | item place => simp only [List.cons_append, at?, Option.bind_assoc, ih]
    | _ => cases step <;> rfl

theorem at?_member (ms : Members) (name : String) :
    (Json.object ms).at? [.member name] = Members.get? ms name := by
  rw [at?]
  cases Members.get? ms name <;> rfl

theorem at?_member_cons (ms : Members) (name : String) (rest : Path) :
    (Json.object ms).at? (.member name :: rest) =
      (Members.get? ms name).bind (·.at? rest) := rfl

/-- At a path that `without` took out, `at?` finds nothing. -/
theorem at?_without_self (v : Json) (name : String) (names : List String) :
    (v.without (name :: names)).at? ((name :: names).map .member) = none := by
  induction names generalizing v name with
  | nil => cases v <;> simp [without, at?]
  | cons next names ih =>
    cases v with
    | object ms =>
      rw [without, List.map_cons, at?, Members.get?_modify, if_pos rfl]
      cases Members.get? ms name with
      | none => rfl
      | some w => exact ih w next
    | _ => rfl

/-- Everything apart from the path that `without` takes out is as it was, at every depth. -/
theorem at?_without (v : Json) {names : List String} {path : Path}
    (h : Apart path (names.map .member)) : (v.without names).at? path = v.at? path := by
  induction names generalizing v path with
  | nil => exact absurd List.nil_prefix h.2
  | cons name names ih =>
    cases path with
    | nil => exact absurd List.nil_prefix h.1
    | cons step path =>
      cases v with
      | object ms =>
        cases step with
        | item place => cases names <;> rfl
        | member key =>
          by_cases hkey : key = name
          · subst hkey
            -- The paths take the same step, and part later.
            have hlater : Apart path (names.map .member) := by
              simpa [Apart, List.cons_prefix_cons] using h
            cases names with
            | nil => exact absurd List.nil_prefix hlater.2
            | cons next names =>
              rw [without, at?, at?, Members.get?_modify, if_pos rfl]
              cases Members.get? ms key with
              | none => rfl
              | some w => exact ih w hlater
          · cases names with
            | nil => rw [without, at?, at?, Members.get?_erase, if_neg hkey]
            | cons next names => rw [without, at?, at?, Members.get?_modify, if_neg hkey]
      | _ => cases names <;> rfl

/-- Taking out below a member changes what `Members.insert` put under that name, and this member
alone. -/
theorem without_cons_insert {ms : Members} (h : Members.Sorted ms) (name next : String)
    (rest : List String) (v : Json) :
    (Json.object (Members.insert name v ms)).without (name :: next :: rest) =
      .object (Members.insert name (v.without (next :: rest)) ms) := by
  rw [without, Members.modify_insert h]

theorem without_cons_of_get? {ms : Members} (h : Members.Sorted ms) {name : String} {v : Json}
    (hfound : Members.get? ms name = some v) (next : String) (rest : List String) :
    (Json.object ms).without (name :: next :: rest) =
      .object (Members.insert name (v.without (next :: rest)) ms) := by
  conv_lhs => rw [← Members.insert_of_get? h hfound]
  exact without_cons_insert h name next rest v

/-- Below a member that `Members.get?` does not find, `without` takes nothing out. -/
theorem without_cons_of_missing {ms : Members} {name : String}
    (hmissing : Members.get? ms name = none) (next : String) (rest : List String) :
    (Json.object ms).without (name :: next :: rest) = .object ms := by
  rw [without, Members.modify_of_get?_eq_none _ hmissing]

end Json
end InventorySync
