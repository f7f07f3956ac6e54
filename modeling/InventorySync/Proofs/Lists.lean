import Mathlib.Data.List.Nodup

/-!
# Lists with distinct entries, and lists cut at their beginning

A list whose entries have distinct keys is a finite map: a search by key finds the one entry that
has it, from whichever end it begins. What is dropped from the beginning of a list ends before the
first entry that has to stay.
-/

namespace InventorySync

/-- What `filter` keeps has no repetition exactly if nothing that it keeps stands in the list twice,
as `count` has it. -/
theorem nodup_filter_iff {α : Type} [DecidableEq α] (l : List α) (p : α → Bool) :
    (l.filter p).Nodup ↔ ∀ a, p a = true → l.count a ≤ 1 := by
  rw [List.nodup_iff_count_le_one]
  constructor
  · intro h a hkept
    have := h a
    rwa [List.count_filter hkept] at this
  · intro h a
    by_cases hkept : p a = true
    · rw [List.count_filter hkept]
      exact h a hkept
    · have hgone : a ∉ l.filter p := by simp [hkept]
      rw [List.count_eq_zero_of_not_mem hgone]
      exact Nat.zero_le 1

variable {α β : Type} [DecidableEq β] {l : List α} {key : α → β}

theorem find?_key_eq_some_iff (distinct : (l.map key).Nodup) (k : β) (a : α) :
    l.find? (fun x => key x = k) = some a ↔ a ∈ l ∧ key a = k := by
  constructor
  · intro h
    exact ⟨List.mem_of_find?_eq_some h, by simpa using List.find?_some h⟩
  · intro ⟨hmem, hkey⟩
    cases hfind : l.find? fun x => key x = k with
    | none =>
      have := List.find?_eq_none.mp hfind a hmem
      simp [hkey] at this
    | some b =>
      -- Two entries with one key are the same entry.
      have hb : key b = k := by simpa using List.find?_some hfind
      have hsame : b = a :=
        List.inj_on_of_nodup_map distinct (List.mem_of_find?_eq_some hfind) hmem
          (hb.trans hkey.symm)
      rw [hsame]

/-- `filter` for the key of an entry keeps that entry alone, if the keys are distinct. -/
theorem filter_key_eq_singleton (distinct : (l.map key).Nodup) {a : α} (h : a ∈ l) :
    (l.filter fun x => key x = key a) = [a] := by
  obtain ⟨before, after, rfl⟩ := List.append_of_mem h
  rw [List.map_append, List.map_cons, List.nodup_append, List.nodup_cons] at distinct
  obtain ⟨-, ⟨hafter, -⟩, hapart⟩ := distinct
  have hnone : ∀ xs : List α, key a ∉ xs.map key → (xs.filter fun x => key x = key a) = [] := by
    intro xs hnot
    rw [List.filter_eq_nil_iff]
    intro x hx hkey
    exact hnot (List.mem_map.mpr ⟨x, hx, of_decide_eq_true hkey⟩)
  have hbefore : key a ∉ before.map key := fun hmem =>
    hapart _ hmem _ List.mem_cons_self rfl
  rw [List.filter_append, hnone before hbefore, List.filter_cons_of_pos (by simp),
    hnone after hafter, List.nil_append]

theorem find?_key_reverse (distinct : (l.map key).Nodup) (k : β) :
    l.reverse.find? (fun x => key x = k) = l.find? fun x => key x = k := by
  have hreverse : (l.reverse.map key).Nodup := by
    rwa [List.map_reverse, List.nodup_reverse]
  apply Option.ext
  intro a
  rw [find?_key_eq_some_iff hreverse, find?_key_eq_some_iff distinct, List.mem_reverse]

theorem dropWhile_append_cons {α : Type} {p : α → Bool} {c : α} (hc : p c = false)
    (before rest : List α) :
    (before ++ c :: rest).dropWhile p = before.dropWhile p ++ c :: rest := by
  rw [List.dropWhile_append]
  split
  case isTrue h => rw [List.isEmpty_iff.mp h, List.dropWhile_cons_of_neg (by simp [hc])]; rfl
  case isFalse => rfl

end InventorySync
