/-! # Splitting a text at a character

`split sep` cuts at every occurrence of the separator and keeps empty parts, so a text without the
separator is one part and joining the parts gives the text back. -/

namespace InventorySync.Text

/-- The parts of a text between the separators, in order; empty parts are kept. -/
def split (sep : Char) : List Char → List (List Char)
  | [] => [[]]
  | c :: rest =>
    if c = sep then [] :: split sep rest
    else
      match split sep rest with
      | [] => [[c]]
      | part :: parts => (c :: part) :: parts

/-- There is always at least one part. -/
theorem split_ne_nil (sep : Char) (cs : List Char) : split sep cs ≠ [] := by
  cases cs with
  | nil => simp [split]
  | cons c rest =>
    simp only [split]
    split
    · simp
    · split <;> simp

/-- No part holds the separator. -/
theorem not_mem_of_mem_split {sep : Char} {cs part : List Char} (h : part ∈ split sep cs) :
    sep ∉ part := by
  induction cs generalizing part with
  | nil => simp_all [split]
  | cons c rest ih =>
    simp only [split] at h
    split at h
    · rcases List.mem_cons.1 h with rfl | h
      · simp
      · exact ih h
    · rename_i hc
      split at h
      · simp only [List.mem_singleton] at h
        subst h
        simpa using Ne.symm hc
      · rename_i p ps hp
        rcases List.mem_cons.1 h with rfl | h
        · have : sep ∉ p := ih (by simp [hp])
          simp [Ne.symm hc, this]
        · exact ih (by simp [hp, h])

/-- The parts joined by the separator are the text. -/
theorem intercalate_split (sep : Char) (cs : List Char) :
    [sep].intercalate (split sep cs) = cs := by
  induction cs with
  | nil => simp [split, List.intercalate]
  | cons c rest ih =>
    simp only [split]
    split
    · rename_i hc
      obtain ⟨p, ps, hp⟩ := List.exists_cons_of_ne_nil (split_ne_nil sep rest)
      rw [hp] at ih ⊢
      simp only [List.intercalate, List.intersperse, List.flatten] at ih ⊢
      simp [ih, hc]
    · obtain ⟨p, ps, hp⟩ := List.exists_cons_of_ne_nil (split_ne_nil sep rest)
      rw [hp] at ih ⊢
      cases ps <;> simp_all [List.intercalate, List.intersperse]

/-- The parts of a string between the separators. -/
def splitString (sep : Char) (s : String) : List String :=
  (split sep s.toList).map String.ofList

example : splitString '/' "apps/v1/deployments" = ["apps", "v1", "deployments"] := by decide +kernel
example : splitString ',' "" = [""] := by decide +kernel

end InventorySync.Text
