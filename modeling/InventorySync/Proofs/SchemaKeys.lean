import InventorySync.Proofs.Lists
import InventorySync.Schema
import Mathlib.Data.List.DropRight

/-!
# Keys and the schemas they write

A key that is read is the written form of its schema with blanks around it, or that form after a
slash where the group is left empty. The written form can be read in its turn, and gives the schema
back unless its first character is a blank: the blanks around a key are dropped, and a slash in
front of them is what kept them.

## Key results

- `Text.split_intercalate`: joined parts are split into the parts
- `Text.trimmed_eq_self_iff`: the texts that trimming leaves alone
- `Schema.parse_eq_ok_iff`: the keys of a schema
- `Schema.parse_display_iff`: when the written form of a schema is one of its keys
-/

namespace InventorySync

/-! ## Parts -/

namespace Text

theorem split_eq_splitOn (sep : Char) (cs : List Char) : split sep cs = cs.splitOn sep := by
  induction cs with
  | nil => rfl
  | cons c rest ih =>
    rw [List.splitOn_cons_eq_if_modifyHead, ← ih]
    by_cases h : c = sep
    · simp [split, h]
    · obtain ⟨part, parts, hparts⟩ := List.exists_cons_of_ne_nil (split_ne_nil sep rest)
      simp [split, h, hparts]

/-- What `intercalate` joins, `split` takes apart again, if no part holds the separator. -/
theorem split_intercalate {sep : Char} {parts : List (List Char)}
    (hparts : ∀ part ∈ parts, sep ∉ part) (hne : parts ≠ []) :
    split sep ([sep].intercalate parts) = parts := by
  rw [split_eq_splitOn]
  exact List.splitOn_intercalate sep hparts hne

/-! ## Blanks at the ends -/

/-- Whether the first character is a blank. -/
def beginsBlank (cs : List Char) : Bool := cs.head?.any isBlank

/-- Whether the last character is a blank. -/
def endsBlank (cs : List Char) : Bool := cs.getLast?.any isBlank

theorem trimmed_eq_rdropWhile (cs : List Char) :
    trimmed cs = (cs.dropWhile isBlank).rdropWhile isBlank := rfl

theorem dropWhile_isBlank_eq_self_iff {cs : List Char} :
    cs.dropWhile isBlank = cs ↔ beginsBlank cs = false := by
  cases cs with
  | nil => simp [beginsBlank]
  | cons c rest => rw [List.dropWhile_eq_self_iff]; simp [beginsBlank]

theorem rdropWhile_isBlank_eq_self_iff {cs : List Char} :
    cs.rdropWhile isBlank = cs ↔ endsBlank cs = false := by
  rw [List.rdropWhile_eq_self_iff]
  rcases List.eq_nil_or_concat cs with rfl | ⟨init, c, rfl⟩
  · simp [endsBlank]
  · simp [endsBlank]

/-- A text with no blank at its ends is left alone by `trimmed`. -/
theorem trimmed_of_not_blank {cs : List Char} (hbegins : beginsBlank cs = false)
    (hends : endsBlank cs = false) : trimmed cs = cs := by
  rw [trimmed_eq_rdropWhile, dropWhile_isBlank_eq_self_iff.mpr hbegins,
    rdropWhile_isBlank_eq_self_iff.mpr hends]

theorem endsBlank_trimmed (cs : List Char) : endsBlank (trimmed cs) = false := by
  rw [← rdropWhile_isBlank_eq_self_iff, trimmed_eq_rdropWhile, List.rdropWhile_idempotent]

theorem beginsBlank_trimmed (cs : List Char) : beginsBlank (trimmed cs) = false := by
  have hleft : beginsBlank (cs.dropWhile isBlank) = false :=
    dropWhile_isBlank_eq_self_iff.mp (List.dropWhile_idempotent ..)
  -- What the second pass keeps begins like what the first one kept.
  obtain ⟨dropped, hdropped⟩ := List.rdropWhile_prefix isBlank (cs.dropWhile isBlank)
  rw [trimmed_eq_rdropWhile]
  rw [← hdropped] at hleft
  cases hkept : (cs.dropWhile isBlank).rdropWhile isBlank with
  | nil => rfl
  | cons c rest => rwa [hkept] at hleft

/-- All that `trimmed` does is drop characters. -/
theorem trimmed_sublist (cs : List Char) : (trimmed cs).Sublist cs := by
  rw [trimmed_eq_rdropWhile]
  have hright := List.rdropWhile_prefix isBlank (cs.dropWhile isBlank)
  exact hright.sublist.trans (List.dropWhile_sublist _)

example : trim "\t v1/pods\u00a0\u3000" = "v1/pods" := by decide +kernel

theorem endsBlank_append_cons (before : List Char) (c : Char) (rest : List Char) :
    endsBlank (before ++ c :: rest) = endsBlank (c :: rest) := by
  rw [endsBlank, endsBlank, List.getLast?_append_of_ne_nil _ (List.cons_ne_nil c rest)]

/-- In front of a character that is no blank `trimmed` drops all blanks at the beginning. -/
theorem trimmed_append_cons {before rest : List Char} {c : Char} (hc : isBlank c = false)
    (hends : endsBlank (c :: rest) = false) :
    trimmed (before ++ c :: rest) = before.dropWhile isBlank ++ c :: rest := by
  rw [trimmed_eq_rdropWhile, dropWhile_append_cons hc, rdropWhile_isBlank_eq_self_iff,
    endsBlank_append_cons, hends]

/-- The strings that `splitString` takes apart into given parts. -/
theorem splitString_eq_iff {sep : Char} {s : String} {parts : List String} (hne : parts ≠ []) :
    splitString sep s = parts ↔
      s.toList = [sep].intercalate (parts.map String.toList) ∧
        ∀ part ∈ parts, sep ∉ part.toList := by
  constructor
  · rintro rfl
    have htoList : (splitString sep s).map String.toList = split sep s.toList := by
      simp [splitString, Function.comp_def]
    refine ⟨by rw [htoList, intercalate_split], fun part hpart => ?_⟩
    exact not_mem_of_mem_split (htoList ▸ List.mem_map_of_mem hpart)
  · rintro ⟨hs, hparts⟩
    rw [splitString, hs, split_intercalate (by simpa using hparts) (by simpa using hne)]
    simp [Function.comp_def]

end Text

/-! ## Keys -/

namespace Schema

open Text

variable {key : String} {s : Schema}

theorem checked_eq_ok_iff {t : Schema} : parse.checked t = .ok s ↔ t = s ∧ s.flaw? = none := by
  unfold parse.checked validate
  cases hflaw : t.flaw? with
  | none =>
    constructor
    · intro h
      obtain rfl := Except.ok.inj h
      exact ⟨rfl, hflaw⟩
    · rintro ⟨rfl, -⟩
      rfl
  | some flaw =>
    refine ⟨nofun, ?_⟩
    rintro ⟨rfl, hnone⟩
    cases hflaw.symm.trans hnone

/-- A schema with a resource is usable by `parse.checked` if it has a version as well. -/
theorem checked_of_resource_ne (h : s.resource ≠ "") : parse.checked s =
    if s.version = "" then .error ⟨s.display, .emptyVersion⟩ else .ok s := by
  unfold parse.checked validate flaw?
  by_cases hversion : s.version = "" <;> simp [hversion, h, Except.map]

/-- The parts of the written form. -/
def parts (s : Schema) : List String :=
  if s.group = "" then [s.version, s.resource] else [s.group, s.version, s.resource]

theorem toList_display (s : Schema) :
    s.display.toList = ['/'].intercalate (s.parts.map String.toList) := by
  unfold display parts
  split <;> simp [List.intercalate]

/-- A key that `parse` accepts has the `parts` of the schema between its slashes, or these after an
empty group. -/
theorem parse_eq_ok_iff_parts : parse key = .ok s ↔ s.flaw? = none ∧
    (splitString '/' (trim key) = s.parts ∨
      s.group = "" ∧ splitString '/' (trim key) = "" :: s.parts) := by
  obtain ⟨group, version, resource⟩ := s
  by_cases hgroup : group = ""
  · subst hgroup
    simp only [parts, if_true, true_and]
    unfold parse
    split
    -- Two parts, or three with an empty one in front, give a schema without a group.
    case h_1 v r hsplit => rw [checked_eq_ok_iff, hsplit]; simp [and_comm]
    case h_2 g v r hsplit => rw [checked_eq_ok_iff, hsplit]; simp [and_comm]
    case h_3 htwo hthree =>
      refine ⟨nofun, ?_⟩
      rintro ⟨-, hsplit | hsplit⟩
      · exact absurd hsplit (htwo _ _)
      · exact absurd hsplit (hthree _ _ _)
  · simp only [parts, hgroup, if_false, false_and, or_false]
    unfold parse
    split
    case h_1 v r hsplit => rw [checked_eq_ok_iff, hsplit]; simp [Ne.symm hgroup]
    case h_2 g v r hsplit => rw [checked_eq_ok_iff, hsplit]; simp [and_comm]
    case h_3 htwo hthree =>
      refine ⟨nofun, ?_⟩
      rintro ⟨-, hsplit⟩
      exact absurd hsplit (hthree _ _ _)

theorem parts_ne_nil (s : Schema) : s.parts ≠ [] := by
  unfold parts
  split <;> nofun

theorem toList_slash_display (s : Schema) :
    '/' :: s.display.toList = ['/'].intercalate (("" :: s.parts).map String.toList) := by
  obtain ⟨part, rest, hparts⟩ := List.exists_cons_of_ne_nil s.parts_ne_nil
  rw [toList_display, hparts]
  simp [List.intercalate]

/-- The keys that `parse` reads as a schema are its `display` with blanks around it, and this form
after a slash if it has no group. Only a schema without slashes in its parts has keys. -/
theorem parse_eq_ok_iff : parse key = .ok s ↔ s.flaw? = none ∧
    (∀ part ∈ s.parts, '/' ∉ part.toList) ∧
    (trimmed key.toList = s.display.toList ∨
      s.group = "" ∧ trimmed key.toList = '/' :: s.display.toList) := by
  have htrim : (trim key).toList = trimmed key.toList := by rw [trim, String.toList_ofList]
  have hslash : '/' ∉ "".toList := by simp
  rw [parse_eq_ok_iff_parts, splitString_eq_iff s.parts_ne_nil,
    splitString_eq_iff (List.cons_ne_nil _ _), htrim, ← toList_display, ← toList_slash_display,
    List.forall_mem_cons]
  constructor
  · rintro ⟨hflaw, ⟨hkey, hparts⟩ | ⟨hgroup, hkey, -, hparts⟩⟩
    · exact ⟨hflaw, hparts, .inl hkey⟩
    · exact ⟨hflaw, hparts, .inr ⟨hgroup, hkey⟩⟩
  · rintro ⟨hflaw, hparts, hkey | ⟨hgroup, hkey⟩⟩
    · exact ⟨hflaw, .inl ⟨hkey, hparts⟩⟩
    · exact ⟨hflaw, .inr ⟨hgroup, hkey, hslash, hparts⟩⟩

/-! ## Reading the written form -/

theorem flaw?_eq_none_iff : s.flaw? = none ↔ s.version ≠ "" ∧ s.resource ≠ "" := by
  unfold flaw?
  split
  · simp [*]
  · split <;> simp [*]

/-- The `display` of a schema begins with a character of its first part. -/
theorem exists_toList_display (hflaw : s.flaw? = none)
    (hparts : ∀ part ∈ s.parts, '/' ∉ part.toList) :
    ∃ c rest, s.display.toList = c :: rest ∧ c ≠ '/' := by
  obtain ⟨first, others, hfirst, hne⟩ : ∃ first others, s.parts = first :: others ∧ first ≠ "" := by
    unfold parts
    split
    case isTrue h => exact ⟨_, _, rfl, (flaw?_eq_none_iff.mp hflaw).1⟩
    case isFalse h => exact ⟨_, _, rfl, h⟩
  obtain ⟨c, cs, hcs⟩ := List.exists_cons_of_ne_nil (mt String.toList_eq_nil_iff.mp hne)
  have hslash : '/' ∉ first.toList := hparts first (hfirst ▸ List.mem_cons_self)
  rw [hcs, List.mem_cons, not_or] at hslash
  refine ⟨c, cs ++ (['/'].intercalate ([] :: others.map String.toList)), ?_, Ne.symm hslash.1⟩
  rw [toList_display, hfirst, List.map_cons, hcs]
  cases others <;> simp [List.intercalate]

theorem endsBlank_display (h : parse key = .ok s) : endsBlank s.display.toList = false := by
  obtain ⟨hflaw, hparts, hkey⟩ := parse_eq_ok_iff.mp h
  have hends := endsBlank_trimmed key.toList
  rcases hkey with hkey | ⟨-, hkey⟩
  · rwa [hkey] at hends
  · obtain ⟨c, rest, hdisplay, -⟩ := exists_toList_display hflaw hparts
    rw [hkey, hdisplay, ← List.singleton_append, endsBlank_append_cons] at hends
    rwa [hdisplay]

/-- The `display` of a schema is one of its keys exactly if it does not begin with a blank. -/
theorem parse_display_eq_ok_iff (h : parse key = .ok s) :
    parse s.display = .ok s ↔ beginsBlank s.display.toList = false := by
  obtain ⟨hflaw, hparts, -⟩ := parse_eq_ok_iff.mp h
  rw [parse_eq_ok_iff]
  constructor
  · rintro ⟨-, -, hkey | ⟨-, hkey⟩⟩
    · rw [← hkey]
      exact beginsBlank_trimmed _
    · -- Trimming makes nothing longer.
      have hle := (trimmed_sublist s.display.toList).length_le
      rw [hkey, List.length_cons] at hle
      omega
  · intro hbegins
    exact ⟨hflaw, hparts, .inl (trimmed_of_not_blank hbegins (endsBlank_display h))⟩

/-- After the slash that a key begins with there is a blank. -/
def HidesBlank (key : String) : Prop :=
  (trimmed key.toList).head? = some '/' ∧ beginsBlank (trimmed key.toList).tail = true

instance (key : String) : Decidable (HidesBlank key) := inferInstanceAs (Decidable (_ ∧ _))

theorem hidesBlank_iff (h : parse key = .ok s) :
    HidesBlank key ↔ beginsBlank s.display.toList = true := by
  obtain ⟨hflaw, hparts, hkey⟩ := parse_eq_ok_iff.mp h
  obtain ⟨c, rest, hdisplay, hslash⟩ := exists_toList_display hflaw hparts
  unfold HidesBlank
  rcases hkey with hkey | ⟨-, hkey⟩
  · -- Nothing is hidden where no slash comes first, and trimming has left no blank there.
    have hbegins := beginsBlank_trimmed key.toList
    rw [hkey] at hbegins
    rw [hkey, hbegins, hdisplay]
    simp [hslash]
  · simp [hkey]

/-- The schema without the blanks that its version begins with. -/
def unblanked (s : Schema) : Schema :=
  { s with version := String.ofList (s.version.toList.dropWhile isBlank) }

/-- What `parse` makes of the written form of a key that `HidesBlank`: the schema `unblanked`, if
that has a version. -/
theorem parse_display_of_hidesBlank (h : parse key = .ok s) (hhides : HidesBlank key) :
    parse s.display = if s.unblanked.version = "" then .error ⟨s.unblanked.display, .emptyVersion⟩
      else .ok s.unblanked := by
  obtain ⟨hflaw, hparts, hkey⟩ := parse_eq_ok_iff.mp h
  have hbegins := (hidesBlank_iff h).mp hhides
  have hgroup : s.group = "" := by
    rcases hkey with hkey | ⟨hgroup, -⟩
    · rw [← hkey, beginsBlank_trimmed] at hbegins
      cases hbegins
    · exact hgroup
  obtain ⟨group, version, resource⟩ := s
  obtain rfl : group = "" := hgroup
  -- Without a group the written form begins with the version, whose blanks are trimmed.
  have hdisplay : (⟨"", version, resource⟩ : Schema).display.toList =
      version.toList ++ '/' :: resource.toList := by
    simp [display]
  have hends := endsBlank_display h
  rw [hdisplay, endsBlank_append_cons] at hends
  have hversion : '/' ∉ version.toList.dropWhile isBlank :=
    fun hmem => hparts version (by simp [parts]) ((List.dropWhile_sublist _).subset hmem)
  have hslash : '/' ∉ resource.toList := hparts resource (by simp [parts])
  have hsplit : splitString '/' (trim (⟨"", version, resource⟩ : Schema).display) =
      [String.ofList (version.toList.dropWhile isBlank), resource] := by
    rw [splitString_eq_iff (List.cons_ne_nil _ _), trim, String.toList_ofList, hdisplay,
      trimmed_append_cons (by decide) hends]
    simp [List.intercalate, hversion, hslash]
  -- What is left of the version still holds no slash, so the same two parts are read.
  have hread : parse (⟨"", version, resource⟩ : Schema).display =
      parse.checked (unblanked ⟨"", version, resource⟩) := by
    rw [parse, hsplit]
    rfl
  have hresource : (unblanked ⟨"", version, resource⟩).resource ≠ "" :=
    (flaw?_eq_none_iff.mp hflaw).2
  rw [hread, checked_of_resource_ne hresource]

/-- A schema that was read from a key is read by `parse` from its `display` again, unless the key
begins with a slash and a blank after it. In that case the schema is `unblanked`: the blanks at the
beginning of the version are dropped, and the written form names another schema or, if nothing is
left of the version, none. -/
theorem display_reads_back_iff (h : parse key = .ok s) :
    (parse s.display = .ok s ↔ ¬ HidesBlank key) ∧
    (HidesBlank key → parse s.display =
      if s.unblanked.version = "" then .error ⟨s.unblanked.display, .emptyVersion⟩
      else .ok s.unblanked) := by
  refine ⟨?_, parse_display_of_hidesBlank h⟩
  rw [parse_display_eq_ok_iff h, hidesBlank_iff h, Bool.not_eq_true]

/-- An empty group is not written by `display`, and blanks inside a key are kept. -/
theorem display_reads_back_without_group :
    let s : Schema := ⟨"", "v1 ", " pods"⟩
    parse "\t/v1 / pods\n" = .ok s ∧ ¬ HidesBlank "\t/v1 / pods\n" ∧
    s.display = "v1 / pods" ∧ parse "v1 / pods" = .ok s := by
  intro s
  have hread : parse "\t/v1 / pods\n" = .ok s := by decide +kernel
  have hhides : ¬ HidesBlank "\t/v1 / pods\n" := by decide +kernel
  exact ⟨hread, hhides, rfl, (display_reads_back_iff hread).1.mpr hhides⟩

/-- A schema whose `display` is read as another one, and a schema whose `display` is refused with
`.emptyVersion`. -/
theorem display_misread_or_refused :
    parse "/ v1/pods" = .ok ⟨"", " v1", "pods"⟩ ∧
    parse (display ⟨"", " v1", "pods"⟩) = .ok ⟨"", "v1", "pods"⟩ ∧
    parse "/ /pods" = .ok ⟨"", " ", "pods"⟩ ∧
    parse (display ⟨"", " ", "pods"⟩) = .error ⟨"/pods", .emptyVersion⟩ := by
  decide +kernel

end Schema
end InventorySync
