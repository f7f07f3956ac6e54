import InventorySync.Settings.Arguments
import Mathlib.Data.List.TakeWhile

/-!
# The command line

A flag and its value may be given in one argument or in two, and both ways are read as the same
drafts. A flag that was given keeps its value whatever the environment says.

## Key results

- `Draft.seconds?_toDigits`, `Draft.count?_toDigits`: the numbers that are read, and their bounds
- `Draft.has_assign`: what `assign` puts in is there afterwards, and nothing else is new
- `Argument.ofText_joined`, `Argument.ofText_alone`: the form of an argument that names a flag
- `Settings.readArguments_joined`, `Settings.readArguments_apart`: both ways to write a command line
- `Settings.read_congr`: the variables of flags that were given do not matter
-/

namespace InventorySync

/-! ## Numbers -/

namespace Draft

theorem digits?_toDigits (n : Nat) : digits? (Nat.toDigits 10 n) = some n := by
  have hdigits : (Nat.toDigits 10 n).all Char.isDigit = true := by
    rw [List.all_eq_true]
    intro c hc
    exact Nat.isDigit_of_mem_toDigits (by decide) (by decide) hc
  have hvalue : (Nat.toDigits 10 n).foldl (fun n c => 10 * n + (c.toNat - '0'.toNat)) 0 = n :=
    Nat.ofDigitChars_ten_toDigits
  unfold digits?
  rw [hvalue, hdigits]
  simp [Nat.toDigits_ne_nil]

/-- What `Nat.toDigits` writes begins with none of the signs. -/
theorem toDigits_ne_cons {sign : Char} (hsign : sign.isDigit = false) (n : Nat) (cs : List Char) :
    Nat.toDigits 10 n ≠ sign :: cs := by
  intro h
  have hdigit : sign.isDigit = true :=
    Nat.isDigit_of_mem_toDigits (n := n) (b := 10) (by decide) (by decide)
      (h ▸ List.mem_cons_self)
  rw [hsign] at hdigit
  cases hdigit

/-- `seconds?` reads the digits of a number below 2^64. -/
theorem seconds?_toDigits (n : Nat) :
    seconds? (String.ofList (Nat.toDigits 10 n)) = if n < UInt64.size then some n else none := by
  unfold seconds?
  rw [String.toList_ofList]
  split
  next rest h => exact absurd h (toDigits_ne_cons rfl n rest)
  next => simp [digits?_toDigits, Option.filter]

theorem lt_of_seconds? {text : String} {n : Nat} (h : seconds? text = some n) :
    n < UInt64.size := of_decide_eq_true (Option.filter_eq_some_iff.mp h).2

example : seconds? "+18446744073709551615" = some (2 ^ 64 - 1) := by decide +kernel

/-- `count?` reads the digits of a number below 2^32. -/
theorem count?_toDigits (n : Nat) :
    count? (String.ofList (Nat.toDigits 10 n)) = if n < UInt32.size then some n else none := by
  unfold count?
  rw [String.toList_ofList]
  split
  next rest h => exact absurd h (toDigits_ne_cons rfl n rest)
  next rest h => exact absurd h (toDigits_ne_cons rfl n rest)
  next => simp [digits?_toDigits, Option.filter]

theorem lt_of_count? {text : String} {n : Nat} (h : count? text = some n) : n < UInt32.size := by
  unfold count? at h
  split at h
  next =>
    have hzero : n = 0 := of_decide_eq_true (Option.filter_eq_some_iff.mp h).2
    rw [hzero]
    decide
  next => exact of_decide_eq_true (Option.filter_eq_some_iff.mp h).2
  next => exact of_decide_eq_true (Option.filter_eq_some_iff.mp h).2

-- Zero is the one number that may have a minus sign.
example : count? "-0" = some 0 ∧ count? "-1" = none := by decide +kernel

/-! ## Putting in -/

/-- A number is `put` in if it was read. -/
theorem eq_of_map_number {value : Option Nat} {e : UsageError} {put : Option Nat → Draft}
    {d : Draft}
    (h : (if value.isSome then Except.ok value else Except.error e).map put = .ok d) :
    ∃ n, d = put (some n) := by
  cases value with
  | none => cases h
  | some n => exact ⟨n, (Except.ok.inj h).symm⟩

theorem splitString_ne_nil (sep : Char) (text : String) : Text.splitString sep text ≠ [] := by
  simp [Text.splitString, Text.split_ne_nil]

/-- `assign` puts in its flag and no other. -/
theorem has_assign {d d' : Draft} {flag : Flag} {text : String} (h : d.assign flag text = .ok d')
    (f : Flag) : d'.has f = (d.has f || f == flag) := by
  cases flag with
  | apiUrl | apiKey | clusterId | ownerScope | cleanupAt =>
    obtain rfl := Except.ok.inj h
    cases f <;> simp [has]
  | schemas =>
    obtain rfl := Except.ok.inj h
    cases f <;> simp [has, splitString_ne_nil]
  | noCacheWatch =>
    simp only [assign] at h
    split at h
    · obtain rfl := Except.ok.inj h
      cases f <;> simp [has]
    · cases h
  | pageSize | watchTimeoutSecs | httpTimeoutSecs | retryFlushSecs | cleanupDelaySecs
    | cacheStatsSecs =>
    obtain ⟨n, rfl⟩ := eq_of_map_number h
    cases f <;> simp [has]

end Draft

/-! ## The form of an argument -/

theorem Flag.eq_not_mem_name (f : Flag) : '=' ∉ f.name.toList := by
  cases f <;> decide +kernel

namespace Argument

theorem cutAtEquals_append {name value : List Char} (h : '=' ∉ name) :
    cutAtEquals (name ++ '=' :: value) = (String.ofList name, some (String.ofList value)) := by
  have hname : (name ++ '=' :: value).takeWhile (· ≠ '=') = name := by
    rw [List.takeWhile_append_of_pos fun c hc => by simpa using ne_of_mem_of_not_mem hc h]
    simp
  unfold cutAtEquals
  dsimp only
  rw [hname, List.drop_left]

theorem cutAtEquals_of_not_mem {name : List Char} (h : '=' ∉ name) :
    cutAtEquals name = (String.ofList name, none) := by
  have hname : name.takeWhile (· ≠ '=') = name :=
    List.takeWhile_eq_self_iff.mpr fun c hc => by simpa using ne_of_mem_of_not_mem hc h
  unfold cutAtEquals
  dsimp only
  rw [hname, List.drop_length]

theorem ofText_of_hyphens {text : String} {rest : List Char} (h : text.toList = '-' :: '-' :: rest)
    (hrest : rest ≠ []) : ofText text = .long (cutAtEquals rest).1 (cutAtEquals rest).2 := by
  unfold ofText
  rw [h]
  cases rest with
  | nil => exact absurd rfl hrest
  | cons c rest => rfl

/-- To `ofText` an argument with an equals sign has a value, which may hold more of them. -/
theorem ofText_joined (f : Flag) (value : String) :
    ofText ("--" ++ f.name ++ "=" ++ value) = .long f.name (some value) := by
  have htext : ("--" ++ f.name ++ "=" ++ value).toList =
      '-' :: '-' :: (f.name.toList ++ '=' :: value.toList) := by
    simp
  rw [ofText_of_hyphens htext (by simp), cutAtEquals_append f.eq_not_mem_name,
    String.ofList_toList, String.ofList_toList]

example : ofText "--page-size=a=b" = .long "page-size" (some "a=b") := by decide +kernel

theorem ofText_alone (f : Flag) : ofText ("--" ++ f.name) = .long f.name none := by
  have htext : ("--" ++ f.name).toList = '-' :: '-' :: f.name.toList := by
    simp
  have hname : f.name.toList ≠ [] := by
    cases f <;> decide +kernel
  rw [ofText_of_hyphens htext hname, cutAtEquals_of_not_mem f.eq_not_mem_name,
    String.ofList_toList]

end Argument

/-! ## Both ways to write a command line -/

namespace Settings

/-- A command line of the form `--name=value` gives its flags one after another. -/
theorem readArguments_joined (given : List (Flag × String)) (d : Draft) :
    readArguments d none (given.map fun g => "--" ++ g.1.name ++ "=" ++ g.2) =
      given.foldlM (fun d g => d.give g.1 g.2) d := by
  induction given generalizing d with
  | nil => rfl
  | cons g given ih =>
    rw [List.map_cons, readArguments.eq_def, List.foldlM_cons]
    simp only [Argument.ofText_joined, Flag.ofName?_name, ih]
    rfl

theorem readArguments_alone (d : Draft) (pending : Option Pending) (f : Flag) (value : String)
    (rest : List String) (hvalue : Argument.ofText value = .plain value) :
    readArguments d pending (("--" ++ f.name) :: value :: rest) =
      (settle d pending).bind fun d => readArguments d (some ⟨f, some value⟩) rest := by
  rw [readArguments.eq_def]
  simp only [Argument.ofText_alone, Flag.ofName?_name]
  congr
  funext d
  rw [readArguments.eq_def]
  simp only [hvalue]

/-- A command line of the form `--name value` gives its flags one after another, each when the next
one arrives. -/
theorem readArguments_apart (given : List (Flag × String)) (d : Draft) (pending : Option Pending)
    (hplain : ∀ g ∈ given, Argument.ofText g.2 = .plain g.2) :
    readArguments d pending (given.flatMap fun g => ["--" ++ g.1.name, g.2]) =
      (settle d pending).bind fun d => given.foldlM (fun d g => d.give g.1 g.2) d := by
  induction given generalizing d pending with
  | nil =>
    show settle d pending = (settle d pending).bind .ok
    cases settle d pending <;> rfl
  | cons g given ih =>
    have hrest := fun d => ih d (some ⟨g.1, some g.2⟩) fun g' hg' =>
      hplain g' (List.mem_cons_of_mem _ hg')
    rw [List.flatMap_cons]
    show readArguments d pending (("--" ++ g.1.name) :: g.2 :: _) = _
    rw [readArguments_alone d pending g.1 g.2 _ (hplain g List.mem_cons_self)]
    congr
    funext d
    rw [List.foldlM_cons]
    exact hrest d

/-! ## The environment -/

section Environment

variable {environment environment' : String → Option String}

theorem has_of_readVariable {d d' : Draft} {flag f : Flag}
    (h : readVariable environment d flag = .ok d') (hf : d.has f = true) : d'.has f = true := by
  unfold readVariable at h
  split at h
  · split at h
    · exact Except.ok.inj h ▸ hf
    · rw [Draft.has_assign h, hf, Bool.true_or]
  · exact Except.ok.inj h ▸ hf

/-- `readVariable` leaves a flag alone that was given. -/
theorem readVariable_congr {d : Draft} {flag : Flag}
    (h : d.has flag = false → environment flag.variableName = environment' flag.variableName) :
    readVariable environment d flag = readVariable environment' d flag := by
  cases hflag : d.has flag with
  | false => rw [readVariable, readVariable, h hflag]
  | true =>
    have hkept : ∀ env : String → Option String, readVariable env d flag = .ok d := by
      intro env
      unfold readVariable
      split
      · rw [if_pos hflag]
      · rfl
    rw [hkept, hkept]

/-- Whatever the environment says about flags that the draft `has`, `readVariables` makes the same
of it. -/
theorem readVariables_congr {d : Draft}
    (h : ∀ f, d.has f = false → environment f.variableName = environment' f.variableName) :
    readVariables d environment = readVariables d environment' := by
  unfold readVariables
  generalize Flag.all = flags
  induction flags generalizing d with
  | nil => rfl
  | cons flag flags ih =>
    rw [List.foldlM_cons, List.foldlM_cons, readVariable_congr (h flag)]
    cases hd : readVariable environment' d flag with
    | error e => rfl
    | ok d' =>
      -- What was given before is still given, so the two environments agree on what is left.
      exact ih fun f hf => h f (Bool.eq_false_iff.mpr fun hgiven =>
        Bool.eq_false_iff.mp hf (has_of_readVariable hd hgiven))

/-- A flag on the command line goes before its variable: `read` gives the same settings whatever the
environment says about it. -/
theorem read_congr {arguments : List String} {d : Draft}
    (hd : readArguments {} none arguments = .ok d)
    (h : ∀ f, d.has f = false → environment f.variableName = environment' f.variableName) :
    read arguments environment = read arguments environment' := by
  unfold read
  rw [hd]
  show (readVariables d environment).bind _ = (readVariables d environment').bind _
  rw [readVariables_congr h]

end Environment

end Settings
end InventorySync
