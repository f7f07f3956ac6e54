import InventorySync.Calendar.TimeOfDay
import InventorySync.Calendar.Timestamp
import InventorySync.Proofs.Dates
import InventorySync.Proofs.SchemaKeys
import Mathlib.Data.List.TakeDrop

/-!
# The texts of dates and times

Numbers are written with zeros in front and read up to a width, so that what follows them does not
matter. A point in time that was read is written in one form, and that form is read as the same
point in time.

## Key results

- `digits_append`, `Timestamp.digits_padded`: a number is read with what follows it left over
- `TimeOfDay.read_padded`: a time of day with two digits for each number
- `Timestamp.read_parts`: a date and a time of day in the form of `Timestamp.write`
- `Timestamp.read_write`, `Timestamp.read_write_of_read`: `read` inverts `write`, for whatever was
  read
-/

namespace InventorySync.Calendar

open Text

/-! ## Numbers -/

theorem valueOf_eq (ds : List Char) : valueOf ds = Nat.ofDigitChars 10 ds 0 := rfl

/-- A text without blanks is not changed by `trimmed`. -/
theorem trimmed_of_forall_not_blank {cs : List Char} (h : ∀ c ∈ cs, isBlank c = false) :
    trimmed cs = cs := by
  refine trimmed_of_not_blank ?_ ?_
  · rw [beginsBlank, Option.any_eq_false]
    intro c hc
    simp [h c (List.mem_of_mem_head? hc)]
  · rw [endsBlank, Option.any_eq_false]
    intro c hc
    simp [h c (List.mem_of_mem_getLast? hc)]

theorem isBlank_of_isDigit {c : Char} (h : c.isDigit = true) : isBlank c = false := by
  have hrange : 48 ≤ c.toNat ∧ c.toNat ≤ 57 := by
    simpa [Char.isDigit, UInt32.le_iff_toNat_le] using h
  simp [isBlank, blankRanges]
  omega

/-- `digits` reads a run of digits that has the full width, or is followed by something else. -/
theorem digits_append {width : Nat} {ds rest : List Char} (hne : ds ≠ [])
    (hds : ∀ c ∈ ds, c.isDigit = true) (hwidth : ds.length ≤ width)
    (hrest : ds.length = width ∨ ∀ c ∈ rest.head?, c.isDigit = false) :
    digits width (ds ++ rest) = some (valueOf ds, rest) := by
  have hafter : (rest.take (width - ds.length)).takeWhile Char.isDigit = [] := by
    obtain hfull | hother := hrest
    · simp [hfull]
    · cases rest with
      | nil => simp
      | cons c rest =>
        cases width - ds.length with
        | zero => rfl
        | succ k => simp [hother c rfl]
  have hrun : ((ds ++ rest).take width).takeWhile Char.isDigit = ds := by
    rw [List.take_append, List.take_of_length_le hwidth, List.takeWhile_append_of_pos hds, hafter,
      List.append_nil]
  unfold digits
  dsimp only
  rw [hrun, if_neg (by simpa using hne), List.drop_left]

example : twoDigits " 034".toList = some (3, ['4']) := by decide +kernel

namespace Timestamp

/-! ### Numbers of a set width -/

theorem isDigit_of_mem_padded {width n : Nat} {c : Char} (h : c ∈ padded width n) :
    c.isDigit = true := by
  obtain hzero | hdigit := List.mem_append.mp h
  · rw [List.eq_of_mem_replicate hzero]
    rfl
  · exact Nat.isDigit_of_mem_toDigits (by decide) (by decide) hdigit

theorem padded_ne_nil (width n : Nat) : padded width n ≠ [] := by
  simp [padded, Nat.toDigits_ne_nil]

theorem length_padded {width n : Nat} (hwidth : 0 < width) (hn : n < 10 ^ width) :
    (padded width n).length = width := by
  have hle : (Nat.toDigits 10 n).length ≤ width :=
    (Nat.length_toDigits_le_iff (by decide) hwidth).mpr hn
  rw [padded, List.length_append, List.length_replicate]
  omega

theorem valueOf_padded (width n : Nat) : valueOf (padded width n) = n := by
  rw [valueOf_eq, padded, Nat.ofDigitChars_append, Nat.ofDigitChars_replicate_zero, Nat.mul_zero]
  exact Nat.ofDigitChars_ten_toDigits

/-- `digits` reads back what `padded` writes, whatever comes after it. -/
theorem digits_padded {width n : Nat} (hwidth : 0 < width) (hn : n < 10 ^ width)
    (rest : List Char) : digits width (padded width n ++ rest) = some (n, rest) := by
  rw [digits_append (padded_ne_nil width n) (fun c => isDigit_of_mem_padded)
    (Nat.le_of_eq (length_padded hwidth hn)) (Or.inl (length_padded hwidth hn)), valueOf_padded]

/-- A number that `padded` wrote has no blanks in front. -/
theorem skipBlanks_padded (width n : Nat) (rest : List Char) :
    skipBlanks (padded width n ++ rest) = padded width n ++ rest := by
  cases hds : padded width n with
  | nil => exact absurd hds (padded_ne_nil width n)
  | cons d ds =>
    have hd : d.isDigit = true := isDigit_of_mem_padded (hds ▸ List.mem_cons_self)
    exact List.dropWhile_cons_of_neg (by simp [isBlank_of_isDigit hd])

theorem twoDigits_padded {n : Nat} (hn : n < 100) (rest : List Char) :
    twoDigits (padded 2 n ++ rest) = some (n, rest) := by
  rw [twoDigits, skipBlanks_padded]
  exact digits_padded (by decide) hn rest

/-! ### Years -/

theorem longDigits_padded {width n : Nat} (hn : n ≤ maxNumber) {rest : List Char}
    (hrest : ∀ c ∈ rest.head?, c.isDigit = false) :
    longDigits (padded width n ++ rest) = some (n, rest) := by
  have hread : digits (padded width n ++ rest).length (padded width n ++ rest) =
      some (n, rest) := by
    rw [digits_append (padded_ne_nil width n) (fun c => isDigit_of_mem_padded) (by simp)
      (Or.inr hrest), valueOf_padded]
  rw [longDigits, hread]
  exact if_pos hn

/-- `year` reads back what `yearText` writes, if the number is not too large. -/
theorem year_yearText {y : Int} (hy : y.natAbs ≤ maxNumber) {rest : List Char}
    (hrest : ∀ c ∈ rest.head?, c.isDigit = false) :
    year (yearText y ++ rest) = some (y, rest) := by
  unfold yearText
  split
  next hshort =>
    obtain ⟨n, rfl⟩ := Int.eq_ofNat_of_zero_le hshort.1
    -- The first character is a digit, hence no sign.
    have hread : digits 4 (padded 4 n ++ rest) = some (n, rest) :=
      digits_padded (by decide) (by omega) rest
    unfold year
    rw [Int.toNat_natCast, skipBlanks_padded]
    cases hds : padded 4 n with
    | nil => exact absurd hds (padded_ne_nil 4 n)
    | cons d ds =>
      have hd : d.isDigit = true := isDigit_of_mem_padded (hds ▸ List.mem_cons_self)
      rw [hds] at hread
      split
      next hsign =>
        obtain ⟨rfl, -⟩ := List.cons.inj hsign
        cases hd
      next hsign =>
        obtain ⟨rfl, -⟩ := List.cons.inj hsign
        cases hd
      next => rw [hread]; rfl
  -- A sign is written before any other number of a year.
  next hlong =>
    have hread : longDigits (padded 4 y.natAbs ++ rest) = some (y.natAbs, rest) :=
      longDigits_padded hy hrest
    unfold year
    by_cases hneg : y < 0
    · rw [if_pos hneg]
      show (longDigits (padded 4 y.natAbs ++ rest)).map _ = _
      rw [hread]
      simp only [Option.map_some]
      congr
      omega
    · rw [if_neg hneg]
      show (longDigits (padded 4 y.natAbs ++ rest)).map _ = _
      rw [hread]
      simp only [Option.map_some]
      congr
      omega

end Timestamp

/-! ## Times of day -/

/-- Numbers of two digits with colons between them are taken by `read` as they are. -/
theorem TimeOfDay.read_padded {hour minute second : Nat} (hhour : hour < 100)
    (hminute : minute < 100) (hsecond : second < 100) :
    read (String.ofList (Timestamp.padded 2 hour ++ ':' :: Timestamp.padded 2 minute ++
      ':' :: Timestamp.padded 2 second)) = ofNumbers hour minute second := by
  have hnone : ∀ c ∈ Timestamp.padded 2 hour ++ ':' :: (Timestamp.padded 2 minute ++
      ':' :: Timestamp.padded 2 second), isBlank c = false := by
    intro c hc
    simp only [List.mem_append, List.mem_cons] at hc
    obtain hc | rfl | hc | rfl | hc := hc
    · exact isBlank_of_isDigit (Timestamp.isDigit_of_mem_padded hc)
    · decide
    · exact isBlank_of_isDigit (Timestamp.isDigit_of_mem_padded hc)
    · decide
    · exact isBlank_of_isDigit (Timestamp.isDigit_of_mem_padded hc)
  have hlast := Timestamp.twoDigits_padded hsecond []
  rw [List.append_nil] at hlast
  unfold read
  rw [String.toList_ofList, List.append_assoc, List.cons_append, trimmed_of_forall_not_blank hnone,
    Timestamp.twoDigits_padded hhour]
  show (twoDigits _).bind _ = _
  rw [Timestamp.twoDigits_padded hminute]
  show (twoDigits _).bind _ = _
  rw [hlast]
  rfl

example : (TimeOfDay.read " 3: 4:5\t").map TimeOfDay.secondOfDay = some 11045 := by decide +kernel
example : TimeOfDay.read "24:00:00" = none := by decide +kernel

namespace Timestamp

/-! ## Points in time -/

/-- `mark` finds a character where it stands. -/
theorem mark_cons {c : Char} (hc : isBlank c = false) (rest : List Char) :
    mark c (c :: rest) = some rest := by
  have hskip : skipBlanks (c :: rest) = c :: rest :=
    List.dropWhile_cons_of_neg (by simp [hc])
  rw [mark, hskip]
  exact if_pos rfl

end Timestamp

/-- A moment that has a text: its date is one that times may have, and a leap second follows the
last second of a minute. -/
structure Moment.Valid (m : Moment) : Prop where
  range : dayNumber earliest ≤ m.seconds / secondsPerDay ∧
    m.seconds / secondsPerDay ≤ dayNumber latest
  leap : m.isLeapSecond = true → m.seconds % 60 = 59

/-- The years of such dates are small enough for `longDigits`. -/
theorem natAbs_year_dateOf {number : Int} (hlow : dayNumber earliest ≤ number)
    (hhigh : number ≤ dayNumber latest) : (dateOf number).year.natAbs ≤ Timestamp.maxNumber := by
  obtain ⟨k, y, n, hd, hnumber⟩ := exists_fromMarch_dateOf number
  obtain ⟨⟨hw, hw'⟩, -⟩ := year_of_day hd.year_nonneg hd.year_lt (by omega) hd.day_lt rfl
  have hearliest : dayNumber earliest = -96465292 := by decide
  have hlatest : dayNumber latest = 95026236 := by decide
  have hmax : Timestamp.maxNumber = 9223372036854775807 := by decide
  have hy := hd.year_nonneg
  have hy' := hd.year_lt
  rw [hd.eq, hmax]
  dsimp only
  split <;> omega

namespace Timestamp

/-- `read` takes a date and a time of day in the form of `write` for the moment that they are. -/
theorem read_parts {date : Date} {hour minute second : Nat} (hdate : date.Valid)
    (hyear : date.year.natAbs ≤ maxNumber)
    (hrange : dayNumber earliest ≤ dayNumber date ∧ dayNumber date ≤ dayNumber latest)
    (hhour : hour < 24) (hminute : minute < 60) (hsecond : second ≤ 60) :
    read (String.ofList (yearText date.year ++ '-' :: padded 2 date.month ++
      '-' :: padded 2 date.day ++ 'T' :: padded 2 hour ++ ':' :: padded 2 minute ++
      ':' :: padded 2 second ++ ['Z'])) =
    some ⟨dayNumber date * secondsPerDay + (hour * 3600 + minute * 60 + (min second 59 : Nat)),
      second = 60⟩ := by
  obtain ⟨⟨hmonth, hmonth'⟩, hday, hday'⟩ := hdate
  have hday31 := daysInMonth_le date.year date.month
  have hin : dayNumber earliest ≤ (dayNumber date * secondsPerDay +
        (hour * 3600 + minute * 60 + (min second 59 : Nat)) - 0) / secondsPerDay ∧
      (dayNumber date * secondsPerDay +
        (hour * 3600 + minute * 60 + (min second 59 : Nat)) - 0) / secondsPerDay ≤
          dayNumber latest := by
    have hsame : (dayNumber date * secondsPerDay +
        (hour * 3600 + minute * 60 + (min second 59 : Nat)) - 0) / secondsPerDay =
          dayNumber date := by
      unfold secondsPerDay
      omega
    rw [hsame]
    exact hrange
  have hzone : zone (skipBlanks ['Z']) = some (0, []) := by decide +kernel
  unfold read
  simp only [String.toList_ofList, List.append_assoc, List.cons_append]
  -- The parts are read one after another, each with what is left over.
  refine Option.bind_eq_some_iff.mpr ⟨_, year_yearText hyear (by simp), ?_⟩
  refine Option.bind_eq_some_iff.mpr ⟨_, mark_cons (by decide) _, ?_⟩
  refine Option.bind_eq_some_iff.mpr ⟨_, twoDigits_padded (by omega) _, ?_⟩
  refine Option.bind_eq_some_iff.mpr ⟨_, mark_cons (by decide) _, ?_⟩
  refine Option.bind_eq_some_iff.mpr ⟨_, twoDigits_padded (by omega) _, ?_⟩
  show readTime date _ = _
  refine Option.bind_eq_some_iff.mpr ⟨_, twoDigits_padded (by omega) _, ?_⟩
  refine Option.bind_eq_some_iff.mpr ⟨_, mark_cons (by decide) _, ?_⟩
  refine Option.bind_eq_some_iff.mpr ⟨_, twoDigits_padded (by omega) _, ?_⟩
  refine Option.bind_eq_some_iff.mpr ⟨_, mark_cons (by decide) _, ?_⟩
  refine Option.bind_eq_some_iff.mpr ⟨_, twoDigits_padded (by omega) _, ?_⟩
  refine Option.bind_eq_some_iff.mpr ⟨_, rfl, ?_⟩
  refine Option.bind_eq_some_iff.mpr ⟨_, hzone, ?_⟩
  -- What was read is a time of a day that times may have.
  refine Option.bind_eq_some_iff.mpr ⟨(), if_pos rfl, ?_⟩
  refine Option.bind_eq_some_iff.mpr ⟨(), if_pos ⟨hday, hday'⟩, ?_⟩
  refine Option.bind_eq_some_iff.mpr
    ⟨(), if_pos ⟨Nat.le_of_lt_succ hhour, Nat.le_of_lt_succ hminute, hsecond⟩, ?_⟩
  refine Option.bind_eq_some_iff.mpr ⟨(), if_pos (by decide), ?_⟩
  refine Option.bind_eq_some_iff.mpr ⟨(), if_pos hrange, ?_⟩
  refine Option.bind_eq_some_iff.mpr ⟨(), if_pos hin, ?_⟩
  rw [Int.sub_zero]
  rfl

/-- `read` inverts `write`. -/
theorem read_write {m : Moment} (h : m.Valid) : read (write m) = some m := by
  have hyear := natAbs_year_dateOf h.range.1 h.range.2
  have hnumber := dayNumber_dateOf (m.seconds / secondsPerDay)
  have hleap := h.leap
  have hsplit := Int.mul_ediv_add_emod m.seconds secondsPerDay
  have hlt := Int.emod_lt_of_pos m.seconds (b := secondsPerDay) (by decide)
  obtain ⟨time, htime⟩ : ∃ time : Nat, m.seconds % secondsPerDay = time :=
    Int.eq_ofNat_of_zero_le (Int.emod_nonneg _ (by decide))
  -- What is written is the date of the day and the time of the day, a leap second apart.
  unfold write
  rw [htime, Int.toNat_natCast]
  rw [htime] at hsplit hlt
  unfold secondsPerDay at hlt hsplit
  refine (read_parts (valid_dateOf _) hyear ?_ (by omega) (by omega) ?_).trans ?_
  · rw [hnumber]
    exact h.range
  · split <;> omega
  -- Read back, they are the same day and the same second.
  · rw [hnumber]
    obtain ⟨seconds, isLeapSecond⟩ := m
    dsimp only at hleap hsplit ⊢
    unfold secondsPerDay
    cases isLeapSecond with
    | true =>
      have := hleap rfl
      simp only [if_true]
      congr 2
      · omega
      · simp; omega
    | false =>
      simp only [Bool.false_eq_true, if_false]
      congr 2
      · omega
      · simp; omega

/-! ### What is read -/

/-- What `offsetValue` reads is whole minutes. -/
theorem offsetValue_mod {cs rest : List Char} {n : Nat} (h : offsetValue cs = some (n, rest)) :
    n % 60 = 0 := by
  unfold offsetValue at h
  split at h
  · split at h
    · obtain ⟨⟨minutes, left⟩, -, heq⟩ := Option.map_eq_some_iff.mp h
      obtain ⟨rfl, -⟩ := Prod.mk.inj heq
      omega
    · cases h
  · cases h

/-- Whatever `sign` makes of it, an offset from `offsetValue` is whole minutes. -/
theorem mod_of_map_offsetValue {cs rest : List Char} {offset : Int} (sign : Nat → Int)
    (hsign : ∀ n, n % 60 = 0 → sign n % 60 = 0)
    (h : (offsetValue cs).map (fun (n, rest) => (sign n, rest)) = some (offset, rest)) :
    offset % 60 = 0 := by
  obtain ⟨⟨n, left⟩, hn, heq⟩ := Option.map_eq_some_iff.mp h
  obtain ⟨rfl, -⟩ := Prod.mk.inj heq
  exact hsign n (offsetValue_mod hn)

theorem zone_mod {cs rest : List Char} {offset : Int} (h : zone cs = some (offset, rest)) :
    offset % 60 = 0 := by
  unfold zone at h
  split at h
  · obtain ⟨rfl, -⟩ := Prod.mk.inj (Option.some.inj h)
    rfl
  · split at h
    · obtain ⟨rfl, -⟩ := Prod.mk.inj (Option.some.inj h)
      rfl
    · obtain ⟨rfl, -⟩ := Prod.mk.inj (Option.some.inj h)
      rfl
    · exact mod_of_map_offsetValue (fun n => (n : Int)) (fun n hn => by omega) h
    · exact mod_of_map_offsetValue (fun n => -(n : Int)) (fun n hn => by omega) h
    · exact mod_of_map_offsetValue (fun n => -(n : Int)) (fun n hn => by omega) h
    · cases h

/-- `readTime` gives moments that have a text: seconds are within the minute, and a leap second is
counted with the second before it. -/
theorem valid_of_readTime {date : Date} {cs : List Char} {m : Moment}
    (h : readTime date cs = some m) : m.Valid := by
  obtain ⟨⟨hour, cs₁⟩, -, h⟩ := Option.bind_eq_some_iff.mp h
  obtain ⟨cs₂, -, h⟩ := Option.bind_eq_some_iff.mp h
  obtain ⟨⟨minute, cs₃⟩, -, h⟩ := Option.bind_eq_some_iff.mp h
  obtain ⟨cs₄, -, h⟩ := Option.bind_eq_some_iff.mp h
  obtain ⟨⟨second, cs₅⟩, -, h⟩ := Option.bind_eq_some_iff.mp h
  obtain ⟨cs₆, -, h⟩ := Option.bind_eq_some_iff.mp h
  obtain ⟨⟨offset, cs₇⟩, hzone, h⟩ := Option.bind_eq_some_iff.mp h
  obtain ⟨-, -, h⟩ := Option.bind_eq_some_iff.mp h
  obtain ⟨-, -, h⟩ := Option.bind_eq_some_iff.mp h
  obtain ⟨-, -, h⟩ := Option.bind_eq_some_iff.mp h
  obtain ⟨-, -, h⟩ := Option.bind_eq_some_iff.mp h
  obtain ⟨-, -, h⟩ := Option.bind_eq_some_iff.mp h
  -- All that matters of what was read before is the second, and that the offset is whole minutes.
  obtain ⟨_, hrange, h⟩ := Option.bind_eq_some_iff.mp h
  obtain rfl := Option.some.inj h
  have hoffset := zone_mod hzone
  refine ⟨(Option.guard_eq_some' _).mp hrange, fun hleap => ?_⟩
  have hsecond : second = 60 := of_decide_eq_true hleap
  show (dayNumber date * secondsPerDay + (hour * 3600 + minute * 60 + (min second 59 : Nat)) -
    offset) % 60 = 59
  rw [hsecond]
  unfold secondsPerDay
  omega

theorem valid_of_read {text : String} {m : Moment} (h : read text = some m) : m.Valid := by
  obtain ⟨⟨year, cs₁⟩, -, h⟩ := Option.bind_eq_some_iff.mp h
  obtain ⟨cs₂, -, h⟩ := Option.bind_eq_some_iff.mp h
  obtain ⟨⟨month, cs₃⟩, -, h⟩ := Option.bind_eq_some_iff.mp h
  obtain ⟨cs₄, -, h⟩ := Option.bind_eq_some_iff.mp h
  obtain ⟨⟨day, cs₅⟩, -, h⟩ := Option.bind_eq_some_iff.mp h
  dsimp only at h
  split at h
  · exact valid_of_readTime h
  · exact valid_of_readTime h
  · exact valid_of_readTime h
  · cases h

/-- What `read` gives is written in a form that is read as the same. -/
theorem read_write_of_read {text : String} {m : Moment} (h : read text = some m) :
    read (write m) = some m := read_write (valid_of_read h)

example : (read "2024-01-01T02:30:00+02:00").map write = some "2024-01-01T00:30:00Z" := by
  decide +kernel
example : (read "2016-12-31 23:59:60.5 utc").map write = some "2016-12-31T23:59:60Z" := by
  decide +kernel

end Timestamp
end InventorySync.Calendar
