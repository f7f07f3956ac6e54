import InventorySync.Calendar.Upcoming
import Mathlib.Data.List.Basic

/-!
# The next occurrence of a time of day

The search looks at three dates and on each of them at the first instant only. What it finds lies
ahead and shows the time of day, and it is the next such instant on clocks that are never put back.
Where clocks are put back they may show the time of day earlier than that, but only out of turn:
once more, on a date before that of now, or on a date after the one that was found.

## Key results

- `search_eq_ok`: the first of the dates with an occurrence ahead
- `outOfTurn_of_between`: what shows the time of day earlier does so out of turn
- `waits_for_next_iff`: when the wait is for the next occurrence
-/

namespace InventorySync.Calendar

variable {z : Zone} {now : Instant} {text : String} {t : TimeOfDay} {start : Int} {d : Duration}

/-! ## Instants -/

namespace Instant

/-- The nanoseconds since 1970-01-01T00:00:00Z. -/
def toNanos (i : Instant) : Int := i.seconds * 1000000000 + i.nanos

/-- An instant is within one of the seconds that times may have, which are `inRange`. -/
structure Valid (i : Instant) : Prop where
  nanos_lt : i.nanos < 1000000000
  inRange : inRange i.seconds = true

end Instant

theorem inRange_iff {seconds : Int} : inRange seconds = true ↔
    dayNumber earliest ≤ seconds / secondsPerDay ∧ seconds / secondsPerDay ≤ dayNumber latest := by
  simp [inRange]

/-- Two seconds that are `inRange` are no further apart than a duration may be. -/
theorem sub_lt_of_inRange {a b : Int} (ha : inRange a = true) (hb : inRange b = true) :
    a - b < UInt64.size := by
  have hearliest : dayNumber earliest = -96465292 := by decide
  have hlatest : dayNumber latest = 95026236 := by decide
  rw [inRange_iff] at ha hb
  have hsize : UInt64.size = 18446744073709551616 := rfl
  simp only [secondsPerDay, hearliest, hlatest] at ha hb
  omega

/-! ## What the clocks show -/

namespace Zone

/-- At a moment, in nanoseconds, the clocks show a time of day. -/
def Shows (z : Zone) (t : TimeOfDay) (moment : Int) : Prop :=
  moment % 1000000000 = 0 ∧ z.localTime (moment / 1000000000) % secondsPerDay = t.secondOfDay

/-- Strictly between two moments the clocks do not show a time of day. -/
def SilentBetween (z : Zone) (t : TimeOfDay) (first last : Int) : Prop :=
  ∀ moment, first < moment → moment < last → ¬ z.Shows t moment

/-- At an instant between now and the last one the clocks are out of turn: they had come as far
before, they are behind it at the last, or they come as far again when there are no dates any
more. -/
def OutOfTurn (z : Zone) (now last instant : Int) : Prop :=
  (∃ e ≤ now, z.localTime instant ≤ z.localTime e) ∨ z.localTime last < z.localTime instant ∨
    ∃ e, z.localTime e = z.localTime instant ∧ inRange e = false

/-- Later instants have later local times. -/
def NeverPutBack (z : Zone) : Prop := ∀ a b, a < b → z.localTime a < z.localTime b

theorem mem_instantsOf_iff {time instant : Int} :
    instant ∈ z.instantsOf time ↔ z.localTime instant = time := z.mem_instantsOf time instant

/-- What `occurrence?` gives for a date is the first of the instants at which the clocks show the
time of day on it. -/
theorem of_occurrence? {day : Int} (h : z.occurrence? day t = some start) :
    z.localTime start = day * secondsPerDay + t.secondOfDay ∧ inRange start = true ∧
      ∀ e, z.localTime e = z.localTime start → start ≤ e := by
  simp only [occurrence?] at h
  split at h
  case isTrue hall =>
    obtain ⟨later, hinstants⟩ := List.head?_eq_some_iff.mp h
    have hsorted := z.instantsOf_sorted (day * secondsPerDay + t.secondOfDay)
    have hmem : start ∈ z.instantsOf (day * secondsPerDay + t.secondOfDay) := by
      rw [hinstants]
      exact List.mem_cons_self
    have hshown := mem_instantsOf_iff.mp hmem
    refine ⟨hshown, List.all_eq_true.mp hall start hmem, fun e he => ?_⟩
    rw [hshown, ← mem_instantsOf_iff, hinstants, List.mem_cons] at he
    rw [hinstants, List.pairwise_cons] at hsorted
    rcases he with rfl | he
    · exact Int.le_refl _
    · exact Int.le_of_lt (hsorted.1 e he)
  case isFalse => cases h

/-- Where the clocks show a time of day on a date that has no `occurrence?`, they show it beyond all
dates as well. -/
theorem exists_not_inRange {day instant : Int} (h : z.occurrence? day t = none)
    (hshown : z.localTime instant = day * secondsPerDay + t.secondOfDay) :
    ∃ e, z.localTime e = z.localTime instant ∧ inRange e = false := by
  have hmem := mem_instantsOf_iff.mpr hshown
  simp only [occurrence?] at h
  split at h
  case isTrue =>
    rw [List.head?_eq_none_iff.mp h] at hmem
    cases hmem
  case isFalse hall =>
    obtain ⟨e, he, hrange⟩ := List.all_eq_false.mp (Bool.eq_false_iff.mpr hall)
    exact ⟨e, (mem_instantsOf_iff.mp he).trans hshown.symm, Bool.eq_false_iff.mpr hrange⟩

end Zone

/-! ## The search -/

/-- The span that is waited for an occurrence. -/
def spanTo (now : Instant) (t : TimeOfDay) (start : Int) : Duration :=
  let nanos := (nanosUntil now t start).toNat
  .ofParts (nanos / 1000000000) (nanos % 1000000000)

/-- What `search` finds is the occurrence on the first of its dates that has one ahead. -/
theorem search_eq_ok {dates : Nat} {day : Int} (h : search z now text t dates day = .ok d) :
    ∃ k < dates, ∃ start, z.occurrence? (day + k) t = some start ∧ isAfter now t start = true ∧
      d = spanTo now t start ∧
      ∀ j < k, ∀ s, z.occurrence? (day + j) t = some s → isAfter now t s = false := by
  induction dates generalizing day with
  | zero => cases h
  | succ dates ih =>
    unfold search at h
    split at h
    case h_1 start hfound =>
      obtain ⟨hstart, hafter⟩ := Option.filter_eq_some_iff.mp hfound
      refine ⟨0, Nat.succ_pos _, start, by simpa using hstart, hafter, ?_, nofun⟩
      exact (Except.ok.inj h).symm
    case h_2 hnone =>
      split at h
      case isTrue => cases h
      case isFalse =>
        obtain ⟨k, hk, start, hstart, hafter, hd, hbefore⟩ := ih h
        -- The dates of the rest of the search are counted from the next one.
        have hshift : ∀ j : Nat, day + 1 + j = day + (j + 1 : Nat) := by intro j; omega
        refine ⟨k + 1, Nat.succ_lt_succ hk, start, hshift k ▸ hstart, hafter, hd, ?_⟩
        intro j hj s hs
        cases j with
        | zero =>
          rw [Int.natCast_zero, Int.add_zero] at hs
          exact Bool.eq_false_iff.mpr (Option.filter_eq_none_iff.mp hnone s hs)
        | succ j => exact hbefore j (Nat.lt_of_succ_lt_succ hj) s (hshift j ▸ hs)

theorem search_of_occurrence {dates : Nat} {day : Int} (hstart : z.occurrence? day t = some start)
    (hafter : isAfter now t start = true) :
    search z now text t (dates + 1) day = .ok (spanTo now t start) := by
  have hfound : (z.occurrence? day t).filter (isAfter now t) = some start := by
    rw [Option.filter_eq_some_iff]
    exact ⟨hstart, hafter⟩
  rw [search, hfound]
  rfl

theorem search_of_not_after {dates : Nat} {day : Int} (hday : day < dayNumber latest)
    (hnot : ∀ s, z.occurrence? day t = some s → isAfter now t s = false) :
    search z now text t (dates + 1) day = search z now text t dates (day + 1) := by
  have hnone : (z.occurrence? day t).filter (isAfter now t) = none := by
    rw [Option.filter_eq_none_iff]
    exact fun s hs => Bool.eq_false_iff.mp (hnot s hs)
  rw [search, hnone]
  exact if_neg (Int.not_le.mpr hday)

/-! ## The wait -/

section

variable (hnow : now.Valid) (hsecond : t.second ≤ 59)

include hsecond in
theorem isLeapSecond_eq_false : t.isLeapSecond = false := by
  rw [TimeOfDay.isLeapSecond, beq_eq_false_iff_ne]
  omega

include hsecond in
theorem isAfter_iff : isAfter now t start = true ↔ now.seconds < start := by
  simp [isAfter, isLeapSecond_eq_false hsecond]

include hnow hsecond in
/-- The wait `spanTo` an occurrence ends with its first moment. -/
theorem toNanos_spanTo (hstart : inRange start = true) (hafter : now.seconds < start) :
    now.toNanos + (spanTo now t start).toNanos = start * 1000000000 := by
  have hnanos := hnow.nanos_lt
  have hlt := sub_lt_of_inRange hstart hnow.inRange
  have huntil : nanosUntil now t start =
      (start - now.seconds) * 1000000000 - now.nanos := by
    simp [nanosUntil, isLeapSecond_eq_false hsecond]
  rw [spanTo, huntil, Duration.toNanos_ofParts, Instant.toNanos]
  omega

/-- Between now and the occurrence that is found, an instant that shows the time of day is
`OutOfTurn`. -/
theorem outOfTurn_of_between {k : Nat} {instant : Int}
    (hstart : z.occurrence? (z.localTime now.seconds / secondsPerDay + k) t = some start)
    (hbefore : ∀ j < k, ∀ s,
      z.occurrence? (z.localTime now.seconds / secondsPerDay + j) t = some s → s ≤ now.seconds)
    (hlt : instant < start) (hshown : z.localTime instant % secondsPerDay = t.secondOfDay) :
    z.OutOfTurn now.seconds start instant := by
  obtain ⟨hat, -, hfirst⟩ := Zone.of_occurrence? hstart
  have htod := t.secondOfDay_lt
  have hlocal : z.localTime instant =
      z.localTime instant / secondsPerDay * secondsPerDay + t.secondOfDay := by
    rw [← hshown, Int.ediv_mul_add_emod]
  -- The date of the instant lies before, among or after the dates looked at.
  by_cases hearly : z.localTime instant / secondsPerDay < z.localTime now.seconds / secondsPerDay
  · refine .inl ⟨now.seconds, Int.le_refl _, ?_⟩
    simp only [secondsPerDay] at hearly hlocal ⊢
    omega
  by_cases hlate : z.localTime now.seconds / secondsPerDay + k < z.localTime instant / secondsPerDay
  · refine .inr (.inl ?_)
    rw [hat, hlocal]
    simp only [secondsPerDay] at hlate ⊢
    omega
  obtain ⟨j, hj⟩ : ∃ j : Nat, z.localTime instant / secondsPerDay =
      z.localTime now.seconds / secondsPerDay + j :=
    ⟨(z.localTime instant / secondsPerDay - z.localTime now.seconds / secondsPerDay).toNat,
      by omega⟩
  have hjk : j < k := by
    -- On the date of the occurrence nothing comes before it.
    have hne : j ≠ k := by
      rintro rfl
      have := hfirst instant (by rw [hlocal, hj, hat])
      omega
    omega
  cases hdate : z.occurrence? (z.localTime now.seconds / secondsPerDay + j) t with
  | none => exact .inr (.inr (Zone.exists_not_inRange hdate (by rw [← hj]; exact hlocal)))
  | some s =>
    obtain ⟨hs, -, -⟩ := Zone.of_occurrence? hdate
    refine .inl ⟨s, hbefore j hjk s hdate, ?_⟩
    exact Int.le_of_eq (hlocal.trans (by rw [hs, hj]))

include hnow in
/-- On clocks that are `NeverPutBack` nothing is `OutOfTurn`. -/
theorem not_outOfTurn (hz : z.NeverPutBack) {last instant : Int}
    (hlast : inRange last = true) (hafter : now.seconds < instant) (hbefore : instant < last) :
    ¬ z.OutOfTurn now.seconds last instant := by
  rintro (⟨e, he, hle⟩ | hlt | ⟨e, he, hrange⟩)
  · have hlater := hz e instant (by omega)
    omega
  · have hlater := hz instant last hbefore
    omega
  · -- It is between two seconds in range.
    obtain rfl : e = instant := by
      rcases Int.lt_trichotomy e instant with hlt | heq | hlt
      · exact absurd he (Int.ne_of_lt (hz _ _ hlt))
      · exact heq
      · exact absurd he.symm (Int.ne_of_lt (hz _ _ hlt))
    have hnowRange := inRange_iff.mp hnow.inRange
    have hlastRange := inRange_iff.mp hlast
    refine absurd (inRange_iff.mpr ?_) (Bool.eq_false_iff.mp hrange)
    simp only [secondsPerDay] at hnowRange hlastRange ⊢
    omega

end

/-! ## Clocks that are always ahead by the same -/

theorem localTime_fixed (offset instant : Int) :
    (Zone.fixed offset).localTime instant = instant + offset := rfl

theorem occurrence?_fixed (offset day : Int) (t : TimeOfDay) :
    (Zone.fixed offset).occurrence? day t =
      if inRange (day * secondsPerDay + t.secondOfDay - offset) = true then
        some (day * secondsPerDay + t.secondOfDay - offset)
      else none := by
  simp [Zone.occurrence?, Zone.fixed]

/-- On clocks that are `fixed` an occurrence is found on the date of now or on the one after it. -/
theorem exists_search_fixed {offset : Int} (text : String) (hnow : now.Valid)
    (hsecond : t.second ≤ 59)
    (hday : inRange (now.seconds + secondsPerDay) = true)
    (hlocal : inRange ((Zone.fixed offset).localTime (now.seconds + secondsPerDay)) = true) :
    ∃ start, search (.fixed offset) now text t triedDates
        ((Zone.fixed offset).localTime now.seconds / secondsPerDay) = .ok (spanTo now t start) ∧
      inRange start = true ∧ now.seconds < start ∧ start ≤ now.seconds + secondsPerDay := by
  have hnowRange := inRange_iff.mp hnow.inRange
  have hdayRange := inRange_iff.mp hday
  have hlocalRange := inRange_iff.mp hlocal
  have htod := t.secondOfDay_lt
  rw [localTime_fixed] at hlocalRange ⊢
  -- `first` is the occurrence on today's date, and the next one is a day later.
  obtain ⟨day, hdate⟩ : ∃ day, day = (now.seconds + offset) / secondsPerDay := ⟨_, rfl⟩
  obtain ⟨first, hfirst⟩ : ∃ first, first = day * secondsPerDay + t.secondOfDay - offset := ⟨_, rfl⟩
  have hnext : (day + 1) * secondsPerDay + t.secondOfDay - offset = first + secondsPerDay := by
    simp only [secondsPerDay] at hfirst ⊢
    omega
  rw [← hdate]
  simp only [secondsPerDay] at hnowRange hdayRange hlocalRange hdate hfirst hnext ⊢
  by_cases hahead : now.seconds < first
  -- It is still to come, so the search ends at the first date.
  · have hrange : inRange first = true := by
      rw [inRange_iff]
      simp only [secondsPerDay]
      omega
    refine ⟨first, search_of_occurrence ?_ ((isAfter_iff hsecond).mpr hahead), hrange, hahead, ?_⟩
    · rw [occurrence?_fixed]
      simp only [secondsPerDay, ← hfirst, hrange, if_true]
    · omega
  -- It is past, and the search goes on to the second date.
  · have hrange : inRange (first + 86400) = true := by
      rw [inRange_iff]
      simp only [secondsPerDay]
      omega
    refine ⟨first + 86400, ?_, hrange, by omega, by omega⟩
    rw [triedDates, search_of_not_after (by omega)]
    · refine search_of_occurrence ?_ ((isAfter_iff hsecond).mpr (by omega))
      rw [occurrence?_fixed]
      simp only [secondsPerDay, hnext, hrange, if_true]
    · intro s hs
      rw [occurrence?_fixed] at hs
      simp only [secondsPerDay, ← hfirst] at hs
      split at hs
      · rw [← Option.some.inj hs, ← Bool.not_eq_true, isAfter_iff hsecond]
        exact hahead
      · cases hs

theorem neverPutBack_fixed (offset : Int) : (Zone.fixed offset).NeverPutBack := by
  intro a b hab
  rw [localTime_fixed, localTime_fixed]
  omega

theorem neverPutBack_shifting {shiftAt before after : Int} (h : before ≤ after) :
    (Zone.shifting shiftAt before after).NeverPutBack := by
  intro a b hab
  simp only [Zone.localTime, Zone.shifting]
  split <;> split <;> omega

/-! ## Now and then -/

/-- What the wait by `until?` ends with, and that the instants it passes over are `OutOfTurn`. -/
theorem of_until? (hread : TimeOfDay.read text = some t) (hsecond : t.second ≤ 59)
    (hnow : now.Valid) (h : until? z now text = .ok d) :
    ∃ last, now.toNanos + d.toNanos = last * 1000000000 ∧ inRange last = true ∧
      now.seconds < last ∧ z.localTime last % secondsPerDay = t.secondOfDay ∧
      ∀ instant, instant < last → z.localTime instant % secondsPerDay = t.secondOfDay →
        z.OutOfTurn now.seconds last instant := by
  simp only [until?, hread] at h
  obtain ⟨k, -, last, hlast, hafter, rfl, hbefore⟩ := search_eq_ok h
  obtain ⟨hat, hrange, -⟩ := Zone.of_occurrence? hlast
  rw [isAfter_iff hsecond] at hafter
  refine ⟨last, toNanos_spanTo hnow hsecond hrange hafter, hrange, hafter, ?_, ?_⟩
  · have htod := t.secondOfDay_lt
    simp only [secondsPerDay] at hat ⊢
    omega
  · intro instant hlt hshown
    refine outOfTurn_of_between hlast (fun j hj s hs => ?_) hlt hshown
    have := hbefore j hj s hs
    rw [← Bool.not_eq_true, isAfter_iff hsecond] at this
    omega

/-- On clocks that are `NeverPutBack` the time of day is not shown during the wait by `until?`. -/
theorem silentBetween_of_neverPutBack (hread : TimeOfDay.read text = some t)
    (hsecond : t.second ≤ 59) (hnow : now.Valid) (hz : z.NeverPutBack)
    (h : until? z now text = .ok d) :
    z.SilentBetween t now.toNanos (now.toNanos + d.toNanos) := by
  obtain ⟨last, hreached, hrange, -, -, hpassed⟩ := of_until? hread hsecond hnow h
  have hnanos := hnow.nanos_lt
  have htoNanos : now.toNanos = now.seconds * 1000000000 + now.nanos := rfl
  rintro moment hfrom hto ⟨hwhole, hshown⟩
  exact not_outOfTurn hnow hz hrange (by omega) (by omega)
    (hpassed (moment / 1000000000) (by omega) hshown)

/-- A wait by `until?` for a time of day, no leap second, ends ahead of now at a moment at which the
clocks show it. This is the next such moment exactly if no instant before it is `OutOfTurn`; so it
is on all clocks that are `NeverPutBack`. On `fixed` clocks there is a wait, of a day at most,
whenever there are dates for so long. -/
theorem waits_for_next_iff (hread : TimeOfDay.read text = some t) (hsecond : t.second ≤ 59)
    (hnow : now.Valid) :
    (∀ (z : Zone) (d : Duration), until? z now text = .ok d →
      let reached := now.toNanos + d.toNanos
      0 < d.toNanos ∧ z.Shows t reached ∧
      (z.SilentBetween t now.toNanos reached ↔
        ¬ ∃ moment, now.toNanos < moment ∧ moment < reached ∧ z.Shows t moment ∧
          z.OutOfTurn now.seconds (reached / 1000000000) (moment / 1000000000)) ∧
      (z.NeverPutBack → z.SilentBetween t now.toNanos reached)) ∧
    ∀ offset : Int, inRange (now.seconds + secondsPerDay) = true →
      inRange ((Zone.fixed offset).localTime (now.seconds + secondsPerDay)) = true →
      ∃ d, until? (.fixed offset) now text = .ok d ∧ d.toNanos ≤ 24 * 3600 * 1000000000 ∧
        (Zone.fixed offset).SilentBetween t now.toNanos (now.toNanos + d.toNanos) := by
  have hnanos := hnow.nanos_lt
  have htoNanos : now.toNanos = now.seconds * 1000000000 + now.nanos := rfl
  refine ⟨fun z d h => ?_, fun offset hday hlocal => ?_⟩
  · intro reached
    obtain ⟨last, hreached, -, hafter, hshows, hpassed⟩ := of_until? hread hsecond hnow h
    have hlast : reached / 1000000000 = last := by omega
    refine ⟨by omega, ⟨by omega, by rw [hlast]; exact hshows⟩, ⟨?_, ?_⟩,
      fun hz => silentBetween_of_neverPutBack hread hsecond hnow hz h⟩
    · rintro hsilent ⟨moment, hfrom, hto, hshown, -⟩
      exact hsilent moment hfrom hto hshown
    · -- Nothing but what is out of turn can have been passed over.
      intro hnone moment hfrom hto hshown
      refine hnone ⟨moment, hfrom, hto, hshown, ?_⟩
      rw [hlast]
      exact hpassed _ (by omega) hshown.2
  · obtain ⟨start, hsearch, hrange, hafter, hle⟩ :=
      exists_search_fixed text hnow hsecond hday hlocal
    have huntil : until? (.fixed offset) now text = .ok (spanTo now t start) := by
      simp only [until?, hread, hsearch]
    have hspan := toNanos_spanTo hnow hsecond hrange hafter
    refine ⟨_, huntil, ?_,
      silentBetween_of_neverPutBack hread hsecond hnow (neverPutBack_fixed offset) huntil⟩
    simp only [secondsPerDay] at hle
    omega

/-- Clocks that are put forward over the time of day do not show it on that date. -/
theorem waits_for_next_over_skipped_hour :
    let z := Zone.shifting 1711846800 3600 7200
    let now : Instant := ⟨1711843200, 1⟩
    let t : TimeOfDay := { hour := 2, minute := 30, second := 0 }
    let d := Duration.ofParts 88199 999999999
    TimeOfDay.read "02:30:00" = some t ∧ t.second ≤ 59 ∧ now.Valid ∧
    until? z now "02:30:00" = .ok d ∧ z.Shows t (now.toNanos + d.toNanos) ∧
    z.SilentBetween t now.toNanos (now.toNanos + d.toNanos) := by
  intro z now t d
  have hread : TimeOfDay.read "02:30:00" = some t := by decide +kernel
  have hsecond : t.second ≤ 59 := by decide
  have hnow : now.Valid := ⟨by decide, by decide⟩
  have huntil : until? z now "02:30:00" = .ok d := by decide +kernel
  obtain ⟨-, hshows, -, hnext⟩ := (waits_for_next_iff hread hsecond hnow).1 z d huntil
  exact ⟨hread, hsecond, hnow, huntil, hshows, hnext (neverPutBack_shifting (by decide))⟩

/-- Clocks that are put back show the time of day again after three quarters of an hour, and the
wait is a day longer. -/
theorem repeated_hour_passed_over :
    let z := Zone.shifting 1729990800 7200 3600
    let now : Instant := ⟨1729989900, 0⟩
    let t : TimeOfDay := { hour := 2, minute := 30, second := 0 }
    TimeOfDay.read "02:30:00" = some t ∧ now.Valid ∧
    until? z now "02:30:00" = .ok (.ofSeconds 89100) ∧
    z.Shows t (now.toNanos + (Duration.ofSeconds 2700).toNanos) := by
  intro z now t
  refine ⟨by decide +kernel, ⟨by decide, by decide⟩, by decide +kernel, ?_⟩
  constructor <;> decide +kernel

end InventorySync.Calendar
