import InventorySync.Timetable
import Mathlib.Data.List.Basic

/-!
# Nobody waits twice for the same job

A timetable always runs the job that is due first, and a run puts the job's next due time after its
own end. So a job that ran while another one was due is due later than that one, and does not run
again before it, however long the runs take.

## Key results

- `earliest?_eq_some`: what is chosen is due no later than anything else
- `proceeds_trace`: whatever the runs take, a trace is a sequence of runs that the timetable allows
- `Patient.ran`: one run; `Proceeds.patient`: every run so far
- `started_once_while_due`: while a job is due and waits, every other one starts at most once
-/

namespace InventorySync.Timetable

variable {α : Type}

/-! ## The job that is due first -/

/-- What `earliest?` chooses is due no later than anything else. -/
theorem earliest?_eq_some {t : Timetable α} {place : Nat} (h : t.earliest? = some place) :
    ∃ a, t[place]? = some a ∧ ∀ b ∈ t, a.next ≤ b.next := by
  obtain ⟨due, hdue, hplace⟩ := Option.bind_eq_some_iff.mp h
  obtain ⟨-, hmin⟩ := List.min?_eq_some_iff.mp hdue
  obtain ⟨hlt, hnext, -⟩ := List.findIdx?_eq_some_iff_getElem.mp hplace
  refine ⟨t[place], List.getElem?_eq_getElem hlt, fun b hb => ?_⟩
  rw [beq_iff_eq.mp hnext]
  exact hmin _ (List.mem_map_of_mem hb)

theorem getElem?_ran (t : Timetable α) (place finish i : Nat) :
    (t.ran place finish)[i]? =
      if place = i then t[i]?.map (·.ran finish) else t[i]? := by
  rw [ran, List.getElem?_modify]
  split <;> simp

/-! ## Sequences of runs -/

/-- The runs that a timetable allows from a time on, whatever each of them takes: every run is of
the `earliest?` job, and begins when that is due and the run before has ended. -/
inductive Proceeds : Timetable α → Nat → List (Run α) → Prop
  | nil (t now) : Proceeds t now []
  | cons {t : Timetable α} {now place finish : Nat} {a : Appointment α} {rest : List (Run α)}
      (chosen : t.earliest? = some place) (job : t[place]? = some a)
      (ends : max now a.next ≤ finish) (onward : Proceeds (t.ran place finish) finish rest) :
      Proceeds t now (⟨a.job, place, a.next, max now a.next, finish⟩ :: rest)

/-- The runs of a `trace` are such that the timetable `Proceeds` by them. -/
theorem proceeds_trace (effort : Nat → Nat → Effort) (t : Timetable α) (now cancel : Nat) :
    Proceeds t now (t.trace effort now cancel).1 := by
  fun_induction trace effort t now cancel with
  | case1 => exact .nil _ _
  | case2 => exact .nil _ _
  | case3 => exact .nil _ _
  | case4 t now cancel place chosen a job start hc work finish cancel' runs stopped htrace ih =>
    rw [htrace] at ih
    exact .cons chosen job (Nat.le_add_right _ _) ih

/-- The timetable after several runs. -/
def after (t : Timetable α) (runs : List (Run α)) : Timetable α :=
  runs.foldl (fun t r => t.ran r.place r.finish) t

theorem after_append (t : Timetable α) (runs more : List (Run α)) :
    t.after (runs ++ more) = (t.after runs).after more := List.foldl_append ..

/-- A timetable that `Proceeds` by some runs and then others proceeds by the others `after` the
first ones. -/
theorem Proceeds.of_append {t : Timetable α} {now : Nat} {before rest : List (Run α)}
    (h : Proceeds t now (before ++ rest)) : ∃ now', Proceeds (t.after before) now' rest := by
  induction before generalizing t now with
  | nil => exact ⟨now, h⟩
  | cons r before ih =>
    cases h with
    | cons chosen job ends onward => exact ih onward

/-! ## Waiting for a turn -/

/-- How many runs of the job at a place began at a time or later. -/
def startsSince (runs : List (Run α)) (place time : Nat) : Nat :=
  runs.countP fun r => r.place = place ∧ time ≤ r.start

theorem startsSince_concat (runs : List (Run α)) (r : Run α) (place time : Nat) :
    startsSince (runs ++ [r]) place time =
      startsSince runs place time + if r.place = place ∧ time ≤ r.start then 1 else 0 := by
  simp [startsSince, List.countP_append, List.countP_singleton]

theorem startsSince_eq_zero {runs : List (Run α)} {time : Nat} (h : ∀ r ∈ runs, r.start < time)
    (place : Nat) : startsSince runs place time = 0 := by
  simp only [startsSince, List.countP_eq_zero, decide_eq_true_eq, not_and, Nat.not_le]
  exact fun r hr _ => h r hr

/-- After these runs every job has started at most once since any other one is due, and if it has,
it is due later than that one. -/
def Patient (t : Timetable α) (past : List (Run α)) : Prop :=
  ∀ p q a, q ≠ p → t[p]? = some a → startsSince past q a.next ≤ 1 ∧
    (startsSince past q a.next ≠ 0 → ∀ b, t[q]? = some b → a.next < b.next)

theorem patient_nil (t : Timetable α) : Patient t [] := by
  intro p q a _ _
  exact ⟨Nat.zero_le _, fun h => absurd rfl h⟩

/-- `ran` keeps a timetable `Patient`, with the run added to the past. -/
theorem Patient.ran {t : Timetable α} {past : List (Run α)} (h : Patient t past) {now place : Nat}
    {a : Appointment α} (begun : ∀ r ∈ past, r.start ≤ now) (chosen : t.earliest? = some place)
    (job : t[place]? = some a) {finish : Nat} (ends : max now a.next ≤ finish) :
    Patient (t.ran place finish) (past ++ [⟨a.job, place, a.next, max now a.next, finish⟩]) := by
  obtain ⟨a', ha', hmin⟩ := earliest?_eq_some chosen
  obtain rfl : a = a' := Option.some.inj (job.symm.trans ha')
  have hlater := a.lt_nextAfter finish
  intro p q b hqp hb
  rw [getElem?_ran] at hb
  rw [startsSince_concat]
  by_cases hp : place = p
  -- Since the job that ran is due again, nothing has begun: it is due later than anything that has.
  · subst hp
    rw [if_pos rfl, job, Option.map_some, Option.some.injEq] at hb
    subst hb
    have hpast : startsSince past q (a.nextAfter finish) = 0 :=
      startsSince_eq_zero (fun r hr => by have := begun r hr; omega) q
    show startsSince past q (a.nextAfter finish) + _ ≤ 1 ∧
      (startsSince past q (a.nextAfter finish) + _ ≠ 0 → _)
    rw [hpast, if_neg (fun hr => hqp hr.1.symm)]
    exact ⟨by omega, fun hne => absurd rfl hne⟩
  · rw [if_neg hp] at hb
    obtain ⟨hle, hdue⟩ := h p q b hqp hb
    by_cases hq : place = q
    -- It would not have been chosen, had it started before while the other one was due.
    · subst hq
      have hchosen : a.next ≤ b.next := hmin b (List.mem_of_getElem? hb)
      have hfirst : startsSince past place b.next = 0 := by
        by_contra hne
        have := hdue hne a job
        omega
      rw [hfirst]
      refine ⟨by split <;> omega, fun hne c hc => ?_⟩
      rw [getElem?_ran, if_pos rfl, job, Option.map_some, Option.some.injEq] at hc
      subst hc
      show b.next < a.nextAfter finish
      by_cases hstart : b.next ≤ max now a.next
      · omega
      · rw [if_neg (fun hr => hstart hr.2)] at hne
        omega
    -- For two others nothing has changed.
    · rw [if_neg (fun hr => hq hr.1), Nat.add_zero]
      refine ⟨hle, fun hne c hc => ?_⟩
      rw [getElem?_ran, if_neg hq] at hc
      exact hdue hne c hc

/-- A timetable that `Proceeds` by some runs is `Patient` `after` them. -/
theorem Proceeds.patient {t : Timetable α} {now : Nat} {past before rest : List (Run α)}
    (h : Proceeds t now (before ++ rest)) (hpast : Patient t past)
    (begun : ∀ r ∈ past, r.start ≤ now) : Patient (t.after before) (past ++ before) := by
  induction before generalizing t now past with
  | nil => rwa [List.append_nil]
  | cons r before ih =>
    cases h with
    | cons chosen job ends onward =>
      rw [List.append_cons]
      apply ih onward (hpast.ran begun chosen job ends)
      -- Whatever has begun has begun before the run that is now over has ended.
      intro r hr
      rcases List.mem_append.mp hr with hr | hr
      · have := begun r hr
        omega
      · obtain rfl := List.mem_singleton.mp hr
        exact ends

/-- Whatever the jobs, however long they run and whenever the `trace` is cancelled: until a job that
is due starts, and until the trace ends if it does not start any more, `startsSince` counts at most
one start of every other job; and a run puts the next due time of its job after its own end. -/
theorem started_once_while_due (effort : Nat → Nat → Effort) (t : Timetable α)
    (now cancel : Nat) :
    let runs := (t.trace effort now cancel).1
    (∀ before r rest, runs = before ++ r :: rest →
      (∃ a, (t.after before)[r.place]? = some a ∧ a.next = r.due) ∧
      (∀ q, q ≠ r.place → startsSince before q r.due ≤ 1) ∧
      ∃ a, (t.after (before ++ [r]))[r.place]? = some a ∧ r.finish < a.next) ∧
    ∀ p a, (t.after runs)[p]? = some a → ∀ q, q ≠ p → startsSince runs q a.next ≤ 1 := by
  intro runs
  have hruns : Proceeds t now runs := proceeds_trace effort t now cancel
  constructor
  · intro before r rest hsplit
    rw [hsplit] at hruns
    have hpatient := hruns.patient (patient_nil t) (fun _ h => nomatch h)
    obtain ⟨now', hrest⟩ := hruns.of_append
    cases hrest with
    | @cons _ _ place finish a _ chosen job ends onward =>
      refine ⟨⟨a, job, rfl⟩, fun q hq => (hpatient _ q a hq job).1, a.ran finish, ?_, ?_⟩
      · rw [after_append]
        show ((t.after before).ran place finish)[place]? = _
        rw [getElem?_ran, if_pos rfl, job, Option.map_some]
      · exact a.lt_nextAfter finish
  · intro p a hp q hq
    have hwhole : Proceeds t now (runs ++ []) := by rwa [List.append_nil]
    have hpatient := hwhole.patient (patient_nil t) (fun _ h => nomatch h)
    exact (hpatient p q a hq hp).1

/-- Three jobs. -/
def threeJobs : Timetable String :=
  [.new (.every 10) "flush" 0, .new (.after 25 100) "cleanup" 0, .new (.every 15) "stats" 0]

/-- The first run of the first job takes longer than the others have to wait. -/
def slowStart (place run : Nat) : Effort := ⟨if place = 0 ∧ run = 0 then 40 else 5, false⟩

/-- In the `trace` of `threeJobs` under `slowStart`, one job that is late starts while the other one
is due, and then it is the other one's turn. -/
theorem started_once_after_slow_start :
    ∃ before r rest, (threeJobs.trace slowStart 0 75).1 = before ++ r :: rest ∧
      r.job = "cleanup" ∧ startsSince before 2 r.due = 1 ∧
      (∀ q, q ≠ r.place → startsSince before q r.due ≤ 1) ∧
      ∃ a, (threeJobs.after (before ++ [r]))[r.place]? = some a ∧ r.finish < a.next := by
  have hruns : (threeJobs.trace slowStart 0 75).1 =
      [⟨"flush", 0, 10, 10, 50⟩, ⟨"stats", 2, 15, 50, 55⟩] ++ ⟨"cleanup", 1, 25, 55, 60⟩ ::
        [⟨"flush", 0, 60, 60, 65⟩, ⟨"flush", 0, 70, 70, 75⟩] := by
    decide +kernel
  obtain ⟨-, hothers, hnext⟩ := (started_once_while_due slowStart threeJobs 0 75).1 _ _ _ hruns
  exact ⟨_, _, _, hruns, rfl, by decide, hothers, hnext⟩

end InventorySync.Timetable
