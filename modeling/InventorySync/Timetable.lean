/-! # The timetable

Jobs that come due again and again and run one after another. The job that is due first runs first,
of several the one added first. The next due time of a job lies one period after the one it had;
when that has passed already, one period after the end of the run, so that missed occurrences
collapse into one.

Times and periods are in milliseconds. `trace` is the list of all runs, given how long each run
takes and when it is cancelled; it ends because every run moves a due time towards the
cancellation. -/

namespace InventorySync

/-- When a job runs. -/
inductive Schedule where
  /-- One period after the start and then again and again. -/
  | every (period : Nat)
  /-- After `first`, then every period. -/
  | after (first period : Nat)
deriving DecidableEq, Repr, Inhabited

namespace Schedule

/-- The time between due times, at least a millisecond. -/
def period : Schedule → Nat
  | every p | after _ p => max p 1

/-- The time before the first run. -/
def first : Schedule → Nat
  | every p => max p 1
  | after f _ => f

theorem period_pos (s : Schedule) : 0 < s.period := by
  cases s <;> simp only [period] <;> omega

end Schedule

/-- A job in the timetable. -/
structure Appointment (α : Type) where
  job : α
  period : Nat
  /-- When it is due. -/
  next : Nat
  /-- How often it has run. -/
  runs : Nat
  period_pos : 0 < period
deriving DecidableEq, Repr

namespace Appointment

variable {α : Type}

/-- A job added at the time `now`. -/
def new (schedule : Schedule) (job : α) (now : Nat) : Appointment α :=
  ⟨job, schedule.period, now + schedule.first, 0, schedule.period_pos⟩

/-- The next due time after a run that ended at `finish`. -/
def nextAfter (a : Appointment α) (finish : Nat) : Nat :=
  if a.next + a.period ≤ finish then finish + a.period else a.next + a.period

/-- The appointment after a run that ended at `finish`. -/
def ran (a : Appointment α) (finish : Nat) : Appointment α :=
  { a with next := a.nextAfter finish, runs := a.runs + 1 }

/-- A run puts the due time after its end. -/
theorem lt_nextAfter (a : Appointment α) (finish : Nat) : finish < a.nextAfter finish := by
  have := a.period_pos
  unfold nextAfter
  split <;> omega

/-- Due times are at least a period apart. -/
theorem add_period_le_nextAfter (a : Appointment α) (finish : Nat) :
    a.next + a.period ≤ a.nextAfter finish := by
  unfold nextAfter
  split <;> omega

end Appointment

/-- The jobs, in the order of adding. -/
abbrev Timetable (α : Type) := List (Appointment α)

namespace Timetable

variable {α : Type}

/-- The earliest due time. -/
def due? (t : Timetable α) : Option Nat := (t.map (·.next)).min?

/-- The place of the job that is due first, of several the first. -/
def earliest? (t : Timetable α) : Option Nat :=
  t.due?.bind fun due => t.findIdx? fun a => a.next == due

/-- The timetable after a run of the job at a place. -/
def ran (t : Timetable α) (place finish : Nat) : Timetable α := t.modify place (·.ran finish)

/-- A run of a job. -/
structure Run (α : Type) where
  job : α
  /-- The place of the job in the timetable. -/
  place : Nat
  due : Nat
  start : Nat
  finish : Nat
deriving DecidableEq, Repr

/-- What a run does. -/
structure Effort where
  /-- How long it takes. -/
  takes : Nat
  /-- Whether it cancels the timetable at its end. -/
  cancels : Bool
deriving DecidableEq, Repr, Inhabited

/-- How many due times may still come up to a limit. -/
def dueUpTo (t : Timetable α) (limit : Nat) : Nat := t.foldr (fun a n => limit + 1 - a.next + n) 0

private theorem dueUpTo_modify_lt {t : Timetable α} {limit finish i : Nat} {a : Appointment α}
    (ha : t[i]? = some a) (hle : a.next ≤ limit) :
    dueUpTo (t.modify i (·.ran finish)) limit < dueUpTo t limit := by
  induction t generalizing i with
  | nil => simp at ha
  | cons b t ih =>
    cases i with
    | zero =>
      simp only [List.getElem?_cons_zero, Option.some.injEq] at ha
      subst ha
      have h1 := b.add_period_le_nextAfter finish
      have h2 := b.period_pos
      simp only [dueUpTo, List.modify_zero_cons, List.foldr_cons, Appointment.ran]
      omega
    | succ i =>
      simp only [List.getElem?_cons_succ] at ha
      have := ih ha
      simp only [dueUpTo, List.modify_succ_cons, List.foldr_cons] at this ⊢
      omega

/-- All runs from `now` until the timetable is cancelled at `cancel`, and when it stops. A run in
progress is never interrupted: the cancellation is seen before the next run would begin. -/
def trace (effort : Nat → Nat → Effort) (t : Timetable α) (now cancel : Nat) :
    List (Run α) × Nat :=
  match t.earliest? with
  | none => ([], max now cancel)
  | some place =>
    match _h : t[place]? with
    | none => ([], max now cancel)
    | some a =>
      let start := max now a.next
      if _hc : cancel ≤ start then ([], max now cancel)
      else
        let work := effort place a.runs
        let finish := start + work.takes
        let cancel' := if work.cancels then min cancel finish else cancel
        let (runs, stopped) := trace effort (t.ran place finish) finish cancel'
        (⟨a.job, place, a.next, start, finish⟩ :: runs, stopped)
termination_by t.dueUpTo cancel
decreasing_by
  have hle : a.next ≤ cancel := by
    have := Nat.le_max_right now a.next
    omega
  have hlt : dueUpTo (t.ran place finish) cancel < dueUpTo t cancel := dueUpTo_modify_lt _h hle
  have hmono : dueUpTo (t.ran place finish) cancel' ≤ dueUpTo (t.ran place finish) cancel := by
    have hcc : cancel' ≤ cancel := by
      dsimp only [cancel']
      split <;> omega
    generalize t.ran place finish = u
    induction u with
    | nil => simp [dueUpTo]
    | cons b u ih =>
      simp only [dueUpTo, List.foldr_cons] at ih ⊢
      omega
  exact Nat.lt_of_le_of_lt hmono hlt

end Timetable
end InventorySync
