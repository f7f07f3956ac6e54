import InventorySync.Pipeline.Flush
import InventorySync.Pipeline.Forward
import InventorySync.Pipeline.Sweep

/-! # Activities

A live event, a flush or a sweep, as one type: what it waits for, and how it goes on when that has
come. Any interleaving of activities is a sequence of such steps. `Activity.runAlone` is the one
in which nothing else happens in between and every reply is there at once. -/

namespace InventorySync

/-- Something that sends, and where it stands. -/
inductive Activity where
  | forward (stage : Forwarding)
  | flush (stage : Flushing)
  | sweep (stage : Sweeping)
deriving DecidableEq, Repr, Inhabited

/-- What a finished activity reports. -/
inductive Report where
  | forwarded (outcome : Forwarded)
  | flushed (report : FlushReport)
  | swept (report : SweepReport)
deriving DecidableEq, Repr, Inhabited

/-- What an activity waits for. -/
inductive Wait where
  /-- To be let through the gate. -/
  | gate (visit : Visit)
  /-- The reply to a request. -/
  | reply (action : Action) (record : Record)
  /-- Nothing; it is over. -/
  | over (report : Report)
deriving DecidableEq, Repr, Inhabited

/-- The same turn of an activity that is one of several kinds. -/
def Turn.map {α β : Type} (f : α → β) (t : Turn α) : Turn β :=
  ⟨t.pipeline, f t.stage, t.admitted, t.opensWindow⟩

namespace Activity

/-- What the activity waits for. -/
def wait : Activity → Wait
  | .forward (.entering visit _ _) => .gate visit
  | .forward (.sending _ action record) => .reply action record
  | .forward (.done outcome) => .over (.forwarded outcome)
  | .flush (.entering visit _ _ _) => .gate visit
  | .flush (.sending _ item _ _) => .reply item.action item.record
  | .flush (.done report) => .over (.flushed report)
  | .sweep (.sending owner id _ _) => .reply .delete (.tombstone id owner)
  | .sweep (.done report) => .over (.swept report)

/-- The gate is free for it. Nothing happens to an activity that waits for something else. -/
def admitted (p : Pipeline) : Activity → Turn Activity
  | .forward (.entering visit action record) =>
    (Forwarding.admitted p visit action record).map .forward
  | .flush (.entering visit item rest sent) =>
    (Flushing.admitted p visit item rest sent).map .flush
  | a => ⟨p, a, none, false⟩

/-- Its request is answered. Nothing happens to an activity that waits for something else. -/
def replied (p : Pipeline) (reply : Reply) : Activity → Turn Activity
  | .forward (.sending visit action record) =>
    (Forwarding.replied p visit action record reply).map .forward
  | .flush (.sending visit item rest sent) =>
    (Flushing.replied p visit item rest sent reply).map .flush
  | .sweep (.sending owner id rest report) =>
    (Sweeping.replied p owner id rest report reply).map .sweep
  | a => ⟨p, a, none, false⟩

/-! ## Beginnings -/

/-- An event arrives. -/
def beginForward (p : Pipeline) (visitor : Nat) (action : Action) (doc : Json) : Turn Activity :=
  (Forwarding.start p visitor action doc).map .forward

/-- A flush begins. -/
def beginFlush (p : Pipeline) (visitor : Nat) : Turn Activity :=
  (Flushing.start p visitor).map .flush

/-- A sweep begins. -/
def beginSweep (p : Pipeline) (owner : Owner) : Turn Activity :=
  (Sweeping.start p owner).map .sweep

/-! ## Ends -/

/-- How many steps are left at most. -/
def stepsLeft : Activity → Nat
  | .forward s => s.stepsLeft
  | .flush s => s.stepsLeft
  | .sweep s => s.stepsLeft

/-- Being let through the gate brings an activity that waits for it nearer to its end. -/
theorem stepsLeft_admitted {p : Pipeline} {a : Activity} {visit : Visit}
    (h : a.wait = .gate visit) : (a.admitted p).stage.stepsLeft < a.stepsLeft := by
  match a with
  | .forward (.entering v action record) =>
    simp only [admitted, Forwarding.admitted, Turn.map]
    split <;> simp [stepsLeft, Forwarding.stepsLeft]
  | .flush (.entering v item rest sent) =>
    simp only [admitted, Flushing.admitted, Turn.map]
    split
    · simp [stepsLeft, Flushing.stepsLeft]
    · simp only [stepsLeft, Flushing.stepsLeft_next]
      simp [Flushing.stepsLeft]
  | .forward (.sending ..) | .forward (.done _) | .flush (.sending ..) | .flush (.done _)
  | .sweep (.sending ..) | .sweep (.done _) => simp [wait] at h

/-- A reply brings an activity that waits for it nearer to its end. -/
theorem stepsLeft_replied {p : Pipeline} {a : Activity} {action : Action} {record : Record}
    (reply : Reply) (h : a.wait = .reply action record) :
    (a.replied p reply).stage.stepsLeft < a.stepsLeft := by
  match a with
  | .forward (.sending v action record) =>
    simp only [replied, Forwarding.replied, Turn.map]
    split <;> simp [stepsLeft, Forwarding.stepsLeft]
  | .flush (.sending v item rest sent) =>
    simp only [replied, Flushing.replied, Turn.map]
    split
    · simp only [stepsLeft, Flushing.stepsLeft_next]
      simp [Flushing.stepsLeft]
    · simp [stepsLeft, Flushing.stepsLeft]
  | .sweep (.sending owner id rest report) =>
    simp only [replied, Sweeping.replied, Turn.map]
    split <;> (simp only [stepsLeft, Sweeping.stepsLeft_next]; simp [Sweeping.stepsLeft])
  | .forward (.entering ..) | .forward (.done _) | .flush (.entering ..) | .flush (.done _)
  | .sweep (.done _) => simp [wait] at h

/-- Runs an activity to its end while nothing else happens: the gate is always free and every
request is answered at once by `respond`. -/
def runAlone {ρ : Type} (respond : ρ → Action → Record → Reply × ρ) (remote : ρ) (p : Pipeline)
    (a : Activity) : Report × Pipeline × ρ :=
  match _h : a.wait with
  | .over report => (report, p, remote)
  | .gate _ =>
    let t := a.admitted p
    runAlone respond remote t.pipeline t.stage
  | .reply action record =>
    let (reply, remote) := respond remote action record
    let t := a.replied p reply
    runAlone respond remote t.pipeline t.stage
termination_by a.stepsLeft
decreasing_by
  · exact stepsLeft_admitted _h
  · exact stepsLeft_replied _ _h

/-- The turns of such a run, from one on. -/
def turnsAlone {ρ : Type} (respond : ρ → Action → Record → Reply × ρ) (remote : ρ)
    (t : Turn Activity) : List (Turn Activity) :=
  match _h : t.stage.wait with
  | .over _ => [t]
  | .gate _ => t :: turnsAlone respond remote (t.stage.admitted t.pipeline)
  | .reply action record =>
    let (reply, remote) := respond remote action record
    t :: turnsAlone respond remote (t.stage.replied t.pipeline reply)
termination_by t.stage.stepsLeft
decreasing_by
  · exact stepsLeft_admitted _h
  · exact stepsLeft_replied _ _h

end Activity

/-- The cache as it is found by whoever is told of windows, each time. -/
def windowsOpened (turns : List (Turn Activity)) : List ChangeCache :=
  (turns.filter (·.opensWindow)).map (·.pipeline.cache)

end InventorySync
