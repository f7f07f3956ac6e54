import InventorySync.Agenda
import InventorySync.Pipeline.Job
import InventorySync.Remote.Memory
import InventorySync.Timetable

/-! # Timelines

The pipeline under a clock: events arrive at set times, the timetable runs its jobs, and the
inventory answers each request after a set delay. What waits at the gate goes on after the one who
leaves it has come to its next wait. The result is the log of all requests, replies and ends. -/

namespace InventorySync

open Std (ExtTreeMap)

/-- What the inventory is to answer, and how long it takes. -/
structure TimedReply where
  latency : Nat
  reply : Reply
deriving Repr, Inhabited

/-- What an event asks for. -/
inductive Command where
  | forward (action : Action) (doc : Json)
  | flush
  | sweep
  | openWindow
  | closeWindow
  /-- Stop the timetable. -/
  | cancel
deriving Inhabited

/-- What an event has come to. -/
inductive Outcome where
  | report (report : Report)
  /-- The window was closed with so many entries seen. -/
  | closed (seen : Nat)
  | nothing
deriving Repr, Inhabited

/-- An entry of the log, with its time. -/
inductive TimelineEntry where
  | call (time : Nat) (call : Call)
  | reply (time : Nat) (uid : String) (reply : Reply)
  | windowOpened (time : Nat)
  /-- The event with this number is over; the pipeline as it is then. -/
  | over (time : Nat) (event : Nat) (outcome : Outcome) (pipeline : Pipeline)
deriving Inhabited

/-- What happens next on a timeline. -/
inductive Happening where
  | begins (event : Nat)
  | admitted (visitor : Nat)
  | replied (visitor : Nat) (uid : String) (reply : Reply)
  /-- The timetable is looked at. -/
  | due
  /-- All events are over and the time has come to stop. -/
  | closing
deriving Repr, Inhabited

/-- The state of a timeline. Visitors of the gate are numbered as the events are, and the timetable
comes after them. -/
structure Timeline where
  pipeline : Pipeline
  agenda : Agenda Happening
  commands : Array Command
  /-- The replies still to be given, by identifier. -/
  replies : ExtTreeMap String (List TimedReply)
  /-- The delay of a reply that is not set. -/
  latency : Nat
  /-- What is under way, by visitor. -/
  activities : ExtTreeMap Nat Activity
  timetable : Timetable Job
  /-- The place of the job that is running. -/
  running : Option Nat
  cancelled : Bool
  /-- Whether the timetable has stopped. -/
  stopped : Bool
  /-- Whether all events are over and the time to stop has come. -/
  closed : Bool
  /-- How many events are not over. -/
  pending : Nat
  /-- The earliest time to stop. -/
  stopAt : Nat
  log : Array TimelineEntry

namespace Timeline

/-- The visitor that the timetable is. -/
def worker (t : Timeline) : Nat := t.commands.size

/-- Write an entry into the log. -/
def note (t : Timeline) (entry : TimelineEntry) : Timeline := { t with log := t.log.push entry }

/-- Ask the inventory for a change; its reply is fixed now and comes later. -/
def ask (t : Timeline) (visitor : Nat) (action : Action) (r : Record) : Timeline :=
  let uid := r.identifier
  let t := t.note (.call t.agenda.now (.ofSend action r))
  let (answer, replies) : TimedReply × ExtTreeMap String (List TimedReply) :=
    match t.replies[uid]?.getD [] with
    | [] => (⟨t.latency, .status 200⟩, t.replies)
    | answer :: rest => (answer, t.replies.insert uid rest)
  { t with
    replies
    agenda := t.agenda.delayed answer.latency (.replied visitor uid answer.reply) }

/-- An event is over; after the last one the timeline closes when its time has come. -/
def finishEvent (t : Timeline) (event : Nat) (outcome : Outcome) : Timeline :=
  let t := t.note (.over t.agenda.now event outcome t.pipeline)
  let t := { t with pending := t.pending - 1 }
  if t.pending = 0 then { t with agenda := t.agenda.plan t.stopAt .closing } else t

/-- The run of a job is over. -/
def finishJob (t : Timeline) : Timeline :=
  match t.running with
  | none => t
  | some place =>
    { t with
      running := none
      timetable := t.timetable.ran place t.agenda.now
      agenda := t.agenda.atOnce .due }

/-- Take over what a step of an activity leaves behind: whoever was let through the gate is woken,
and a window that was opened is noted. -/
def adopt (t : Timeline) (visitor : Nat) (turn : Turn Activity) : Timeline :=
  let agenda :=
    match turn.admitted with
    | some next => t.agenda.soon (.admitted next)
    | none => t.agenda
  let t := { t with
    pipeline := turn.pipeline
    agenda
    activities := t.activities.insert visitor turn.stage }
  if turn.opensWindow then t.note (.windowOpened t.agenda.now) else t

/-- Go on from where an activity stands after a step: it waits, or is over. -/
def settle (t : Timeline) (visitor : Nat) (turn : Turn Activity) : Timeline :=
  let t := t.adopt visitor turn
  match turn.stage.wait with
  | .gate visit =>
    if t.pipeline.gate.admits visit then
      { t with agenda := t.agenda.atOnce (.admitted visitor) }
    else t
  | .reply action r => t.ask visitor action r
  | .over report =>
    let t := { t with activities := t.activities.erase visitor }
    if visitor = t.worker then t.finishJob else t.finishEvent visitor (.report report)

/-- An event begins. -/
def begin (t : Timeline) (event : Nat) : Command → Timeline
  | .forward action doc => t.settle event (Activity.beginForward t.pipeline event action doc)
  | .flush => t.settle event (Activity.beginFlush t.pipeline event)
  | .sweep => t.settle event (Activity.beginSweep t.pipeline t.pipeline.normalizer.owner)
  | .openWindow =>
    { t with pipeline.cache := t.pipeline.cache.openWindow }.finishEvent event .nothing
  | .closeWindow =>
    let seen := t.pipeline.cache.activeCount
    { t with pipeline.cache := t.pipeline.cache.closeWindow }.finishEvent event (.closed seen)
  | .cancel =>
    { t with cancelled := true, agenda := t.agenda.soon .due }.finishEvent event .nothing

/-- The timetable is looked at while no job runs: it stops if it is cancelled, runs the job that is
due, or waits for it. -/
def look (t : Timeline) : Timeline :=
  if t.running.isSome || t.stopped then t
  else if t.cancelled then { t with stopped := true }
  else
    match t.timetable.earliest?.bind fun place => t.timetable[place]?.map (place, ·) with
    | none => t
    | some (place, a) =>
      if t.agenda.now < a.next then { t with agenda := t.agenda.plan a.next .due }
      else
        let t := { t with running := some place }
        match a.job.begin? t.pipeline t.worker with
        | some turn => t.settle t.worker turn
        | none => t.finishJob

/-- One thing happens. -/
def step (t : Timeline) : Happening → Timeline
  | .begins event =>
    match t.commands[event]? with
    | some command => t.begin event command
    | none => t
  | .admitted visitor =>
    match t.activities[visitor]? with
    | some a => t.settle visitor (a.admitted t.pipeline)
    | none => t
  | .replied visitor uid reply =>
    match t.activities[visitor]? with
    | some a =>
      (t.note (.reply t.agenda.now uid reply)).settle visitor (a.replied t.pipeline reply)
    | none => t
  | .due => t.look
  | .closing => { t with closed := true, cancelled := true, agenda := t.agenda.soon .due }

/-- The beginning of a timeline: every event begins at its time, and the timetable starts. -/
def start (p : Pipeline) (events : List (Nat × Command)) (jobs : List (Schedule × Job))
    (replies : List (String × List TimedReply)) (latency stopAt : Nat) : Timeline :=
  let agenda := events.zipIdx.foldl (fun a e => a.plan e.1.1 (.begins e.2)) (.empty : Agenda _)
  let agenda := agenda.soon .due
  let agenda := if events.isEmpty then agenda.plan stopAt .closing else agenda
  { pipeline := p
    agenda
    commands := (events.map (·.2)).toArray
    replies := .ofList replies
    latency
    activities := ∅
    timetable := jobs.map fun (schedule, job) => .new schedule job 0
    running := none
    cancelled := false
    stopped := false
    closed := false
    pending := events.length
    stopAt
    log := #[] }

/-- Whether nothing is left to wait for. -/
def isOver (t : Timeline) : Bool := t.closed && t.stopped

/-- Lets things happen until the timeline is over, at most as many as `fuel` says. -/
def run : Nat → Timeline → Timeline
  | 0, t => t
  | fuel + 1, t =>
    if t.isOver then t else
    match t.agenda.next? with
    | none => t
    | some (happening, agenda) => run fuel ({ t with agenda }.step happening)

end Timeline
end InventorySync
