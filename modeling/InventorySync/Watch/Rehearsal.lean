import InventorySync.Agenda
import InventorySync.Watch.Script
import InventorySync.Watch.Watcher
import Std.Data.ExtTreeMap

/-! # Rehearsals

Watchers under a clock, each in front of a scripted source, with a handler that takes no time. The
result is the log of all requests and all objects handed over. -/

namespace InventorySync

open Std (ExtTreeMap)

/-- What a watcher has done. -/
inductive WatchDeed where
  | askedPage (limit : Nat) (token : Option String)
  | askedStream (version : String)
  | handled (action : Action) (object : Json)
deriving DecidableEq, Repr, Inhabited

/-- An entry of the log. -/
structure WatchEntry where
  time : Nat
  /-- The number of the watcher. -/
  post : Nat
  deed : WatchDeed
deriving DecidableEq, Repr, Inhabited

/-- A watcher and what it is connected to. -/
structure Post where
  watcher : Watcher
  /-- Which source it watches. -/
  path : String
  /-- The number of the latest request; an answer to an older one comes too late. -/
  request : Nat
  /-- What is left of the open stream. -/
  stream : StreamScript
deriving DecidableEq, Repr

/-- What happens next in a rehearsal. -/
inductive Cue where
  /-- A watcher begins, or begins its next step. -/
  | begin (post : Nat)
  /-- A request arrives at its source. -/
  | arrival (post request : Nat)
  | answer (post request : Nat) (answer : Answer)
  /-- The stream goes on after a delay, with the event that was delayed. -/
  | stream (post request : Nat) (event : Option StreamEvent)
  /-- A watcher looks at the signals. -/
  | look (post : Nat)
  /-- Everyone is asked to start over. -/
  | resync
  /-- Everyone is asked to stop. -/
  | cancel
  /-- A watcher gives up the step that is under way, if it is still this one. -/
  | giveUp (post step : Nat)
deriving DecidableEq, Repr, Inhabited

/-- The state of a rehearsal. -/
structure Rehearsal where
  posts : Array Post
  sources : ExtTreeMap String SourceScript
  signals : Signals
  /-- Whether requests to start over still reach the watchers. -/
  connected : Bool
  agenda : Agenda Cue
  /-- Whether a watcher begins its next step by itself. -/
  runsOn : Bool
  /-- How many steps were begun one by one. -/
  steps : Nat
  /-- Whether the latest of them was given up. -/
  gaveUp : Bool
  log : Array WatchEntry

namespace Rehearsal

/-- Watchers and their sources before anything has happened. -/
def new (posts : List (Watcher × String)) (sources : List (String × SourceScript))
    (runsOn : Bool) : Rehearsal :=
  { posts := (posts.map fun (watcher, path) => ⟨watcher, path, 0, ⟨[], false⟩⟩).toArray
    sources := .ofList sources
    signals := {}
    connected := true
    agenda := .empty
    runsOn
    steps := 0
    gaveUp := false
    log := #[] }

/-- Put down what is to happen. -/
def plan (r : Rehearsal) (time : Nat) (cue : Cue) : Rehearsal :=
  { r with agenda := r.agenda.plan time cue }

/-- Write into the log what a watcher does. -/
def note (r : Rehearsal) (i : Nat) (deed : WatchDeed) : Rehearsal :=
  { r with log := r.log.push ⟨r.agenda.now, i, deed⟩ }

/-- Every watcher is to look at the signals. -/
def notify (r : Rehearsal) : Rehearsal :=
  { r with agenda := (List.range r.posts.size).foldl (fun a i => a.soon (.look i)) r.agenda }

/-- Everyone is asked to start over. -/
def resync (r : Rehearsal) : Rehearsal :=
  if r.connected then { r with signals.resyncs := r.signals.resyncs + 1 }.notify else r

/-- Everyone is asked to stop. -/
def cancel (r : Rehearsal) : Rehearsal := { r with signals.cancelled := true }.notify

/-- The signals of a reply are sent. -/
def affect (r : Rehearsal) (e : Effects) : Rehearsal :=
  let r := if e.resync then r.resync else r
  if e.cancel then r.cancel else r

/-- The next entries of a stream up to the one that brings an event or takes time. -/
def poll (r : Rehearsal) (i request : Nat) (closes : Bool) :
    List (Scripted (Option StreamEvent)) → Rehearsal × List (Scripted (Option StreamEvent))
  | [] =>
    if closes then
      ({ r with agenda := r.agenda.atOnce (.answer i request (.event .closed)) }, [])
    else (r, [])
  | entry :: rest =>
    let r := r.affect entry.effects
    if entry.effects.delay ≠ 0 then
      ({ r with agenda := r.agenda.after entry.effects.delay (.stream i request entry.value) },
        rest)
    else
      match entry.value with
      | none => r.poll i request closes rest
      | some event =>
        ({ r with agenda := r.agenda.atOnce (.answer i request (.event event)) }, rest)

/-- Put a post back. -/
def setPost (r : Rehearsal) (i : Nat) (post : Post) : Rehearsal :=
  { r with posts := r.posts.setIfInBounds i post }

/-- A reply to a request, once its effects have passed. -/
def reply (r : Rehearsal) (i request : Nat) (e : Effects) (answer : Answer) : Rehearsal :=
  let r := r.affect e
  { r with agenda := r.agenda.delayed e.delay (.answer i request answer) }

/-- The watcher waits for the next event of its stream. -/
def pollPost (r : Rehearsal) (i : Nat) (post : Post) : Rehearsal :=
  let (r, events) := r.poll i post.request post.stream.closes post.stream.events
  r.setPost i { post with stream.events := events }

/-- The request of a watcher arrives at its source. -/
def arrive (r : Rehearsal) (i : Nat) (post : Post) (source : SourceScript) : Rehearsal :=
  match post.watcher.wait with
  | some (.page limit token) =>
    let (answer, source) := source.nextList
    let r := { r with sources := r.sources.insert post.path source }.note i (.askedPage limit token)
    match answer with
    | none => r
    | some ⟨effects, page⟩ => r.reply i post.request effects (.page page)
  | some (.watch version) =>
    let (answer, source) := source.nextWatch
    let r := { r with sources := r.sources.insert post.path source }.note i (.askedStream version)
    match answer with
    | none => r
    | some ⟨effects, stream⟩ =>
      (r.setPost i { post with stream := stream.getD ⟨[], false⟩ }).reply i post.request effects
        (.opened stream.isSome)
  | _ => r

/-- The watcher has come to a new request, or to the end of a step. -/
def attend (r : Rehearsal) (i : Nat) (post : Post) (watcher : Watcher) : Rehearsal :=
  let request := post.request + 1
  let post := { post with watcher, request }
  let r := r.setPost i post
  match watcher.wait with
  | none =>
    if r.runsOn && !watcher.isStopped then { r with agenda := r.agenda.atOnce (.begin i) } else r
  | some (.page _ _) | some (.watch _) =>
    match r.sources[post.path]? with
    | none => r
    | some source =>
      if source.isRemote then { r with agenda := r.agenda.soon (.arrival i request) }
      else r.arrive i post source
  | some .event => r.pollPost i post
  | some (.sleep delay) =>
    { r with agenda := r.agenda.delayed delay.toMillis (.answer i request .rested) }
  | some (.handle action object) =>
    let r := r.note i (.handled action object)
    { r with agenda := r.agenda.atOnce (.answer i request .handled) }

/-- Lets a watcher go on, unless it stays where it is. -/
def advance (r : Rehearsal) (i : Nat) (go : Watcher → Signals → Watcher) : Rehearsal :=
  match r.posts[i]? with
  | none => r
  | some post =>
    let watcher := go post.watcher r.signals
    if watcher = post.watcher then r else r.attend i post watcher

/-- One thing happens. -/
def step (r : Rehearsal) : Cue → Rehearsal
  | .begin i =>
    match r.posts[i]? with
    | none => r
    | some post => r.attend i post (post.watcher.begin r.signals)
  | .arrival i request =>
    match r.posts[i]? with
    | none => r
    | some post =>
      match r.sources[post.path]? with
      | none => r
      | some source => if request = post.request then r.arrive i post source else r
  | .answer i request answer =>
    match r.posts[i]? with
    | none => r
    | some post =>
      if request = post.request then r.attend i post (post.watcher.answered r.signals answer)
      else r
  | .stream i request event =>
    match r.posts[i]? with
    | none => r
    | some post =>
      if request = post.request then
        match event with
        | some event => r.attend i post (post.watcher.answered r.signals (.event event))
        | none => r.pollPost i post
      else r
  | .look i => r.advance i .interrupted
  | .resync => r.resync
  | .cancel => r.cancel
  | .giveUp i step =>
    match r.posts[i]? with
    | none => r
    | some post =>
      match post.watcher with
      | .informer _ => r
      | .paged w =>
        if step = r.steps then
          { r.setPost i { post with watcher := .paged w.abandon, request := post.request + 1 } with
            gaveUp := true }
        else r

/-- Lets things happen until the rehearsal has come as far as asked, or nothing is left, or as many
have happened as `fuel` says. -/
def runUntil (finished : Rehearsal → Bool) : Nat → Rehearsal → Rehearsal
  | 0, r => r
  | fuel + 1, r =>
    if finished r then r
    else
      match r.agenda.next? with
      | none => r
      | some (cue, agenda) => runUntil finished fuel ({ r with agenda }.step cue)

/-- Whether every watcher has stopped. -/
def allStopped (r : Rehearsal) : Bool := r.posts.all (·.watcher.isStopped)

/-- Runs all watchers side by side from their beginning, with requests to start over at some times
and then the request to stop. These come in order: none before its time, and none before the one in
front of it. The rehearsal ends with the request to stop, or later when all have stopped. -/
def runTo (r : Rehearsal) (resyncs : List Nat) (stop fuel : Nat) : Rehearsal :=
  let r := (List.range r.posts.size).foldl (fun r i => r.plan 0 (.begin i)) r
  let (r, latest) := resyncs.foldl
    (fun (r, latest) time => let time := max latest time; (r.plan time .resync, time)) (r, 0)
  let stop := max latest stop
  (r.plan stop .cancel).runUntil
    (fun r => decide (stop ≤ r.agenda.now) && r.signals.cancelled && r.allStopped) fuel

/-! ## Step by step -/

/-- Whether no step of the first watcher is under way. -/
def isIdle (r : Rehearsal) : Bool :=
  match r.posts[0]? with
  | some post => post.watcher.wait.isNone
  | none => true

/-- How long a step may take before it is given up, in milliseconds. -/
def patience : Nat := 3600000

/-- The first watcher makes one step, which is given up if it takes too long; the signals are sent
after the delays given. -/
def stepOnce (r : Rehearsal) (cancelAfter resyncAfter : Option Nat) (fuel : Nat) : Rehearsal :=
  let now := r.agenda.now
  let r := { r with steps := r.steps + 1, gaveUp := false }
  let r := match resyncAfter with
    | some t => r.plan (now + t) .resync
    | none => r
  let r := match cancelAfter with
    | some t => r.plan (now + t) .cancel
    | none => r
  let r := r.plan (now + patience) (.giveUp 0 r.steps)
  (r.step (.begin 0)).runUntil isIdle fuel

end Rehearsal
end InventorySync
