import InventorySync.Backoff
import InventorySync.Watch.Basic

/-! # The paged watcher

Lists page by page, then watches from the version of the last page, and lists again when the stream
ends. It keeps no objects, only the version from which a watch would go on.

A step of the watcher leads from one phase to the next: `begin` starts it, `answered` goes on when
what it waits for has come, and `interrupted` when only a signal has. Between two steps the watcher
waits for nothing. Where several things could happen, cancellation comes before a request to start
over, and that before an answer. -/

namespace InventorySync

/-- The phase of a paged watcher. -/
inductive Phase where
  | init
  | listing
  | watching
  /-- Rests before the next attempt, which lists when there is no version to go on from. -/
  | backoff (delay : Duration)
  | stopped
deriving DecidableEq, Repr, Inhabited

/-- Where a watcher stands within a step. -/
inductive PagedStage where
  /-- No step is under way. -/
  | idle
  /-- A page was asked for. -/
  | asking (token : Option String)
  /-- An object of a page is being handled; the objects after it, and the page. -/
  | storing (object : Json) (rest : List Json) (page : ListPage)
  /-- A stream was asked for. -/
  | opening
  /-- The next event of the stream is waited for. -/
  | listening
  /-- The object of an event is being handled. -/
  | delivering (action : Action) (object : Json)
  /-- A delay has to pass. -/
  | resting (delay : Duration)
deriving DecidableEq, Repr, Inhabited

/-- A paged watcher. -/
structure PagedWatcher where
  /-- How many objects are asked for in a page. -/
  pageSize : Nat
  backoff : Backoff
  phase : Phase
  /-- The version from which a watch would go on. -/
  cursor : String
  /-- How many requests to start over it has seen; none when it does not listen for them. -/
  seen : Option Nat
  /-- How many full lists were completed. -/
  lists : Nat
  stage : PagedStage
deriving DecidableEq, Repr

namespace PagedWatcher

/-- A watcher before its first step; a page holds at least one object. -/
def new (pageSize : Nat) (backoff : Backoff) (seen : Option Nat) : PagedWatcher :=
  ⟨max pageSize 1, backoff, .init, "", seen, 0, .idle⟩

/-- What the watcher waits for. -/
def wait (w : PagedWatcher) : Option Request :=
  match w.stage with
  | .idle => none
  | .asking token => some (.page w.pageSize token)
  | .storing object _ _ => some (.handle .create object)
  | .opening => some (.watch w.cursor)
  | .listening => some .event
  | .delivering action object => some (.handle action object)
  | .resting delay => some (.sleep delay)

/-! ## Ends of a step -/

/-- The step ends in a phase. -/
def settle (w : PagedWatcher) (phase : Phase) : PagedWatcher := { w with phase, stage := .idle }

/-- The step ends with the watcher stopped. -/
def stop (w : PagedWatcher) : PagedWatcher := w.settle .stopped

/-- The step ends with a full list due. -/
def relist (w : PagedWatcher) : PagedWatcher := { w with cursor := "" }.settle .listing

/-- The step ends with a delay due. -/
def rest (w : PagedWatcher) : PagedWatcher :=
  let (delay, backoff) := w.backoff.next
  { w with backoff }.settle (.backoff delay)

/-! ## Ways on -/

/-- Ask for a page, unless cancelled. -/
def ask (w : PagedWatcher) (s : Signals) (token : Option String) : PagedWatcher :=
  if s.cancelled then w.stop else { w with stage := .asking token }

/-- Hand over the objects of a page; after them ask for the next page, or complete the list. -/
def store (w : PagedWatcher) (s : Signals) (page : ListPage) : List Json → PagedWatcher
  | object :: rest => { w with stage := .storing object rest page }
  | [] =>
    match page.next with
    | some token => w.ask s (some token)
    | none =>
      { w with cursor := page.resourceVersion, lists := w.lists + 1 }.settle .watching

/-- See all requests to start over that were made so far. -/
def catchUp (w : PagedWatcher) (s : Signals) : PagedWatcher :=
  { w with seen := w.seen.map fun _ => s.resyncs }

/-- Wait for the next event, unless cancelled or asked to start over. -/
def listen (w : PagedWatcher) (s : Signals) : PagedWatcher :=
  if s.cancelled then w.stop
  else if s.resyncDue w.seen then (w.catchUp s).relist
  else { w with stage := .listening }

/-- Move on to a version, if there is one. -/
def advance (w : PagedWatcher) (version : String) : PagedWatcher :=
  if version = "" then w else { w with cursor := version }

/-- Hand over the object of an event. -/
def deliver (w : PagedWatcher) (action : Action) (object : Json) : PagedWatcher :=
  { w.advance (objectVersion object) with stage := .delivering action object }

/-! ## Steps -/

/-- The next step begins. A list covers every request to start over made before it. -/
def begin (w : PagedWatcher) (s : Signals) : PagedWatcher :=
  if s.cancelled then w.stop
  else
    match w.phase with
    | .init => w.relist
    | .listing => (w.catchUp s).ask s none
    | .watching => { w with stage := .opening }
    | .backoff delay => { w with stage := .resting delay }
    | .stopped => w.stop

/-- An event of the stream has come. -/
def received (w : PagedWatcher) (s : Signals) : StreamEvent → PagedWatcher
  | .added object => w.deliver .create object
  | .modified object => w.deliver .update object
  | .deleted object => w.deliver .delete object
  | .bookmark version => (w.advance version).listen s
  | .refused _ _ | .failed | .closed => w.relist

/-- What the watcher waits for has come. Anything else changes nothing. -/
def answered (w : PagedWatcher) (s : Signals) (answer : Answer) : PagedWatcher :=
  match w.stage, answer with
  | .asking _, .page none => { w with cursor := "" }.rest
  | .asking _, .page (some page) => { w with backoff := w.backoff.reset }.store s page page.items
  | .storing _ rest page, .handled => w.store s page rest
  | .opening, .opened true => { w with backoff := w.backoff.reset }.listen s
  | .opening, .opened false => w.rest
  | .listening, .event event => w.received s event
  | .delivering _ _, .handled => w.listen s
  | .resting _, .rested => w.settle (if w.cursor = "" then .listing else .watching)
  | _, _ => w

/-- The watcher looks at the signals while it waits. An object that is being handled is not
interrupted. -/
def interrupted (w : PagedWatcher) (s : Signals) : PagedWatcher :=
  match w.stage with
  | .asking _ | .opening | .resting _ => if s.cancelled then w.stop else w
  | .listening => w.listen s
  | .idle | .storing .. | .delivering .. => w

/-- The step under way is given up; the phase stays. -/
def abandon (w : PagedWatcher) : PagedWatcher := { w with stage := .idle }

end PagedWatcher
end InventorySync
