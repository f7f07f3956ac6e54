import InventorySync.Backoff
import InventorySync.Watch.Basic

/-! # The caching informer

Lists everything, then follows the changes, and keeps every object in a store. The store tells a
creation from an update, and shows after a new list which objects have vanished.

Every event is judged against the store as it was before the event (`InformerEvent.changes`) and
then applied to it (`ObjectStore.apply`). -/

namespace InventorySync

/-- What an object is stored under. -/
structure ObjectKey where
  name : String
  /-- The namespace; none for an object outside all namespaces. -/
  space : Option String
deriving DecidableEq, Repr, Inhabited

/-- A text in the metadata of an object. -/
def metadataText? (object : Json) (name : String) : Option String :=
  ((object.get? "metadata").bind (·.get? name)).bind Json.asString?

/-- The key of an object. -/
def ObjectKey.of (object : Json) : ObjectKey :=
  ⟨(metadataText? object "name").getD "", metadataText? object "namespace"⟩

/-- The objects known, each under its own key. -/
abbrev ObjectStore := List (ObjectKey × Json)

/-- What has happened to the objects of a resource. -/
inductive InformerEvent where
  | applied (object : Json)
  | deleted (object : Json)
  /-- A new full list. -/
  | restarted (objects : List Json)
deriving DecidableEq, Repr, Inhabited

namespace ObjectStore

/-- The object under a key. -/
def get? (store : ObjectStore) (key : ObjectKey) : Option Json :=
  (List.find? (fun e => e.1 = key) store).map (·.2)

/-- Put an object under its key. -/
def insert : ObjectStore → Json → ObjectStore
  | [], object => [(.of object, object)]
  | e :: rest, object =>
    if e.1 = .of object then (e.1, object) :: rest else e :: ObjectStore.insert rest object

/-- Remove what is under the key of an object. -/
def erase (store : ObjectStore) (object : Json) : ObjectStore :=
  List.filter (fun e => e.1 ≠ .of object) store

/-- The store that holds these objects; of several with one key the last. -/
def ofList (objects : List Json) : ObjectStore := objects.foldl ObjectStore.insert []

/-- The store after an event. -/
def apply (store : ObjectStore) : InformerEvent → ObjectStore
  | .applied object => store.insert object
  | .deleted object => store.erase object
  | .restarted objects => ofList objects

/-- The objects of the store with a uid that is on none of the listed ones, in increasing order of
the uid. -/
def vanished (store : ObjectStore) (listed : List Json) : List Json :=
  let uids := listed.filterMap (metadataText? · "uid")
  let gone := (List.map (·.2) store).filterMap fun object =>
    match metadataText? object "uid" with
    | some uid => if uid ∈ uids then none else some (uid, object)
    | none => none
  (gone.mergeSort fun a b => compare a.1 b.1 != .gt).map (·.2)

/-- Whether an object is an update or a creation. -/
def actionFor (store : ObjectStore) (object : Json) : Action :=
  if (store.get? (.of object)).isSome then .update else .create

end ObjectStore

/-- What an event means to a handler, judged against the store before the event. -/
def InformerEvent.changes (store : ObjectStore) : InformerEvent → List (Action × Json)
  | .applied object => [(store.actionFor object, object)]
  | .deleted object => [(.delete, object)]
  | .restarted objects =>
    objects.map (fun object => (store.actionFor object, object)) ++
      (store.vanished objects).map ((.delete, ·))

/-! ## Following a resource -/

/-- How far the informer has come with the resource. -/
inductive InformerPosition where
  /-- A page of the list is due; the objects of the pages before it. -/
  | list (token : Option String) (objects : List Json)
  /-- A stream is due from a version on. -/
  | connect (version : String)
  /-- The next event of the open stream is due; the version reached. -/
  | follow (version : String)
deriving DecidableEq, Repr, Inhabited

/-- Where an informer stands. -/
inductive InformerStage where
  /-- What is due was asked for. -/
  | waiting (position : InformerPosition)
  /-- Resting after an error. -/
  | resting (delay : Duration) (position : InformerPosition)
  /-- A change is being handled; the changes after it. -/
  | dispatching (action : Action) (object : Json) (rest : List (Action × Json))
      (position : InformerPosition)
  | stopped
deriving DecidableEq, Repr, Inhabited

/-- A caching informer. -/
structure Informer where
  pageSize : Nat
  backoff : Backoff
  store : ObjectStore
  /-- How many requests to start over it has seen; none when it does not listen for them. -/
  seen : Option Nat
  stage : InformerStage
deriving DecidableEq, Repr

namespace Informer

/-- The delays after errors: from 0.8 s, doubled after each further error, to 30 s. -/
def delays : Backoff := .new (.ofMillis 800) (.ofSeconds 30)

/-- The beginning of everything: the first page. -/
def fresh : InformerPosition := .list none []

/-- An informer that has not begun; a page holds at least one object. -/
def new (pageSize : Nat) (seen : Option Nat) : Informer :=
  ⟨max pageSize 1, delays, [], seen, .waiting fresh⟩

/-- What the informer waits for. -/
def wait (w : Informer) : Option Request :=
  match w.stage with
  | .waiting (.list token _) => some (.page w.pageSize token)
  | .waiting (.connect version) => some (.watch version)
  | .waiting (.follow _) => some .event
  | .resting delay _ => some (.sleep delay)
  | .dispatching action object _ _ => some (.handle action object)
  | .stopped => none

/-- Go on unless cancelled or asked to start over. Starting over covers every request made so far;
the store is kept. -/
def goOn (w : Informer) (s : Signals) (stage : InformerStage) : Informer :=
  if s.cancelled then { w with stage := .stopped }
  else if s.resyncDue w.seen then
    { w with seen := some s.resyncs, backoff := delays, stage := .waiting fresh }
  else { w with stage }

/-- The informer begins. Its list covers every request to start over made before it. -/
def begin (w : Informer) (s : Signals) : Informer :=
  { w with seen := w.seen.map fun _ => s.resyncs }.goOn s (.waiting fresh)

/-- Something went wrong: rest, then go on from a position. -/
def fail (w : Informer) (s : Signals) (position : InformerPosition) : Informer :=
  let (delay, backoff) := w.backoff.next
  { w with backoff }.goOn s (.resting delay position)

/-- Hand over changes one by one, then go on from a position. -/
def dispatch (w : Informer) (s : Signals) (position : InformerPosition) :
    List (Action × Json) → Informer
  | (action, object) :: rest => { w with stage := .dispatching action object rest position }
  | [] => w.goOn s (.waiting position)

/-- An event happens to the store, and its changes are handed over. -/
def accept (w : Informer) (s : Signals) (event : InformerEvent) (position : InformerPosition) :
    Informer :=
  { w with store := w.store.apply event, backoff := w.backoff.reset }.dispatch s position
    (event.changes w.store)

/-- A page of the list has come. The last one needs a version to go on from. -/
def listed (w : Informer) (s : Signals) (objects : List Json) (page : ListPage) : Informer :=
  let objects := objects ++ page.items
  match page.next with
  | some token => { w with stage := .waiting (.list (some token) objects) }
  | none =>
    if page.resourceVersion = "" then w.fail s fresh
    else w.accept s (.restarted objects) (.connect page.resourceVersion)

/-- An object has come from the stream. Without a version there is no going on from it. -/
def changed (w : Informer) (s : Signals) (event : InformerEvent) (object : Json) : Informer :=
  let version := objectVersion object
  if version = "" then w.fail s fresh else w.accept s event (.follow version)

/-- An event of the stream has come. -/
def received (w : Informer) (s : Signals) (version : String) : StreamEvent → Informer
  | .added object | .modified object => w.changed s (.applied object) object
  | .deleted object => w.changed s (.deleted object) object
  | .bookmark version => { w with stage := .waiting (.follow version) }
  | .refused code _ => w.fail s (if code = 410 then fresh else .follow version)
  | .failed => w.fail s (.follow version)
  | .closed => { w with stage := .waiting (.connect version) }

/-- What the informer waits for has come. Anything else changes nothing. -/
def answered (w : Informer) (s : Signals) (answer : Answer) : Informer :=
  match w.stage, answer with
  | .waiting (.list _ objects), .page (some page) => w.listed s objects page
  | .waiting (.list _ _), .page none => w.fail s fresh
  | .waiting (.connect version), .opened true => { w with stage := .waiting (.follow version) }
  | .waiting (.connect version), .opened false => w.fail s (.connect version)
  | .waiting (.follow version), .event event => w.received s version event
  | .resting _ position, .rested => { w with stage := .waiting position }
  | .dispatching _ _ rest position, .handled => w.dispatch s position rest
  | _, _ => w

/-- The informer looks at the signals while it waits. A change that is being handled is not
interrupted. -/
def interrupted (w : Informer) (s : Signals) : Informer :=
  match w.stage with
  | .waiting _ | .resting _ _ => w.goOn s w.stage
  | .dispatching .. | .stopped => w

end Informer
end InventorySync
