import InventorySync.Duration
import InventorySync.Record

/-! # Watching a source

A watcher follows a source of objects: it asks for lists in pages, opens a stream of changes, and
hands objects to a handler. It does one thing at a time: `Request` is what a watcher can be waiting
for, and `Answer` is what comes back. From outside it hears two signals, the request to start over
from a full list and the request to stop. -/

namespace InventorySync

/-- One page of a list. -/
structure ListPage where
  items : List Json
  /-- Where a watch goes on once the last page is in. -/
  resourceVersion : String
  /-- The token of the page after this one. -/
  next : Option String
deriving DecidableEq, Repr, Inhabited

/-- What a change stream brings. -/
inductive StreamEvent where
  | added (object : Json)
  | modified (object : Json)
  | deleted (object : Json)
  /-- No change, but a newer version to go on from. -/
  | bookmark (resourceVersion : String)
  /-- The server has given up. -/
  | refused (code : Nat) (message : String)
  /-- Something that cannot be read. -/
  | failed
  /-- The end of the stream. -/
  | closed
deriving DecidableEq, Repr, Inhabited

/-- What a watcher waits for. -/
inductive Request where
  /-- A page of the list: how many objects at most, and the token of the page. -/
  | page (limit : Nat) (token : Option String)
  /-- That an object has been handled. -/
  | handle (action : Action) (object : Json)
  /-- A change stream from a version on. -/
  | watch (resourceVersion : String)
  /-- The next event of the stream. -/
  | event
  /-- That a delay is over. -/
  | sleep (delay : Duration)
deriving DecidableEq, Repr, Inhabited

/-- What comes back to a waiting watcher. -/
inductive Answer where
  /-- A page, or none when the request failed. -/
  | page (page : Option ListPage)
  | handled
  /-- Whether the stream is open. -/
  | opened (isOpen : Bool)
  | event (event : StreamEvent)
  | rested
deriving DecidableEq, Repr, Inhabited

/-- What a watcher hears from outside. -/
structure Signals where
  /-- It is to stop. -/
  cancelled : Bool := false
  /-- How often it was asked to start over from a full list. -/
  resyncs : Nat := 0
deriving DecidableEq, Repr, Inhabited

/-- Whether a watcher that has seen so many requests to start over has not seen all; one that does
not listen has seen all. -/
def Signals.resyncDue (s : Signals) (seen : Option Nat) : Bool :=
  match seen with
  | some n => n != s.resyncs
  | none => false

/-- The version that an object carries, empty when there is none. -/
def objectVersion (object : Json) : String :=
  (((object.get? "metadata").bind (·.get? "resourceVersion")).bind Json.asString?).getD ""

end InventorySync
