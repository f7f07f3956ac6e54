import InventorySync.Watch.Basic

/-! # Scripted sources

A source whose replies are set beforehand, in order. A reply may come late, and asking for it may
set off the signals that a watcher hears. -/

namespace InventorySync

/-- What happens before a reply comes: the signals are sent at once, then a delay passes. -/
structure Effects where
  resync : Bool := false
  cancel : Bool := false
  /-- In milliseconds. -/
  delay : Nat := 0
deriving DecidableEq, Repr, Inhabited

/-- Something that comes after its effects. -/
structure Scripted (α : Type) where
  effects : Effects
  value : α
deriving DecidableEq, Repr, Inhabited

/-- A change stream that is set beforehand. An entry without an event has effects only. -/
structure StreamScript where
  events : List (Scripted (Option StreamEvent))
  /-- Whether the stream ends after the events; otherwise it stays open and silent. -/
  closes : Bool
deriving DecidableEq, Repr, Inhabited

/-- A list reply; none is a failure. -/
abbrev ListReply := Scripted (Option ListPage)

/-- A reply to the request for a stream; none is a failure. -/
abbrev WatchReply := Scripted (Option StreamScript)

/-- The replies of a source. -/
structure SourceScript where
  lists : List ListReply
  watches : List WatchReply
  /-- The reply to list requests beyond the script; without one they are never answered. -/
  laterList : Option ListReply
  /-- The reply to watch requests beyond the script; without one they are never answered. -/
  laterWatch : Option WatchReply
  /-- Whether requests are on their way for a moment, so that everything else that happens now comes
  before they arrive. -/
  isRemote : Bool
deriving DecidableEq, Repr, Inhabited

namespace SourceScript

/-- The reply to the next list request. -/
def nextList (s : SourceScript) : Option ListReply × SourceScript :=
  match s.lists with
  | reply :: lists => (some reply, { s with lists })
  | [] => (s.laterList, s)

/-- The reply to the next watch request. -/
def nextWatch (s : SourceScript) : Option WatchReply × SourceScript :=
  match s.watches with
  | reply :: watches => (some reply, { s with watches })
  | [] => (s.laterWatch, s)

end SourceScript
end InventorySync
