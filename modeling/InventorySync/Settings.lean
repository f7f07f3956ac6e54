import InventorySync.Calendar.Upcoming
import InventorySync.Config
import InventorySync.Record
import InventorySync.Schema.Catalog

/-! # Settings

What an agent is told when it is started: where the inventory is, whom the records belong to, what
to watch and how often to do the regular work. The tunables follow from the settings and, for a
cleanup at a time of day, from what the clock shows at the start. -/

namespace InventorySync

/-- The settings of an agent. -/
structure Settings where
  apiUrl : String
  apiKey : Option String := none
  owner : Owner
  /-- The schemas to watch, as written. -/
  schemaKeys : List String := []
  noCacheWatch : Bool := true
  pageSize : Nat := 500
  /-- Zero, like none, leaves the timeout to the server. -/
  watchTimeoutSecs : Option Nat := none
  httpTimeoutSecs : Nat := 30
  retryFlushSecs : Nat := 10
  /-- The time of day of the cleanup; without one the first is after a delay. -/
  cleanupAt : Option String := none
  cleanupDelaySecs : Nat := 60
  /-- Zero, like none, turns the statistics off. -/
  cacheStatsSecs : Option Nat := none
deriving DecidableEq, Repr

namespace Settings

/-- The scope of the owner when none is given. -/
def defaultScope : String := "cluster"

/-- A span that is absent when it is zero. -/
def positiveSeconds (seconds : Option Nat) : Option Duration :=
  (seconds.filter (0 < ·)).map .ofSeconds

/-- The delay from the start to the first cleanup. -/
def firstCleanup (s : Settings) (zone : Calendar.Zone) (now : Calendar.Instant) :
    Except Calendar.UpcomingError Duration :=
  match s.cleanupAt with
  | some text => Calendar.until? zone now text
  | none => .ok (.ofSeconds s.cleanupDelaySecs)

/-- The tunables, given the zone and the time of the start. -/
def config (s : Settings) (zone : Calendar.Zone) (now : Calendar.Instant) :
    Except Calendar.UpcomingError Config :=
  (s.firstCleanup zone now).map fun first =>
    { noCacheWatch := s.noCacheWatch
      pageSize := s.pageSize
      watchTimeout := positiveSeconds s.watchTimeoutSecs
      retryFlushInterval := .ofSeconds (max s.retryFlushSecs 1)
      cleanupFirstDelay := first
      cacheStatsInterval := positiveSeconds s.cacheStatsSecs }

/-- The schemas to watch: those written, blank keys left out, or the catalog when there are none. -/
def schemas (s : Settings) : Except Schema.Invalid (List Schema) :=
  match (s.schemaKeys.map Text.trim).filter (· ≠ "") with
  | [] => .ok defaultSchemas
  | keys => keys.mapM Schema.parse

/-- The text of the error about a schema that cannot be read. -/
def schemasError (e : Schema.Invalid) : String := "parsing --schemas: " ++ e.message

end Settings
end InventorySync
