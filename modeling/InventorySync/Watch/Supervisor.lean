import InventorySync.Bootstrap
import InventorySync.Cluster.Discovery
import InventorySync.Config
import InventorySync.Watch.Watcher

/-! # The supervisor

Starts one watcher for every schema that the cluster serves, and owns the epoch by which all of them
are asked to start over. -/

namespace InventorySync

/-- The watchers that were started, by the schemas that they watch, and the epoch. -/
structure Supervisor where
  watched : List Schema := []
  /-- Counts the requests to start over, and begins again at zero after the largest number. -/
  epoch : UInt64 := 0
deriving DecidableEq, Repr, Inhabited

namespace Supervisor

/-- Start a watcher for a schema. -/
def spawn (s : Supervisor) (schema : Schema) : Supervisor :=
  { s with watched := s.watched ++ [schema] }

/-- Ask every watcher to start over. -/
def trigger (s : Supervisor) : Supervisor := { s with epoch := s.epoch + 1 }

/-- The number of watchers. -/
def size (s : Supervisor) : Nat := s.watched.length

/-- Whether no watcher was started. -/
def isEmpty (s : Supervisor) : Bool := s.watched.isEmpty

/-- The first of the schemas that names nothing makes it impossible to start. -/
def check (schemas : List Schema) : Except BootstrapError Unit :=
  schemas.forM fun s => s.validate.mapError .schema

/-- Start one watcher for every configured schema that the cluster serves, given what the cluster
was found to serve. Nothing is started when a schema names nothing or the cluster could not be
asked. -/
def start (s : Supervisor) (schemas : List Schema)
    (groups : Except BootstrapError (List ServedGroup)) :
    Except BootstrapError (Supervisor × List (Schema × ServedResource)) := do
  check schemas
  let served := servedSchemas schemas (← groups)
  return (served.foldl (fun s e => s.spawn e.1) s, served)

end Supervisor

/-- The watcher that a configuration asks for. -/
def Config.watcher (c : Config) : Watcher :=
  if c.noCacheWatch then .paged (.new c.pageSize (.new c.backoffInitial c.backoffMax) (some 0))
  else .informer (.new c.pageSize (some 0))

end InventorySync
