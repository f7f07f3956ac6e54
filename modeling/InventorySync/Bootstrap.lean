import InventorySync.Schema
import InventorySync.Wire

/-! # Failures before anything is sent

What makes it unsafe to start at all: the inventory's list could not be fetched, the cluster could
not be asked what it serves, or a configured schema names nothing. -/

namespace InventorySync

/-- A failure that prevents the start. -/
inductive BootstrapError where
  | hashList (reason : String)
  | discovery (reason : String)
  | schema (e : Schema.Invalid)
deriving DecidableEq, Repr

/-- The text of the error. -/
def BootstrapError.message : BootstrapError → String
  | .hashList reason => "fetching remote hash list: " ++ reason
  | .discovery reason => "capability discovery: " ++ reason
  | .schema e => e.message

/-- The hashes that the cache starts from, given what the inventory answered. -/
def remoteHashes (answer : Except String HashList) :
    Except BootstrapError (List (String × String)) :=
  match answer with
  | .ok list => .ok list.pairs
  | .error reason => .error (.hashList reason)

end InventorySync
