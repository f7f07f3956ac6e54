import InventorySync.Duration

/-! # Tunables

What the watchers and the scheduler are run with, and the values used when nothing is said. -/

namespace InventorySync

/-- The tunables of watching, retrying and cleaning up. -/
structure Config where
  /-- Watch with paged lists that keep no objects, rather than with a caching informer. -/
  noCacheWatch : Bool := true
  pageSize : Nat := 500
  backoffInitial : Duration := .ofSeconds 1
  backoffMax : Duration := .ofSeconds 30
  /-- The timeout asked for with each watch; the server picks one when there is none. -/
  watchTimeout : Option Duration := none
  retryFlushInterval : Duration := .ofSeconds 10
  /-- The delay from the start to the first cleanup. -/
  cleanupFirstDelay : Duration := .ofSeconds 60
  cleanupPeriod : Duration := .ofSeconds (24 * 60 * 60)
  /-- The interval of the cache statistics, which are off when there is none. -/
  cacheStatsInterval : Option Duration := none
deriving DecidableEq, Repr, Inhabited

end InventorySync
