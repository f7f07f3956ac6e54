/-! # Flags

Every setting has a flag on the command line and a variable in the environment. -/

namespace InventorySync

/-- A setting that can be given. -/
inductive Flag where
  | apiUrl
  | apiKey
  | clusterId
  | ownerScope
  | schemas
  | noCacheWatch
  | pageSize
  | watchTimeoutSecs
  | httpTimeoutSecs
  | retryFlushSecs
  | cleanupAt
  | cleanupDelaySecs
  | cacheStatsSecs
deriving DecidableEq, Repr

namespace Flag

/-- All flags, in the order in which their variables are looked at. -/
def all : List Flag :=
  [.apiUrl, .apiKey, .clusterId, .ownerScope, .schemas, .noCacheWatch, .pageSize, .watchTimeoutSecs,
   .httpTimeoutSecs, .retryFlushSecs, .cleanupAt, .cleanupDelaySecs, .cacheStatsSecs]

theorem mem_all (f : Flag) : f ∈ all := by cases f <;> decide

/-- The flag's name on the command line, after two hyphens. -/
def name : Flag → String
  | .apiUrl => "api-url"
  | .apiKey => "api-key"
  | .clusterId => "cluster-id"
  | .ownerScope => "owner-scope"
  | .schemas => "schemas"
  | .noCacheWatch => "no-cache-watch"
  | .pageSize => "page-size"
  | .watchTimeoutSecs => "watch-timeout-secs"
  | .httpTimeoutSecs => "http-timeout-secs"
  | .retryFlushSecs => "retry-flush-secs"
  | .cleanupAt => "cleanup-at"
  | .cleanupDelaySecs => "cleanup-delay-secs"
  | .cacheStatsSecs => "cache-stats-secs"

/-- The flag's variable in the environment. -/
def variableName : Flag → String
  | .apiUrl => "TALLY_API_URL"
  | .apiKey => "TALLY_API_KEY"
  | .clusterId => "TALLY_CLUSTER_ID"
  | .ownerScope => "TALLY_OWNER_SCOPE"
  | .schemas => "TALLY_SCHEMAS"
  | .noCacheWatch => "TALLY_NO_CACHE_WATCH"
  | .pageSize => "TALLY_PAGE_SIZE"
  | .watchTimeoutSecs => "TALLY_WATCH_TIMEOUT_SECS"
  | .httpTimeoutSecs => "TALLY_HTTP_TIMEOUT_SECS"
  | .retryFlushSecs => "TALLY_RETRY_FLUSH_SECS"
  | .cleanupAt => "TALLY_CLEANUP_AT"
  | .cleanupDelaySecs => "TALLY_CLEANUP_DELAY_SECS"
  | .cacheStatsSecs => "TALLY_CACHE_STATS"

/-- The flag with a name. -/
def ofName? (name : String) : Option Flag := all.find? fun f => f.name = name

/-- A flag is found by its name. -/
theorem ofName?_name (f : Flag) : ofName? f.name = some f := by cases f <;> decide

end Flag
end InventorySync
