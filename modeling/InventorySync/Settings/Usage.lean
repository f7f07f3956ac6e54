import InventorySync.Settings.Draft

/-! # What is said about flags

The texts for someone who starts an agent: what went wrong, and which flags there are. -/

namespace InventorySync

namespace Flag

/-- The flag as it is written. -/
def written (f : Flag) : String := "--" ++ f.name

/-- What the flag is for. -/
def purpose : Flag → String
  | .apiUrl => "Remote inventory base URL"
  | .apiKey => "API key sent with every request"
  | .clusterId => "Owner subject attached to every record, usually the cluster id"
  | .ownerScope => "Owner scope attached to every record"
  | .schemas =>
    "Watched resources as group/version/resource (v1/pods for the core group); " ++
      "built-in catalog when empty"
  | .noCacheWatch =>
    "Paged list and watch that keeps no object cache; false uses the caching informer"
  | .pageSize => "Objects asked for with each page"
  | .watchTimeoutSecs => "Server-side watch timeout; left to the API server when unset"
  | .httpTimeoutSecs => "Timeout of a request to the inventory"
  | .retryFlushSecs => "Time between two rounds of retries"
  | .cleanupAt =>
    "Local time of day (HH:MM:SS) for the daily cleanup; " ++
      "otherwise it first runs after --cleanup-delay-secs"
  | .cleanupDelaySecs => "Time from the start to the first cleanup"
  | .cacheStatsSecs => "Log cache statistics at this interval"

end Flag

/-- The text of the error. -/
def UsageError.message : UsageError → String
  | .unknownArgument text => "unexpected argument '" ++ text ++ "' found"
  | .missingValue flag => "a value is required for '" ++ flag.written ++ "' but none was supplied"
  | .badSwitch flag text | .badNumber flag text =>
    "invalid value '" ++ text ++ "' for '" ++ flag.written ++ "'"
  | .repeated flag => "the argument '" ++ flag.written ++ "' cannot be used multiple times"
  | .unexpectedValue name => "unexpected value for '--" ++ name ++ "'; no more were expected"
  | .required flags =>
    "required arguments were not provided: " ++ ", ".intercalate (flags.map Flag.written)
  | .help => "help requested"
  | .version => "version requested"

namespace Settings

/-- The program's name and version. -/
def versionText : String := "tally-agent 0.0.0"

/-- The flags, one a line. -/
def helpText : String :=
  "\n".intercalate ("Forward cluster resources to the remote inventory" :: Flag.all.map fun f =>
    "  " ++ f.written ++ "  " ++ f.purpose ++ " [env: " ++ f.variableName ++ "]")

end Settings
end InventorySync
