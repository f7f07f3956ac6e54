import InventorySync.Settings
import InventorySync.Settings.Flag

/-! # Settings in the making

A draft holds what has been given so far. A value is read as its flag asks when it is put in; when
nothing more is given, the required ones have to be there and the rest take their defaults. -/

namespace InventorySync

/-- What is wrong with the way an agent was started. -/
inductive UsageError where
  | unknownArgument (text : String)
  /-- A flag without the value that has to follow it. -/
  | missingValue (flag : Flag)
  | badSwitch (flag : Flag) (text : String)
  | badNumber (flag : Flag) (text : String)
  | repeated (flag : Flag)
  /-- A value for something that takes none. -/
  | unexpectedValue (name : String)
  | required (flags : List Flag)
  /-- Not a mistake: the help was asked for. -/
  | help
  /-- Not a mistake: the version was asked for. -/
  | version
deriving DecidableEq, Repr

/-- What has been given so far. -/
structure Draft where
  apiUrl : Option String := none
  apiKey : Option String := none
  clusterId : Option String := none
  ownerScope : Option String := none
  schemaKeys : List String := []
  noCacheWatch : Option Bool := none
  pageSize : Option Nat := none
  watchTimeoutSecs : Option Nat := none
  httpTimeoutSecs : Option Nat := none
  retryFlushSecs : Option Nat := none
  cleanupAt : Option String := none
  cleanupDelaySecs : Option Nat := none
  cacheStatsSecs : Option Nat := none
deriving DecidableEq, Repr, Inhabited

namespace Draft

/-! ## Values -/

/-- The value of a text of digits only, at least one. -/
def digits? (cs : List Char) : Option Nat :=
  if cs.isEmpty || !cs.all Char.isDigit then none
  else some (cs.foldl (fun n c => 10 * n + (c.toNat - '0'.toNat)) 0)

/-- A number of seconds: digits, a plus sign in front allowed, below 2^64. -/
def seconds? (text : String) : Option Nat :=
  let value :=
    match text.toList with
    | '+' :: rest => digits? rest
    | cs => digits? cs
  value.filter (· < UInt64.size)

/-- A number of objects: digits, a sign in front allowed, from zero to below 2^32. -/
def count? (text : String) : Option Nat :=
  match text.toList with
  | '-' :: rest => (digits? rest).filter (· = 0)
  | '+' :: rest => (digits? rest).filter (· < UInt32.size)
  | cs => (digits? cs).filter (· < UInt32.size)

/-- A switch is on or off. -/
def switch? (text : String) : Option Bool :=
  if text = "true" then some true else if text = "false" then some false else none

/-! ## Putting in -/

/-- Whether a flag has been given. -/
def has (d : Draft) : Flag → Bool
  | .apiUrl => d.apiUrl.isSome
  | .apiKey => d.apiKey.isSome
  | .clusterId => d.clusterId.isSome
  | .ownerScope => d.ownerScope.isSome
  | .schemas => !d.schemaKeys.isEmpty
  | .noCacheWatch => d.noCacheWatch.isSome
  | .pageSize => d.pageSize.isSome
  | .watchTimeoutSecs => d.watchTimeoutSecs.isSome
  | .httpTimeoutSecs => d.httpTimeoutSecs.isSome
  | .retryFlushSecs => d.retryFlushSecs.isSome
  | .cleanupAt => d.cleanupAt.isSome
  | .cleanupDelaySecs => d.cleanupDelaySecs.isSome
  | .cacheStatsSecs => d.cacheStatsSecs.isSome

/-- The draft with the value of a flag. Schemas are separated by commas and add up. -/
def assign (d : Draft) (flag : Flag) (text : String) : Except UsageError Draft :=
  let number (value : Option Nat) : Except UsageError (Option Nat) :=
    if value.isSome then .ok value else .error (.badNumber flag text)
  match flag with
  | .apiUrl => .ok { d with apiUrl := some text }
  | .apiKey => .ok { d with apiKey := some text }
  | .clusterId => .ok { d with clusterId := some text }
  | .ownerScope => .ok { d with ownerScope := some text }
  | .schemas => .ok { d with schemaKeys := d.schemaKeys ++ Text.splitString ',' text }
  | .noCacheWatch =>
    match switch? text with
    | some on => .ok { d with noCacheWatch := some on }
    | none => .error (.badSwitch flag text)
  | .pageSize => (number (count? text)).map fun n => { d with pageSize := n }
  | .watchTimeoutSecs => (number (seconds? text)).map fun n => { d with watchTimeoutSecs := n }
  | .httpTimeoutSecs => (number (seconds? text)).map fun n => { d with httpTimeoutSecs := n }
  | .retryFlushSecs => (number (seconds? text)).map fun n => { d with retryFlushSecs := n }
  | .cleanupAt => .ok { d with cleanupAt := some text }
  | .cleanupDelaySecs => (number (seconds? text)).map fun n => { d with cleanupDelaySecs := n }
  | .cacheStatsSecs => (number (seconds? text)).map fun n => { d with cacheStatsSecs := n }

/-- The draft with one more flag from the command line; only the schemas may be given twice. -/
def give (d : Draft) (flag : Flag) (text : String) : Except UsageError Draft :=
  if d.has flag && flag ≠ .schemas then .error (.repeated flag) else d.assign flag text

/-! ## Finishing -/

/-- The settings of a draft. -/
def finish (d : Draft) : Except UsageError Settings :=
  match d.apiUrl, d.clusterId with
  | some apiUrl, some clusterId =>
    let settings : Settings :=
      { apiUrl, apiKey := d.apiKey, owner := ⟨d.ownerScope.getD Settings.defaultScope, clusterId⟩,
        schemaKeys := d.schemaKeys, watchTimeoutSecs := d.watchTimeoutSecs,
        cleanupAt := d.cleanupAt, cacheStatsSecs := d.cacheStatsSecs }
    .ok { settings with
      noCacheWatch := d.noCacheWatch.getD settings.noCacheWatch
      pageSize := d.pageSize.getD settings.pageSize
      httpTimeoutSecs := d.httpTimeoutSecs.getD settings.httpTimeoutSecs
      retryFlushSecs := d.retryFlushSecs.getD settings.retryFlushSecs
      cleanupDelaySecs := d.cleanupDelaySecs.getD settings.cleanupDelaySecs }
  | _, _ => .error (.required ([.apiUrl, .clusterId].filter fun f => !d.has f))

end Draft
end InventorySync
