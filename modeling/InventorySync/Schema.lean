import InventorySync.Text.Blank
import InventorySync.Text.Split
import InventorySync.Text.Quoted

/-! # Schemas

A watched kind is addressed by its group, version and plural resource name, written
`group/version/resource` and `version/resource` in the core group. This module holds the address,
its written form, the reading of that form, and what makes an address unusable. -/

namespace InventorySync

/-- One watched kind, as the list and watch requests address it. -/
structure Schema where
  group : String
  version : String
  resource : String
deriving DecidableEq, Repr, Inhabited

namespace Schema

/-- Why a key or an address names no schema. -/
inductive Flaw where
  | partCount
  | emptyVersion
  | emptyResource
deriving DecidableEq, Repr

/-- The reason in words. -/
def Flaw.reason : Flaw → String
  | .partCount => "expected version/resource or group/version/resource"
  | .emptyVersion => "empty version"
  | .emptyResource => "empty resource"

/-- A rejected schema: the key it was written as, and the reason. -/
structure Invalid where
  key : String
  flaw : Flaw
deriving DecidableEq, Repr

/-- The text of the error. -/
def Invalid.message (e : Invalid) : String :=
  "invalid resource schema " ++ Text.quoted e.key ++ ": " ++ e.flaw.reason

/-- The group and version as documents carry them; the core group has only the version. -/
def apiVersion (s : Schema) : String :=
  if s.group = "" then s.version else s.group ++ "/" ++ s.version

/-- The written form of a schema. -/
def display (s : Schema) : String :=
  if s.group = "" then s.version ++ "/" ++ s.resource
  else s.group ++ "/" ++ s.version ++ "/" ++ s.resource

/-- What keeps the address from naming anything, the version looked at first. -/
def flaw? (s : Schema) : Option Flaw :=
  if s.version = "" then some .emptyVersion
  else if s.resource = "" then some .emptyResource
  else none

/-- Rejects an address that cannot name anything. -/
def validate (s : Schema) : Except Invalid Unit :=
  match s.flaw? with
  | some f => .error ⟨s.display, f⟩
  | none => .ok ()

/-- The schema that a key writes: its blanks at both ends dropped, two or three parts. -/
def parse (key : String) : Except Invalid Schema :=
  match Text.splitString '/' (Text.trim key) with
  | [version, resource] => checked ⟨"", version, resource⟩
  | [group, version, resource] => checked ⟨group, version, resource⟩
  | _ => .error ⟨key, .partCount⟩
where
  /-- The schema itself when it is usable. -/
  checked (s : Schema) : Except Invalid Schema := s.validate.map fun _ => s

/-! ## Order -/

/-- Schemas are ordered by group, then version, then resource. -/
def compare (a b : Schema) : Ordering :=
  (Ord.compare a.group b.group).then
    ((Ord.compare a.version b.version).then (Ord.compare a.resource b.resource))

instance : Ord Schema := ⟨compare⟩

/-- The schemas in order, each once. -/
def sorted (schemas : List Schema) : List Schema :=
  (schemas.mergeSort fun a b => (compare a b).isLE).eraseReps

end Schema
end InventorySync
