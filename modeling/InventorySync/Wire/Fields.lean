import InventorySync.Json.Basic

/-! # The fields of an encoded record

A record is encoded as an object with a member per field, and decoded from such an object, unknown
members ignored, or from the array of its fields in their declared order. An array may stop early:
the fields it lacks are missing, as in an object without the member. An object that has a field
twice encodes nothing. -/

namespace InventorySync.Wire

/-- The encoded fields with these names, in order; a missing one is none. -/
def fields? (names : List String) : Json → Option (List (Option Json))
  | .object ms => names.mapM fun name => Members.single? ms name
  | .array items =>
    if items.length ≤ names.length then
      some (items.map some ++ List.replicate (names.length - items.length) none)
    else none
  | _ => none

/-- A required string. -/
def string? : Option Json → Option String
  | some (.string s) => some s
  | _ => none

/-- A required truth value. -/
def bool? : Option Json → Option Bool
  | some (.bool b) => some b
  | _ => none

/-- A required field with a decoder of its own. -/
def required? {α : Type} (decode : Json → Option α) (v : Option Json) : Option α := v.bind decode

/-- A list whose items are decoded one by one. -/
def list? {α : Type} (decode : Json → Option α) : Json → Option (List α)
  | .array items => items.mapM decode
  | _ => none

end InventorySync.Wire
