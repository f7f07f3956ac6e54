import InventorySync.Calendar.Timestamp
import InventorySync.Json.Reader

/-! # Shapes

What a cluster's document must look like and what is kept of it. A shape takes a value as it was
written, members in the written order and repeated ones included, and gives the value that is kept,
or none when the value does not fit. -/

namespace InventorySync

/-- What a value must look like, and what is kept of it. -/
abbrev Shape := Json → Option Json

namespace Shape

/-- Any value. -/
def anything : Shape := fun v => some v.canonical

/-- A text. -/
def text : Shape
  | .string s => some (.string s)
  | _ => none

/-- A truth value. -/
def flag : Shape
  | .bool b => some (.bool b)
  | _ => none

/-- A whole number within bounds. -/
def integer (low high : Int) : Shape
  | .number (.int i) => if low ≤ i ∧ i ≤ high then some (.number (.int i)) else none
  | _ => none

/-- A whole number that fits a signed 64-bit word. -/
def integer64 : Shape := integer (-(UInt64.size / 2 : Nat)) (UInt64.size / 2 - 1 : Nat)

/-- A point in time, rewritten in the zone `Z`. -/
def time : Shape
  | .string s => (Calendar.Timestamp.read s).map fun m => .string (Calendar.Timestamp.write m)
  | _ => none

/-- A list with all items of one shape. -/
def listOf (item : Shape) : Shape
  | .array items => (items.mapM item).map .array
  | _ => none

/-- An object with all values of one shape, whatever their names; of repeated ones the last. -/
def mapOf (value : Shape) : Shape
  | .object ms =>
    (ms.mapM fun (m : String × Json) => (value m.2).map (m.1, ·)).map Json.mkObject
  | _ => none

/-- An object of which the named members are kept; one that is null counts as missing, and of
repeated ones the last counts. -/
def record (fields : List (String × Shape)) : Shape
  | .object ms =>
    (ms.foldlM
      (fun (kept : Members) (m : String × Json) =>
        match fields.lookup m.1, m.2 with
        | none, _ => some kept
        | some _, .null => some (Members.erase kept m.1)
        | some shape, v => (shape v).map (Members.insert m.1 · kept))
      []).map .object
  | _ => none

/-- The same object with empty texts in place of missing members. -/
def withTexts (names : List String) (shape : Shape) : Shape := fun v =>
  match shape v with
  | some (.object ms) =>
    some (.object (names.foldl
      (fun (ms : Members) name =>
        if (Members.get? ms name).isSome then ms else Members.insert name (.string "") ms)
      ms))
  | r => r

/-- An object whose API version and kind are these, where it has them at all. -/
def marked (apiVersion kind : String) (shape : Shape) : Shape
  | .object ms =>
    if ms.all fun m => (m.1 != "apiVersion" || m.2 = .string apiVersion) &&
        (m.1 != "kind" || m.2 = .string kind) then
      shape (.object ms)
    else none
  | _ => none

end Shape

end InventorySync
