import InventorySync.Cluster.Object
import InventorySync.Text.Split
import InventorySync.Watch.Script

/-! # Change streams of a cluster

A stream is a text of lines, one event a line, that arrives in pieces. A line that ends too early
is skipped; one that is no event is an error, after which the stream goes on. -/

namespace InventorySync

namespace ServedResource

/-- The version that a bookmark carries. -/
def readBookmark : Json → Option StreamEvent
  | .object ms => do
    let metadata ← ← Members.single? ms "metadata"
    guard (TypeMarks.split (Members.erase ms "metadata")).1.both?.isSome
    let (version, annotations) ←
      match metadata with
      | .object ms =>
        some (← Members.single? ms "resourceVersion", ← Members.single? ms "annotations")
      | .array [version] => some (some version, none)
      | .array [version, annotations] => some (some version, some annotations)
      | _ => none
    if let some annotations := annotations then
      discard (Shape.mapOf Shape.text annotations)
    return .bookmark (← (← version).asString?)
  | _ => none

/-- The largest code of an error. -/
def maxCode : Int := (UInt16.size - 1 : Nat)

/-- The error that a server reports. -/
def readRefusal (v : Json) : Option StreamEvent := do
  let (status, message, reason, code) ←
    match v with
    | .object ms =>
      some (← Members.single? ms "status", ← Members.single? ms "message",
        ← Members.single? ms "reason", ← Members.single? ms "code")
    | .array [status, message, reason, code] =>
      some (some status, some message, some reason, some code)
    | _ => none
  discard (← status).asString?
  let message ← (message.getD (.string "")).asString?
  discard (reason.getD (.string "")).asString?
  match ← Shape.integer 0 maxCode (← code) with
  | .number (.int code) => some (.refused code.toNat message)
  | _ => none

/-- The event with a type and an object. -/
def readTyped (r : ServedResource) (type : String) (object : Json) : Option StreamEvent :=
  match type with
  | "ADDED" => (r.readObject object).map .added
  | "MODIFIED" => (r.readObject object).map .modified
  | "DELETED" => (r.readObject object).map .deleted
  | "BOOKMARK" => readBookmark object
  | "ERROR" => readRefusal object
  | _ => none

/-- The event that a value stands for. -/
def readEvent (r : ServedResource) : Json → Option StreamEvent
  | .object ms => do
    r.readTyped (← (← ← Members.single? ms "type").asString?) (← ← Members.single? ms "object")
  | .array [type, object] => do r.readTyped (← type.asString?) object
  | _ => none

/-- The event on a line, none for a line that ends too early. -/
def readLine (r : ServedResource) (line : String) : Option StreamEvent :=
  match Json.readRaw Json.documentDepth line with
  | .ok v => some ((r.readEvent v).getD .failed)
  | .error .endOfText => none
  | .error .malformed => some .failed

end ServedResource

/-- A piece of a body on its way. -/
inductive Piece where
  | text (s : String)
  | effects (e : Effects)
  /-- The connection breaks. -/
  | broken
deriving DecidableEq, Repr, Inhabited

namespace Piece

/-- A line without the carriage return at its end. -/
def withoutReturn (line : String) : String :=
  match line.toList.reverse with
  | '\r' :: rest => String.ofList rest.reverse
  | _ => line

/-- The events of complete lines. -/
def events (r : ServedResource) (lines : List String) : List (Scripted (Option StreamEvent)) :=
  (lines.filterMap fun line => r.readLine (withoutReturn line)).map fun e => ⟨{}, some e⟩

/-- The events of a body, given the beginning of a line that has arrived already. A body that
closes ends its last line; one that breaks loses it. -/
def script (r : ServedResource) (closes : Bool) : String → List Piece → StreamScript
  | started, [] =>
    ⟨if closes && started != "" && started != "\r" then events r [started] else [], closes⟩
  | started, .text s :: rest =>
    let lines := Text.splitString '\n' (started ++ s)
    let later := script r closes (lines.getLast?.getD "") rest
    { later with events := events r lines.dropLast ++ later.events }
  | started, .effects e :: rest =>
    let later := script r closes started rest
    { later with events := ⟨e, none⟩ :: later.events }
  | _, .broken :: _ => ⟨[⟨{}, some .failed⟩], true⟩

end Piece
end InventorySync
