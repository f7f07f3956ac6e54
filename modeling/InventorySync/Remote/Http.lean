import InventorySync.Remote.Address
import InventorySync.Remote.Reply
import InventorySync.Wire

/-! # An inventory behind HTTP

The requests that ask an inventory for a change or for its list, and what the answers mean. A
change of a known record is asked for at the record's identifier, which is pasted into the address
as it is. -/

namespace InventorySync

/-- What a request asks for. -/
inductive Method where
  | get
  | post
  | put
  | delete
deriving DecidableEq, Repr, Inhabited

/-- The name of a method. -/
def Method.name : Method → String
  | .get => "GET"
  | .post => "POST"
  | .put => "PUT"
  | .delete => "DELETE"

/-- A request. -/
structure HttpRequest where
  method : Method
  target : String
  apiKey : Option String
  /-- Sent as JSON. -/
  body : Option Json
deriving DecidableEq, Repr, Inhabited

/-- The type of the body, for a request that has one. -/
def HttpRequest.contentType (r : HttpRequest) : Option String :=
  r.body.map fun _ => "application/json"

/-- What comes back for a request. -/
inductive HttpAnswer where
  | response (status : Nat) (body : String)
  /-- The connection was closed without an answer. -/
  | dropped
deriving DecidableEq, Repr, Inhabited

namespace HttpAnswer

/-- The statuses whose answers have no body. -/
def isBodiless (status : Nat) : Bool := status ∈ [101, 204, 304]

/-- The status and body, when there is an answer: one that only informs is none, unless the protocol
is switched, and a status has three digits. -/
def received? : HttpAnswer → Option (Nat × String)
  | .response status body =>
    if (200 ≤ status ∧ status < 1000) ∨ status = 101 then
      some (status, if isBodiless status then "" else body)
    else none
  | .dropped => none

end HttpAnswer

/-- Why there is no list. -/
inductive HashListError where
  | request
  | status
  | decoding
deriving DecidableEq, Repr

/-- The text of the error. -/
def HashListError.message : HashListError → String
  | .request => "requesting hash list"
  | .status => "hash list status"
  | .decoding => "decoding hash list"

/-- An inventory at a place on a server. -/
structure HttpInventory where
  /-- What every address begins with after the host. -/
  base : String
  apiKey : Option String
deriving DecidableEq, Repr, Inhabited

namespace HttpInventory

/-- The inventory at an address, slashes at its end left out. -/
def new (address : String) (apiKey : Option String) : HttpInventory :=
  ⟨String.ofList (address.toList.reverse.dropWhile (· = '/')).reverse, apiKey⟩

/-! ## Requests -/

/-- Whether a character may stand in a header. -/
def isHeaderChar (c : Char) : Bool := c == '\t' || (0x20 ≤ c.toNat && c.toNat != 0x7F)

/-- A header's value as it arrives, without the blanks around it; none when it cannot be sent. -/
def headerValue? (value : String) : Option String :=
  let cs := value.toList
  let isSpace := fun c => c == ' ' || c == '\t'
  if cs.all isHeaderChar then
    some (String.ofList ((cs.dropWhile isSpace).reverse.dropWhile isSpace).reverse)
  else none

/-- The API key as it arrives; no answer when it cannot be sent. -/
def header? (h : HttpInventory) : Option (Option String) :=
  match h.apiKey with
  | some key => (headerValue? key).map some
  | none => some none

/-- Where new records are sent. -/
def collection (h : HttpInventory) : String := h.base ++ "/v1/resources"

/-- Where changes of the record with an identifier are sent. -/
def location (h : HttpInventory) (uid : String) : String := h.base ++ "/v1/resources/uid/" ++ uid

/-- The method of a change. -/
def methodOf : Action → Method
  | .create => .post
  | .update => .put
  | .delete => .delete

/-- Where a change is sent. -/
def placeOf (h : HttpInventory) (action : Action) (uid : String) : String :=
  match action with
  | .create => h.collection
  | .update | .delete => h.location uid

/-- The request that asks for a change, if it can be sent. -/
def change? (h : HttpInventory) (u : ResourceUpdate) : Option HttpRequest := do
  let address ← Address.read? (h.placeOf u.action u.uid)
  return ⟨methodOf u.action, address.target, ← h.header?, some u.toJson⟩

/-- The request for the list of an owner, if it can be sent. -/
def list? (h : HttpInventory) (owner : Owner) : Option HttpRequest := do
  let address ← Address.read? (h.base ++ "/v1/resources/hashes")
  let address := (address.addQuery "ownerScope" owner.scope).addQuery "ownerSubject" owner.subject
  return ⟨.get, address.target, ← h.header?, none⟩

/-! ## Answers -/

/-- Why a change has no answer. -/
def unsent : String := "sending request to inventory"

/-- What an answer to a change means; there is none when the request could not be sent. -/
def replyOf (answer : Option HttpAnswer) : Reply :=
  match answer.bind HttpAnswer.received? with
  | some (status, _) => .status status
  | none => .lost unsent

/-- The list that an answer holds; there is no answer when the request could not be sent. -/
def listOf (answer : Option HttpAnswer) : Except HashListError HashList :=
  match answer.bind HttpAnswer.received? with
  | none => .error .request
  | some (status, body) =>
    if 400 ≤ status ∧ status < 600 then .error .status
    else
      match HashList.read? body with
      | some list => .ok list
      | none => .error .decoding

end HttpInventory
end InventorySync
