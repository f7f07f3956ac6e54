/-! # What the inventory answers

A change asked of the inventory comes back as a status or not at all. Every status from 200 to 299
is a success, everything else a failure that may be tried again. -/

namespace InventorySync

/-- What comes back for a request. -/
inductive Reply where
  | status (code : Nat)
  /-- No answer; the reason in words. -/
  | lost (reason : String)
deriving DecidableEq, Repr, Inhabited

/-- A failed send. -/
inductive SendError where
  | transport (reason : String)
  | status (code : Nat)
deriving DecidableEq, Repr

/-- The text of the error. -/
def SendError.message : SendError → String
  | .transport reason => "transport: " ++ reason
  | .status code => "remote returned status " ++ toString code

namespace Reply

/-- What a reply means for the send. -/
def result : Reply → Except SendError Unit
  | .status code => if 200 ≤ code ∧ code < 300 then .ok () else .error (.status code)
  | .lost reason => .error (.transport reason)

/-- Whether the send succeeded. -/
def isOk (r : Reply) : Bool :=
  match r.result with
  | .ok _ => true
  | .error _ => false

/-- The number of failed sends since the last success, after this reply. -/
def countErrors (errors : Nat) (r : Reply) : Nat := if r.isOk then 0 else errors + 1

end Reply
end InventorySync
