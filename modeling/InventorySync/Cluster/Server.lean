import InventorySync.Cluster.Stream

/-! # Answers of a cluster's server

How a server's answer to a request counts as a page of a list or as a change stream. -/

namespace InventorySync

/-- An answer of the server. -/
structure ServerAnswer where
  /-- What happens before the answer. -/
  effects : Effects
  /-- The request fails without an answer. -/
  refused : Bool
  status : Nat
  body : List Piece
  /-- Whether the body ends; otherwise it stays open. -/
  closes : Bool
deriving DecidableEq, Repr, Inhabited

namespace ServerAnswer

/-- Whether the status is that of an error. -/
def isError (a : ServerAnswer) : Bool := 400 ≤ a.status

/-- The whole body, if the answer is a success and the body arrives. -/
def text? (a : ServerAnswer) : Option String :=
  if a.refused || a.isError || .broken ∈ a.body then none
  else
    some (String.join (a.body.filterMap fun
      | .text s => some s
      | .effects _ | .broken => none))

/-- The answer as a page of a list. -/
def listReply (r : ServedResource) (a : ServerAnswer) : ListReply :=
  ⟨a.effects, a.text?.bind r.readPage⟩

/-- The answer as a change stream, whatever its status. -/
def watchReply (r : ServedResource) (a : ServerAnswer) : WatchReply :=
  ⟨a.effects, if a.refused then none else some (Piece.script r a.closes "" a.body)⟩

/-- Answers given in turn. -/
def inTurn (r : ServedResource) (lists watches : List ServerAnswer) : SourceScript :=
  ⟨lists.map (·.listReply r), watches.map (·.watchReply r), none, none, true⟩

/-- One answer given always. -/
def always (r : ServedResource) (a : ServerAnswer) : SourceScript :=
  ⟨[], [], some (a.listReply r), some (a.watchReply r), true⟩

end ServerAnswer
end InventorySync
