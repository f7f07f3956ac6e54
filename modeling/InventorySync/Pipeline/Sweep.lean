import InventorySync.Pipeline.Basic

/-! # The cleanup sweep

Everything that was not seen since the window opened is deleted from the inventory, in increasing
order of identifiers; then the window is closed and the next one opened. What could not be deleted
stays in the cache unseen, so the next sweep tries again. The sweep does not pass the gate. -/

namespace InventorySync

/-- The result of a sweep. -/
structure SweepReport where
  /-- How many identifiers were unseen when the sweep began. -/
  inactive : Nat
  deleted : Nat
  failed : Nat
  /-- How many entries were marked as seen when the window closed. -/
  marked : Nat
deriving DecidableEq, Repr, Inhabited

/-- Where a sweep stands. -/
inductive Sweeping where
  /-- The deletion of an identifier is asked for and not yet answered; the identifiers after it,
  and the report so far. -/
  | sending (owner : Owner) (id : String) (rest : List String) (report : SweepReport)
  | done (report : SweepReport)
deriving DecidableEq, Repr, Inhabited

namespace Sweeping

/-- Go on with the next identifier; after the last one the next window is opened, and those who wait
for it are told. -/
def next (p : Pipeline) (owner : Owner) (ids : List String) (report : SweepReport) :
    Turn Sweeping :=
  match ids with
  | [] =>
    ⟨{ p with cache := p.cache.closeWindow.openWindow },
      .done { report with marked := p.cache.activeCount }, none, true⟩
  | id :: rest => ⟨p, .sending owner id rest report, none, false⟩

/-- A sweep begins with the identifiers that are unseen now. -/
def start (p : Pipeline) (owner : Owner) : Turn Sweeping :=
  let ids := p.cache.inactive
  next p owner ids ⟨ids.length, 0, 0, 0⟩

/-- The reply is there: a deleted identifier is forgotten. -/
def replied (p : Pipeline) (owner : Owner) (id : String) (rest : List String)
    (report : SweepReport) (reply : Reply) : Turn Sweeping :=
  let p := p.countReply reply
  if reply.isOk then
    next { p with cache := p.cache.forget id } owner rest
      { report with deleted := report.deleted + 1 }
  else next p owner rest { report with failed := report.failed + 1 }

/-- How many steps are left. -/
def stepsLeft : Sweeping → Nat
  | .sending _ _ rest _ => rest.length + 1
  | .done _ => 0

theorem stepsLeft_next (p : Pipeline) (owner : Owner) (ids : List String) (report : SweepReport) :
    (next p owner ids report).stage.stepsLeft = ids.length := by
  cases ids <;> simp [next, stepsLeft]

end Sweeping
end InventorySync
