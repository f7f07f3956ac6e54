/-! # The agenda

What is to happen and when, under a clock that stands still while anything can happen and then jumps
to the next moment at which something is due. Times are in milliseconds. Of several things due at
one moment the one put down first happens first, except that `atOnce` puts something before
everything else. -/

namespace InventorySync

/-- The time, and what is still to happen in increasing order of time. -/
structure Agenda (α : Type) where
  now : Nat
  entries : List (Nat × α)
deriving Repr

namespace Agenda

variable {α : Type}

/-- Nothing is to happen, and the clock begins at zero. -/
def empty : Agenda α := ⟨0, []⟩

instance : Inhabited (Agenda α) := ⟨empty⟩

/-- Put an entry behind all entries that are not later. -/
def insertLast (time : Nat) (x : α) : List (Nat × α) → List (Nat × α)
  | [] => [(time, x)]
  | e :: rest => if time < e.1 then (time, x) :: e :: rest else e :: insertLast time x rest

/-- Something happens at a time; at the present one if that has passed. -/
def plan (a : Agenda α) (time : Nat) (x : α) : Agenda α :=
  { a with entries := insertLast (max a.now time) x a.entries }

/-- Something happens after a delay. -/
def after (a : Agenda α) (delay : Nat) (x : α) : Agenda α := a.plan (a.now + delay) x

/-- Something happens now, after all else that happens now. -/
def soon (a : Agenda α) (x : α) : Agenda α := a.plan a.now x

/-- Something happens now, before all else. -/
def atOnce (a : Agenda α) (x : α) : Agenda α := { a with entries := (a.now, x) :: a.entries }

/-- Something happens after a delay; at once if there is none. -/
def delayed (a : Agenda α) (delay : Nat) (x : α) : Agenda α :=
  if delay = 0 then a.atOnce x else a.after delay x

/-- The next thing that happens, with the clock moved on to its time. -/
def next? (a : Agenda α) : Option (α × Agenda α) :=
  match a.entries with
  | [] => none
  | (time, x) :: rest => some (x, ⟨max a.now time, rest⟩)

end Agenda
end InventorySync
