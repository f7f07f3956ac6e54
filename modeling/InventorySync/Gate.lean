import Std.Data.ExtTreeMap

/-! # The send gate

Keeps sends of one identifier apart. Whoever wants to send asks at the identifier's slot and waits
in its line; the first in line has the gate until it leaves, and then the next one has it. A slot
is made when an identifier is first asked for and removed when its line has become empty, so an
identifier may have several slots in the course of time; slots are told apart by their numbers. -/

namespace InventorySync

open Std (ExtTreeMap)

/-- A place in the line of a slot. -/
structure Visit where
  identifier : String
  slot : Nat
  /-- Who stands there. -/
  visitor : Nat
deriving DecidableEq, Repr, Inhabited

/-- The slots in use. -/
structure SendGate where
  /-- The slot at which an identifier is asked for now. -/
  slots : ExtTreeMap String Nat
  /-- Who stands in the line of a slot, in the order of asking. -/
  lines : ExtTreeMap Nat (List Nat)
  /-- The number of the next slot. -/
  nextSlot : Nat
deriving DecidableEq

namespace SendGate

/-- The gate with nobody at it. -/
def empty : SendGate := ⟨∅, ∅, 0⟩

instance : Inhabited SendGate := ⟨empty⟩

/-- The line of a slot. -/
def line (g : SendGate) (slot : Nat) : List Nat := g.lines[slot]?.getD []

/-- Who has the gate of a slot. -/
def holder? (g : SendGate) (slot : Nat) : Option Nat := (g.line slot).head?

/-- Whether this visit has the gate. -/
def admits (g : SendGate) (v : Visit) : Bool := g.holder? v.slot == some v.visitor

/-- Ask for an identifier: stand at the end of the line of its slot, a new one if it has none. -/
def enter (g : SendGate) (id : String) (visitor : Nat) : Visit × SendGate :=
  match g.slots[id]? with
  | some slot =>
    (⟨id, slot, visitor⟩, { g with lines := g.lines.insert slot (g.line slot ++ [visitor]) })
  | none =>
    (⟨id, g.nextSlot, visitor⟩,
      ⟨g.slots.insert id g.nextSlot, g.lines.insert g.nextSlot [visitor], g.nextSlot + 1⟩)

/-- Leave the line; the slot that the identifier has now is removed when nobody is in its line.
Gives the visitor who has the gate next. -/
def leave (g : SendGate) (v : Visit) : Option Nat × SendGate :=
  let rest := (g.line v.slot).erase v.visitor
  let lines := if rest.isEmpty then g.lines.erase v.slot else g.lines.insert v.slot rest
  let slots :=
    match g.slots[v.identifier]? with
    | some slot => if (lines[slot]?.getD []).isEmpty then g.slots.erase v.identifier else g.slots
    | none => g.slots
  (rest.head?, { g with slots, lines })

end SendGate
end InventorySync
