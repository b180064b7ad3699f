import ShapeScript.Syntax.Node

/-!
Flat storage of syntax trees.

Nodes only ever get added, up to a limit. Rows of references and rows of cases lie in side tables of
their own, and a node refers to them by a range. A row that is too long is refused, yet its entries
stay in the table. The length of a side table is not checked: the start of a range is cut to its word,
so behind 2^32 entries ranges lie over older ones.
-/

namespace ShapeScript

/-- More nodes than there are numbers, or a row with more entries than a range can count. -/
inductive Overflow where
  | tooManyNodes
  | rowTooLong
  | casesTooLong
deriving DecidableEq, Repr

namespace Overflow

def message : Overflow → String
  | tooManyNodes => "expression arena exceeded u32::MAX nodes"
  | rowTooLong => "expression list exceeded u16::MAX entries"
  | casesTooLong => "switch exceeded u16::MAX cases"

end Overflow

structure Arena where
  nodes : Array Node
  rows : Array NodeId
  cases : Array Case

namespace Arena

/-- The longest row that a range can count. -/
def longest : Nat := 65535

/-- How many nodes have a number. -/
def capacity : Nat := 4294967296

/-- The start of a range behind so many entries, cut to 32 bits. -/
def startAt (entries : Nat) : Nat := entries.toUInt32.toNat

def empty : Arena := ⟨#[], #[], #[]⟩

/-- Appends a node; a full arena stays as it is. -/
def addNode (a : Arena) (node : Node) : Except Overflow NodeId × Arena :=
  if a.nodes.size < capacity then (.ok ⟨a.nodes.size⟩, { a with nodes := a.nodes.push node })
  else (.error .tooManyNodes, a)

/-- Appends a row; the entries stay even if the row is refused. -/
def addRow (a : Arena) (ids : List NodeId) : Except Overflow RowRange × Arena :=
  let grown := { a with rows := a.rows ++ ids }
  if ids.length ≤ longest then (.ok ⟨startAt a.rows.size, ids.length⟩, grown)
  else (.error .rowTooLong, grown)

/-- Appends a row of cases; the entries stay even if the row is refused. -/
def addCases (a : Arena) (cases : List Case) : Except Overflow CaseRange × Arena :=
  let grown := { a with cases := a.cases ++ cases }
  if cases.length ≤ longest then (.ok ⟨startAt a.cases.size, cases.length⟩, grown)
  else (.error .casesTooLong, grown)

def node? (a : Arena) (id : NodeId) : Option Node := a.nodes[id.index]?

def span? (a : Arena) (id : NodeId) : Option Span := (a.node? id).map (·.span)

/-- The entries of a range that lies inside the table. -/
def slice? {α : Type} (table : Array α) (start length : Nat) : Option (List α) :=
  if start + length ≤ table.size then some (table.extract start (start + length)).toList else none

def row? (a : Arena) (r : RowRange) : Option (List NodeId) := slice? a.rows r.start r.length

def cases? (a : Arena) (r : CaseRange) : Option (List Case) := slice? a.cases r.start r.length

def size (a : Arena) : Nat := a.nodes.size

def isEmpty (a : Arena) : Bool := a.nodes.isEmpty

theorem startAt_of_lt {entries : Nat} (lt : entries < 4294967296) : startAt entries = entries :=
  UInt32.toNat_ofNat_of_lt' lt

theorem startAt_le (entries : Nat) : startAt entries ≤ entries := by
  rw [startAt, UInt32.toNat_ofNat']
  exact Nat.mod_le ..

theorem startAt_lt (entries : Nat) : startAt entries < 4294967296 := entries.toUInt32.toNat_lt

theorem node?_push (a : Arena) (node : Node) (id : NodeId) :
    node? { a with nodes := a.nodes.push node } id =
      if id = ⟨a.size⟩ then some node else a.node? id := by
  obtain ⟨i⟩ := id
  simp [node?, size, Array.getElem?_push]

end Arena

end ShapeScript
