import Std.Data.TreeMap
import ShapeScript.Report.Failure

/-!
Named slots: the variables and constants of a run.

Scripts read both kinds, but write variables only. The host alone makes constants.
-/

namespace ShapeScript

inductive Slot where
  | var (value : Float)
  | const (value : Float)
deriving DecidableEq

namespace Slot

def value : Slot → Float
  | var v => v
  | const v => v

def isConstant : Slot → Bool
  | var _ => false
  | const _ => true

end Slot

/-- Why a slot cannot be used as a variable. -/
inductive SlotError where
  | uninitialized
  | constant
deriving DecidableEq, Repr

namespace SlotError

/-- The fault of a run that met this with the variable `name`. -/
def fault (name : String) : SlotError → RunFault
  | uninitialized => .uninitializedVariable name
  | constant => .constantReassignment name

end SlotError

/-- Slots by name. -/
structure Slots where
  table : Std.TreeMap String Slot

namespace Slots

def empty : Slots := ⟨∅⟩

def slot? (s : Slots) (name : String) : Option Slot := s.table[name]?

/-- The value of a variable or constant. -/
def value (s : Slots) (name : String) : Except SlotError Float :=
  match s.slot? name with
  | some slot => .ok slot.value
  | none => .error .uninitialized

/-- The value of an existing variable. -/
def varValue (s : Slots) (name : String) : Except SlotError Float :=
  match s.slot? name with
  | some (.var v) => .ok v
  | some (.const _) => .error .constant
  | none => .error .uninitialized

/-- The value of a variable, which is created with zero if the name is free. -/
def init (s : Slots) (name : String) : Except SlotError (Float × Slots) :=
  match s.slot? name with
  | some (.var v) => .ok (v, s)
  | some (.const _) => .error .constant
  | none => .ok (0, ⟨s.table.insert name (.var 0)⟩)

/-- Puts a value into a slot that is a variable or free. -/
def write (s : Slots) (name : String) (v : Float) : Slots :=
  ⟨s.table.insert name (.var v)⟩

/-- Assigns a variable, which is created if the name is free. -/
def assign (s : Slots) (name : String) (v : Float) : Except SlotError Slots :=
  match s.slot? name with
  | some (.const _) => .error .constant
  | _ => .ok (s.write name v)

/-- Binds a constant in place of whatever the name was bound to. -/
def define (s : Slots) (name : String) (v : Float) : Slots :=
  ⟨s.table.insert name (.const v)⟩

def remove (s : Slots) (name : String) : Option Slot × Slots :=
  (s.slot? name, ⟨s.table.erase name⟩)

def size (s : Slots) : Nat := s.table.size

def isEmpty (s : Slots) : Bool := s.table.isEmpty

/-- All slots in the order of their names. -/
def toList (s : Slots) : List (String × Slot) := s.table.toList

@[simp] theorem slot?_empty (name : String) : empty.slot? name = none := by
  simp [empty, slot?]

theorem slot?_write (s : Slots) (name other : String) (v : Float) :
    (s.write name v).slot? other = if name = other then some (.var v) else s.slot? other := by
  simp [write, slot?, Std.TreeMap.getElem?_insert]

theorem slot?_define (s : Slots) (name other : String) (v : Float) :
    (s.define name v).slot? other = if name = other then some (.const v) else s.slot? other := by
  simp [define, slot?, Std.TreeMap.getElem?_insert]

theorem slot?_remove (s : Slots) (name other : String) :
    (s.remove name).2.slot? other = if name = other then none else s.slot? other := by
  simp [remove, slot?, Std.TreeMap.getElem?_erase]

end Slots

end ShapeScript
