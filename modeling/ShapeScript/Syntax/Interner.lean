import Std.Data.TreeMap

/-!
Interned text: every distinct string gets a number, in the order of first use.
-/

namespace ShapeScript

/-- The number of an interned string. -/
structure Name where
  index : Nat
deriving DecidableEq, Repr

namespace Name

/-- The empty string has the first number. -/
def empty : Name := ⟨0⟩

end Name

/-- The strings by number, and the numbers by string. -/
structure Interner where
  texts : Array String
  names : Std.TreeMap String Name

namespace Interner

/-- A fresh interner knows the empty string only. -/
def fresh : Interner where
  texts := #[""]
  names := (∅ : Std.TreeMap String Name).insert "" Name.empty

/-- The number of a string that has one. -/
def find? (i : Interner) (s : String) : Option Name := i.names[s]?

/-- The string with a number, if that number was given out. -/
def text? (i : Interner) (n : Name) : Option String := i.texts[n.index]?

/-- The second half of interning: look again, since the string may have got its number since the
first look, and only then give out the next number. Numbers have 32 bits, and with all of them given
out a new string has nowhere to go. This limit of 2^32 strings is left out: the next number is always
there. -/
def issue (i : Interner) (s : String) : Name × Interner :=
  match i.find? s with
  | some n => (n, i)
  | none =>
    let n : Name := ⟨i.texts.size⟩
    (n, { texts := i.texts.push s, names := i.names.insert s n })

/-- The number of a string, a new one if it had none. -/
def intern (i : Interner) (s : String) : Name × Interner :=
  match i.find? s with
  | some n => (n, i)
  | none => i.issue s

/-- How many strings have a number. -/
def size (i : Interner) : Nat := i.texts.size

/-- Whether nothing but the empty string has a number. -/
def isEmpty (i : Interner) : Bool := i.size ≤ 1

theorem intern_eq_issue (i : Interner) (s : String) : i.intern s = i.issue s := by
  unfold intern issue
  cases i.find? s <;> rfl

end Interner

end ShapeScript
