import Std.Data.TreeMap
import ShapeScript.Run.Block

/-!
Dispatch of a switch.
-/

namespace ShapeScript

/-- Equal numbers have equal keys: both zeros share one. A NaN equals nothing and has no key. -/
def caseKey? (v : Float) : Option UInt64 :=
  if v.isNaN then none else if v == 0 then some 0 else some v.toBits

/-- The bodies of a switch in source order, and the position of the body for each case key. -/
structure SwitchTable where
  index : Std.TreeMap UInt64 Nat
  bodies : List Code
  fallback : Option Code

namespace SwitchTable

/-- The bodies to run for a value: from its case on to the end, the fallback last. Without a case
only the fallback is left. -/
def tail (t : SwitchTable) (v : Float) : List Code :=
  match (caseKey? v).bind (t.index[·]?) with
  | some position => t.bodies.drop position ++ t.fallback.toList
  | none => t.fallback.toList

def dispatch (t : SwitchTable) (v : Float) : Code :=
  Run.fallThrough (t.tail v) none

end SwitchTable

end ShapeScript
