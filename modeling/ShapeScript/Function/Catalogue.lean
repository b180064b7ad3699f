import ShapeScript.Function.Registry
import ShapeScript.Number.CubeRoot

/-!
The standard mathematical functions.
-/

namespace ShapeScript

namespace Catalogue

/-- The larger of two numbers; a NaN yields to the other one. -/
def larger (a b : Float) : Float :=
  if a.isNaN then b else if b.isNaN then a else if a < b then b else a

/-- The smaller of two numbers; a NaN yields to the other one. -/
def smaller (a b : Float) : Float :=
  if a.isNaN then b else if b.isNaN then a else if b < a then b else a

/-- Both `ln` and `log` are the natural logarithm. Halves go to the even neighbour in `rint` and
away from zero in `round`. -/
def unaryFunctions : List (String × (Float → Float)) :=
  [("abs", Float.abs), ("acos", Float.acos), ("asin", Float.asin), ("atan", Float.atan),
    ("cbrt", CubeRoot.ofNumber), ("ceil", Float.ceil), ("cos", Float.cos), ("cosh", Float.cosh),
    ("exp", Float.exp), ("floor", Float.floor), ("ln", Float.log), ("log", Float.log),
    ("log10", Float.log10), ("rint", Binary64.roundHalfEven), ("round", Float.round),
    ("sin", Float.sin), ("sinh", Float.sinh), ("sqrt", Float.sqrt), ("tan", Float.tan),
    ("tanh", Float.tanh)]

def binaryFunctions : List (String × (Float → Float → Float)) :=
  [("atan2", Float.atan2), ("max", larger), ("min", smaller)]

def ternaryFunctions : List (String × (Float → Float → Float → Float)) :=
  [("max", fun a b c => larger (larger a b) c), ("min", fun a b c => smaller (smaller a b) c)]

/-- The catalogue in the order of registration. -/
def functions : List HostFunction :=
  unaryFunctions.map (fun (name, f) => .unary name f)
    ++ binaryFunctions.map (fun (name, f) => .binary name f)
    ++ ternaryFunctions.map (fun (name, f) => .ternary name f)

end Catalogue

/-- A registry that holds the catalogue. -/
def Registry.withMath (identity : Nat) : Registry :=
  Catalogue.functions.foldl (fun r f => (r.insert f).2) (Registry.empty identity)

end ShapeScript
