import ShapeScript.Function.Registry

/-!
Sample host functions, with which a host tries out the ways of passing arguments.
-/

namespace ShapeScript

/-- What a sample function does with its buffer. -/
inductive SampleBody where
  /-- The constant seven. -/
  | seven
  /-- The first argument. -/
  | first
  /-- The arguments added up from the left, beginning with zero. -/
  | sum
  /-- Exchanges the first two arguments and adds them up. -/
  | swap
  /-- Copies the second argument to the first, unless it is negative. -/
  | fill
  /-- Adds the first argument to the second. -/
  | increase
  /-- The square root, unless the first argument is negative. -/
  | checkedSqrt
  /-- Overwrites every argument and fails. -/
  | dirty
  /-- Adds one to every argument and counts them. -/
  | count
  /-- Numbers the arguments from one on. -/
  | index
  | fail (message : String)
deriving DecidableEq, Repr

namespace SampleBody

def ofText? (text : String) : Option SampleBody :=
  match text with
  | "seven" => some seven
  | "first" => some first
  | "sum" => some sum
  | "swap" => some swap
  | "fill" => some fill
  | "inc" => some increase
  | "checked_sqrt" => some checkedSqrt
  | "dirty" => some dirty
  | "count" => some count
  | "index" => some index
  | _ =>
    let mark := "fail:".toList
    let chars := text.toList
    if mark.isPrefixOf chars then some (fail (String.ofList (chars.drop mark.length))) else none

/-- A body reaches outside a buffer that is too short for it. -/
def run : SampleBody → List Float → Reply
  | seven, buffer => ⟨.value 7, buffer⟩
  | first, a :: rest => ⟨.value a, a :: rest⟩
  | sum, buffer => ⟨.value (buffer.foldl (· + ·) 0), buffer⟩
  | swap, a :: b :: rest => ⟨.value (b + a), b :: a :: rest⟩
  | fill, a :: b :: rest =>
    if b < 0 then ⟨.failed "negative fill", a :: b :: rest⟩ else ⟨.value 1, b :: b :: rest⟩
  | increase, a :: b :: rest => ⟨.value (b + a), a :: (b + a) :: rest⟩
  | checkedSqrt, a :: rest =>
    if a < 0 then ⟨.failed "negative input", a :: rest⟩ else ⟨.value a.sqrt, a :: rest⟩
  | dirty, buffer => ⟨.failed "dirty", buffer.map fun _ => 99⟩
  | count, buffer => ⟨.value buffer.length.toFloat, buffer.map (· + 1)⟩
  | index, buffer => ⟨.value 0, (List.range buffer.length).map fun i => (i + 1).toFloat⟩
  | fail message, buffer => ⟨.failed message, buffer⟩
  | _, buffer => ⟨.overrun, buffer⟩

/-- The host function with a body. -/
def toFunction (body : SampleBody) (name : String) (params : List ParamKind) : HostFunction :=
  ⟨name, params, body.run⟩

end SampleBody

namespace Sample

def unary? : String → Option (Float → Float)
  | "neg" => some fun x => -x
  | "half" => some fun x => x / 2
  | _ => none

def binary? : String → Option (Float → Float → Float)
  | "sub" => some fun x y => x - y
  | "mul" => some fun x y => x * y
  | _ => none

def ternary? : String → Option (Float → Float → Float → Float)
  | "mad" => some fun x y z => x * y + z
  | "last" => some fun _ _ z => z
  | _ => none

end Sample

end ShapeScript
