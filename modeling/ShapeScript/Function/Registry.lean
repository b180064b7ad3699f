import Std.Data.TreeMap

/-!
Host functions and the registry that scripts call them through.

A function has a name and a list of parameters, each passed by value or by reference. It works on a
buffer with one number per parameter; what it leaves there is handed back to the variables passed
by reference. Functions of one name are told apart by how many parameters they take. A registry
only grows, so the number of a function stays good for as long as the registry lives.
-/

namespace ShapeScript

/-- How an argument reaches a function. -/
inductive ParamKind where
  | value
  /-- The argument is a variable, read before the call and written after it. -/
  | reference
deriving DecidableEq, Repr

namespace ParamKind

def label : ParamKind → String
  | value => "Value"
  | reference => "Reference"

end ParamKind

/-- How a call of a host function ended. -/
inductive CallResult where
  | value (result : Float)
  | failed (message : String)
  /-- The function reached outside its buffer; nothing can go on from there. -/
  | overrun

/-- The end of a call and the buffer as the function left it. -/
structure Reply where
  result : CallResult
  buffer : List Float

structure HostFunction where
  name : String
  params : List ParamKind
  run : List Float → Reply

namespace HostFunction

def arity (f : HostFunction) : Nat := f.params.length

end HostFunction

/-- The number of a function in its registry. -/
structure FunctionId where
  index : Nat
deriving DecidableEq, Repr

/-- A name and arity that is taken already. -/
structure FunctionExists where
  name : String
  arity : Nat
deriving DecidableEq, Repr

namespace FunctionExists

def message (e : FunctionExists) : String :=
  "function `" ++ e.name ++ s!"` taking {e.arity} argument(s) is already registered"

end FunctionExists

/-- The functions by number, and the numbers by name in the order of registration. -/
structure Registry where
  /-- What tells one registry from another. -/
  identity : Nat
  functions : Array HostFunction
  byName : Std.TreeMap String (List FunctionId)

namespace Registry

def empty (identity : Nat) : Registry := ⟨identity, #[], ∅⟩

def function? (r : Registry) (id : FunctionId) : Option HostFunction := r.functions[id.index]?

/-- The numbers of the functions with a name. -/
def overloads (r : Registry) (name : String) : List FunctionId := (r.byName[name]?).getD []

/-- How a function takes its arguments. -/
def params (r : Registry) (id : FunctionId) : List ParamKind :=
  ((r.function? id).map (·.params)).getD []

/-- The number of arguments that a function takes. -/
def arity? (r : Registry) (id : FunctionId) : Option Nat := (r.function? id).map (·.arity)

/-- The function with a name and arity. -/
def resolve? (r : Registry) (name : String) (arity : Nat) : Option FunctionId :=
  (r.overloads name).find? fun id => r.arity? id == some arity

/-- The arities that a name is registered with, in ascending order. -/
def arities (r : Registry) (name : String) : List Nat :=
  ((r.overloads name).filterMap r.arity?).mergeSort

/-- Adds a function whose name and arity are known to be free. -/
def insert (r : Registry) (f : HostFunction) : FunctionId × Registry :=
  let id : FunctionId := ⟨r.functions.size⟩
  (id, { r with
    functions := r.functions.push f
    byName := r.byName.insert f.name (r.overloads f.name ++ [id]) })

/-- Adds a function; a name and arity can be taken only once. -/
def register (r : Registry) (f : HostFunction) : Except FunctionExists (FunctionId × Registry) :=
  if (r.resolve? f.name f.arity).isSome then .error ⟨f.name, f.arity⟩
  else .ok (r.insert f)

def size (r : Registry) : Nat := r.functions.size

def isEmpty (r : Registry) : Bool := r.functions.isEmpty

theorem function?_insert (r : Registry) (f : HostFunction) (id : FunctionId) :
    (r.insert f).2.function? id = if id = (r.insert f).1 then some f else r.function? id := by
  obtain ⟨i⟩ := id
  simp [insert, function?, Array.getElem?_push]

theorem overloads_insert (r : Registry) (f : HostFunction) (name : String) :
    (r.insert f).2.overloads name =
      if f.name = name then r.overloads name ++ [(r.insert f).1] else r.overloads name := by
  by_cases h : f.name = name <;> simp [insert, overloads, Std.TreeMap.getElem?_insert, h]

end Registry

namespace HostFunction

/-- A function of one value. -/
def unary (name : String) (f : Float → Float) : HostFunction where
  name
  params := [.value]
  run
    | buffer@(x :: _) => ⟨.value (f x), buffer⟩
    | buffer => ⟨.overrun, buffer⟩

/-- A function of two values. -/
def binary (name : String) (f : Float → Float → Float) : HostFunction where
  name
  params := [.value, .value]
  run
    | buffer@(x :: y :: _) => ⟨.value (f x y), buffer⟩
    | buffer => ⟨.overrun, buffer⟩

/-- A function of three values. -/
def ternary (name : String) (f : Float → Float → Float → Float) : HostFunction where
  name
  params := [.value, .value, .value]
  run
    | buffer@(x :: y :: z :: _) => ⟨.value (f x y z), buffer⟩
    | buffer => ⟨.overrun, buffer⟩

end HostFunction

end ShapeScript
