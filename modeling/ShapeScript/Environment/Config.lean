import ShapeScript.Environment.Deadline

/-!
Limits of a run as a host configures them.
-/

namespace ShapeScript

structure Config where
  /-- The time for one run, or for all runs that share a deadline. -/
  timeout : Duration
  /-- How many iterations one execution of a loop may run; a nested loop counts anew each time. -/
  ceiling : Nat
deriving DecidableEq, Repr

namespace Config

def defaultTimeout : Duration := Duration.ofMilliseconds 100

def defaultCeiling : Nat := 256

def standard : Config := ⟨defaultTimeout, defaultCeiling⟩

/-- The end of the time if it begins now. -/
def deadline (c : Config) (now : Instant) : Deadline := .after now c.timeout

end Config

end ShapeScript
