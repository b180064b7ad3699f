import ShapeScript.Environment.Config
import ShapeScript.Run.Signal

/-!
The environment of a run: its slots and its setting.
-/

namespace ShapeScript

structure Environment where
  slots : Slots
  setting : Setting

namespace Environment

/-- No slots, and the standard ceiling. -/
def fresh (registry : Registry) (deadline : Deadline) (now : Instant) : Environment :=
  ⟨.empty, ⟨registry, Config.defaultCeiling, deadline, now⟩⟩

/-- No slots, and a deadline that starts to count now. -/
def withConfig (registry : Registry) (config : Config) (now : Instant) : Environment :=
  ⟨.empty, ⟨registry, config.ceiling, config.deadline now, now⟩⟩

def withCeiling (e : Environment) (ceiling : Nat) : Environment :=
  { e with setting := { e.setting with ceiling } }

def withDeadline (e : Environment) (deadline : Deadline) : Environment :=
  { e with setting := { e.setting with deadline } }

def withSlots (e : Environment) (slots : Slots) : Environment := { e with slots }

def define (e : Environment) (name : String) (v : Float) : Environment :=
  e.withSlots (e.slots.define name v)

/-- The constants that every script may count on. -/
def standardConstants : List (String × Float) :=
  [("e", Float.ofBits 0x4005BF0A8B145769), ("pi", Float.ofBits 0x400921FB54442D18), ("true", 1),
    ("false", 0)]

def defineStandard (e : Environment) : Environment :=
  standardConstants.foldl (fun e (name, v) => e.define name v) e

def isExpired (e : Environment) : Bool := e.setting.deadline.isExpired e.setting.now

/-- The error of a run that is out of time; no node is to blame. -/
def checkDeadline (e : Environment) : Except RunError Unit :=
  if e.isExpired then .error ⟨.timeout, none⟩ else .ok ()

end Environment

end ShapeScript
