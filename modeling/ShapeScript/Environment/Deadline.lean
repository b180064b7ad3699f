/-!
Deadlines on the clock of the host.

Instants and durations are whole nanoseconds. A deadline that the clock cannot represent never
comes.
-/

namespace ShapeScript

/-- A reading of the clock. -/
abbrev Instant := Nat

abbrev Duration := Nat

namespace Duration

def ofMilliseconds (n : Nat) : Duration := n * 1000000

def toMilliseconds (d : Duration) : Nat := d / 1000000

/-- The longest duration: one nanosecond less than `2 ^ 64` seconds. -/
def longest : Duration := UInt64.size * 1000000000 - 1

end Duration

/-- The moment from which on loops refuse to start another iteration, if there is one. -/
structure Deadline where
  instant? : Option Instant
deriving DecidableEq, Repr

namespace Deadline

/-- The last reading of the clock: seconds are signed 64-bit numbers, so the next one would be
`2 ^ 63` seconds. -/
def lastInstant : Instant := UInt64.size / 2 * 1000000000 - 1

def never : Deadline := ⟨none⟩

def «at» (instant : Instant) : Deadline := ⟨some instant⟩

/-- A duration from now on; none if the clock does not reach that far. -/
def after (now : Instant) (duration : Duration) : Deadline :=
  if now + duration ≤ lastInstant then ⟨some (now + duration)⟩ else never

def isExpired (d : Deadline) (now : Instant) : Bool :=
  d.instant?.any (· ≤ now)

end Deadline

end ShapeScript
