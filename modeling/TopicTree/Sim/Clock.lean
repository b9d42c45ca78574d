/-!
# The clock of a simulation

Time stands still until it is moved.
-/

namespace TopicTree

/-- A clock that is moved by hand. -/
structure Clock where
  /-- Milliseconds since the start. -/
  now : Nat
  deriving DecidableEq, Repr

namespace Clock

/-- A clock at the start. -/
def start : Clock :=
  ⟨0⟩

/-- A clock moved forward. -/
def advance (clock : Clock) (ms : Nat) : Clock :=
  ⟨clock.now + ms⟩

end Clock
end TopicTree
