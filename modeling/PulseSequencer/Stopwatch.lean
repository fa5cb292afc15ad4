/-!
This module contains the stopwatch that the passes over a sequence are timed with.
-/

namespace PulseSequencer

structure Stopwatch where
  last : Nat
deriving Repr

namespace Stopwatch

/--
The nanoseconds since the last tick, and the stopwatch after this one. A clock that was turned back shows no time.
-/
def tick (s : Stopwatch) (now : Nat) : Nat × Stopwatch :=
  (now - s.last, ⟨now⟩)

end Stopwatch

end PulseSequencer
