/-!
This module contains the handles by which triggers and channels are referred to once they are registered.
-/

namespace PulseSequencer

structure TriggerId where
  index : Nat
deriving DecidableEq, Repr, Inhabited

structure ChannelId where
  index : Nat
deriving DecidableEq, Repr, Inhabited

end PulseSequencer
