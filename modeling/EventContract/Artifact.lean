/-!
# Two artifacts

From one schema come two artifacts, one for each end of the stream: the emission header, with which
a native program publishes events, and the consumption module, with which a client subscribes to
them.
-/

namespace EventContract

/-- The end of the stream that an artifact is for. -/
inductive Target where
  | emission
  | consumption
  deriving DecidableEq, Repr

def Target.word : Target → String
  | .emission => "emission"
  | .consumption => "consumption"

/-- One written file. -/
structure Artifact where
  target : Target
  outputName : String
  content : String
  deriving DecidableEq, Repr

end EventContract
