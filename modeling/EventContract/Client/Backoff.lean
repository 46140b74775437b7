import EventContract.Client.Duration
/-!
# Backing off

After a lost stream a client waits before it tries again, twice as long at each further attempt,
and after a number of attempts it gives up.
-/

namespace EventContract.Client

/-- How long a client waits between attempts and how many it makes. -/
structure Backoff where
  /-- The wait before the first attempt. -/
  baseDelay : Duration
  maxAttempts : UInt32
  deriving DecidableEq

namespace Backoff

/-- One second, and ten attempts. -/
def default : Backoff :=
  ⟨Duration.ofMillis 1000, 10⟩

/-- How often the base delay goes into the wait before an attempt: doubled at each attempt, as long
as that fits into 32 bits. -/
def factor (attempt : UInt32) : UInt32 :=
  let doublings := if attempt = 0 then 0 else attempt - 1
  if doublings < 32 then 1 <<< doublings else 4294967295

/-- The wait before an attempt, counted from 1. -/
def delay (backoff : Backoff) (attempt : UInt32) : Duration :=
  backoff.baseDelay.times (factor attempt)

end Backoff

end EventContract.Client
