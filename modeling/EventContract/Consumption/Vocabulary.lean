/-!
# The vocabulary of the connection logic

The types that every consumption module declares for the state of its connection, for the signals
that reach it and for the effects it asks for.
-/

namespace EventContract.Consumption

def connectionTypes : List String :=
  [
    "export type ConnectionState =",
    "  | \x7b readonly kind: \"idle\" \x7d",
    "  | \x7b readonly kind: \"connected\" \x7d",
    "  | \x7b readonly kind: \"reconnecting\"; readonly attempt: number \x7d",
    "  | \x7b readonly kind: \"disconnected\" \x7d;",
    "",
    "export type ConnectionSignal = \"connect\" | \"opened\" | \"streamLost\" | \"retryTimerFired\" | \"disconnect\";",
    "",
    "export type ConnectionEffect =",
    "  | \x7b readonly kind: \"openStream\" \x7d",
    "  | \x7b readonly kind: \"closeStream\" \x7d",
    "  | \x7b readonly kind: \"scheduleRetry\"; readonly attempt: number; readonly delayMs: number \x7d",
    "  | \x7b readonly kind: \"cancelRetry\" \x7d",
    "  | \x7b readonly kind: \"gaveUp\" \x7d;",
    "",
    "export interface BackoffPolicy \x7b",
    "  /** Delay before the first retry. */",
    "  readonly baseDelayMs: number;",
    "  /** Retries allowed before giving up. */",
    "  readonly maxAttempts: number;",
    "\x7d",
    "",
    "export interface Transition \x7b",
    "  readonly state: ConnectionState;",
    "  readonly effects: readonly ConnectionEffect[];",
    "\x7d",
    ""]

end EventContract.Consumption
