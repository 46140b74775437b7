/-!
# The client of the consumption module

The text of the client that every consumption module carries, in the order in which it is written.
It does not depend on the schema: events reach it through the names and types that the module
declares before it.
-/

namespace EventContract.Consumption

def clientOptions : List String :=
  [
    "export interface EventClientOptions \x7b",
    "  /** Stream URL. Defaults to `EVENTS_URL`. */",
    "  url?: string;",
    "  backoff?: BackoffPolicy;",
    "\x7d",
    ""]

def classOpening : List String :=
  [
    "/**",
    " * Subscribes to the event stream and dispatches typed payloads.",
    " *",
    " * Callbacks registered for an event run before wildcard callbacks, each in",
    " * registration order. Callback lists are copied before dispatch, so",
    " * subscribing or unsubscribing from inside a callback applies from the next",
    " * event on. Events are only dispatched while connected.",
    " */",
    "export class EventStreamClient \x7b",
    "  private state: ConnectionState = IDLE;",
    "  private source: EventSource | null = null;",
    "  private retryTimer: ReturnType<typeof setTimeout> | null = null;",
    "  private readonly handlers = new Map<EventName, Array<(payload: any) => void>>();",
    "  private readonly wildcardHandlers: AnyEventCallback[] = [];",
    "  private readonly stateListeners: Array<(state: ConnectionState) => void> = [];",
    "  private readonly url: string;",
    "  private readonly backoff: BackoffPolicy;",
    "",
    "  constructor(options: EventClientOptions = \x7b\x7d) \x7b",
    "    this.url = options.url ?? EVENTS_URL;",
    "    this.backoff = options.backoff ?? DEFAULT_BACKOFF;",
    "  \x7d",
    ""]

def connectionMethods : List String :=
  [
    "  /** Open the stream. Does nothing while connected or reconnecting. */",
    "  connect(): void \x7b",
    "    this.apply(\"connect\");",
    "  \x7d",
    "",
    "  /** Cancel any pending retry and close the stream. Safe to call repeatedly. */",
    "  disconnect(): void \x7b",
    "    this.apply(\"disconnect\");",
    "  \x7d",
    ""]

def subscriptionMethods : List String :=
  [
    "  /** Subscribe to one event. Returns a function that removes this subscription. */",
    "  on<K extends EventName>(event: K, callback: EventCallback<K>): () => void \x7b",
    "    const list = this.handlers.get(event) ?? [];",
    "    list.push(callback);",
    "    this.handlers.set(event, list);",
    "    return () => this.off(event, callback);",
    "  \x7d",
    "",
    "  /** Remove one registration of `callback` for `event`. */",
    "  off<K extends EventName>(event: K, callback: EventCallback<K>): void \x7b",
    "    const list = this.handlers.get(event);",
    "    if (list === undefined) \x7b",
    "      return;",
    "    \x7d",
    "    const index = list.indexOf(callback);",
    "    if (index !== -1) \x7b",
    "      list.splice(index, 1);",
    "    \x7d",
    "    if (list.length === 0) \x7b",
    "      this.handlers.delete(event);",
    "    \x7d",
    "  \x7d",
    "",
    "  /** Subscribe to every event. Returns a function that removes this subscription. */",
    "  onAll(callback: AnyEventCallback): () => void \x7b",
    "    this.wildcardHandlers.push(callback);",
    "    return () => this.offAll(callback);",
    "  \x7d",
    "",
    "  offAll(callback: AnyEventCallback): void \x7b",
    "    const index = this.wildcardHandlers.indexOf(callback);",
    "    if (index !== -1) \x7b",
    "      this.wildcardHandlers.splice(index, 1);",
    "    \x7d",
    "  \x7d",
    ""]

def stateMethods : List String :=
  [
    "  isConnected(): boolean \x7b",
    "    return this.state.kind === \"connected\";",
    "  \x7d",
    "",
    "  getState(): ConnectionState \x7b",
    "    return this.state;",
    "  \x7d",
    "",
    "  /** Observe state changes. Returns a function that removes the listener. */",
    "  onStateChange(listener: (state: ConnectionState) => void): () => void \x7b",
    "    this.stateListeners.push(listener);",
    "    return () => \x7b",
    "      const index = this.stateListeners.indexOf(listener);",
    "      if (index !== -1) \x7b",
    "        this.stateListeners.splice(index, 1);",
    "      \x7d",
    "    \x7d;",
    "  \x7d",
    ""]

/-- Feeding a signal to the connection logic and performing its effects. -/
def effectMethods : List String :=
  [
    "  private apply(signal: ConnectionSignal): void \x7b",
    "    const previous = this.state;",
    "    const next = transition(previous, signal, this.backoff);",
    "    this.state = next.state;",
    "    for (const effect of next.effects) \x7b",
    "      this.perform(effect);",
    "    \x7d",
    "    if (next.state !== previous) \x7b",
    "      for (const listener of [...this.stateListeners]) \x7b",
    "        listener(next.state);",
    "      \x7d",
    "    \x7d",
    "  \x7d",
    "",
    "  private perform(effect: ConnectionEffect): void \x7b",
    "    switch (effect.kind) \x7b",
    "      case \"openStream\":",
    "        this.openStream();",
    "        break;",
    "      case \"closeStream\":",
    "        this.closeStream();",
    "        break;",
    "      case \"scheduleRetry\":",
    "        this.cancelRetry();",
    "        this.retryTimer = setTimeout(() => \x7b",
    "          this.retryTimer = null;",
    "          this.apply(\"retryTimerFired\");",
    "        \x7d, effect.delayMs);",
    "        break;",
    "      case \"cancelRetry\":",
    "        this.cancelRetry();",
    "        break;",
    "      case \"gaveUp\":",
    "        console.warn(",
    "          `Event stream: giving up after $\x7bthis.backoff.maxAttempts\x7d reconnect attempts`,",
    "        );",
    "        break;",
    "    \x7d",
    "  \x7d",
    "",
    "  private cancelRetry(): void \x7b",
    "    if (this.retryTimer !== null) \x7b",
    "      clearTimeout(this.retryTimer);",
    "      this.retryTimer = null;",
    "    \x7d",
    "  \x7d",
    ""]

def streamMethods : List String :=
  [
    "  private openStream(): void \x7b",
    "    this.closeStream();",
    "    const source = new EventSource(this.url);",
    "    this.source = source;",
    "    source.onopen = () => \x7b",
    "      if (this.source === source) \x7b",
    "        this.apply(\"opened\");",
    "      \x7d",
    "    \x7d;",
    "    source.onerror = () => \x7b",
    "      if (this.source === source) \x7b",
    "        this.apply(\"streamLost\");",
    "      \x7d",
    "    \x7d;",
    "    for (const name of EVENT_NAMES) \x7b",
    "      source.addEventListener(name, (message: MessageEvent) => \x7b",
    "        if (this.source === source) \x7b",
    "          this.receive(name, message.data);",
    "        \x7d",
    "      \x7d);",
    "    \x7d",
    "  \x7d",
    "",
    "  private closeStream(): void \x7b",
    "    if (this.source !== null) \x7b",
    "      this.source.close();",
    "      this.source = null;",
    "    \x7d",
    "  \x7d",
    ""]

/-- Taking in an event and calling the subscribers. -/
def deliveryMethods : List String :=
  [
    "  private receive(name: EventName, data: string): void \x7b",
    "    if (this.state.kind !== \"connected\") \x7b",
    "      return;",
    "    \x7d",
    "    let payload: unknown;",
    "    try \x7b",
    "      payload = JSON.parse(data);",
    "    \x7d catch (error) \x7b",
    "      console.warn(`Event stream: dropping malformed \"$\x7bname\x7d\" event`, error);",
    "      return;",
    "    \x7d",
    "    this.dispatch(name, payload as EventPayloadMap[EventName]);",
    "  \x7d",
    "",
    "  private dispatch(name: EventName, payload: EventPayloadMap[EventName]): void \x7b",
    "    const specific = [...(this.handlers.get(name) ?? [])];",
    "    const wildcard = [...this.wildcardHandlers];",
    "    for (const callback of specific) \x7b",
    "      if (this.state.kind !== \"connected\") \x7b",
    "        return;",
    "      \x7d",
    "      callback(payload);",
    "    \x7d",
    "    for (const callback of wildcard) \x7b",
    "      if (this.state.kind !== \"connected\") \x7b",
    "        return;",
    "      \x7d",
    "      callback(name, payload);",
    "    \x7d",
    "  \x7d",
    "\x7d",
    "",
    "/** Create an independent client. The caller owns it and should `disconnect()` it when done. */"]

def defaultClient : List String :=
  [
    "export function createEventClient(options: EventClientOptions = \x7b\x7d): EventStreamClient \x7b",
    "  return new EventStreamClient(options);",
    "\x7d",
    "",
    "let defaultClient: EventStreamClient | null = null;",
    "",
    "/**",
    " * The shared client behind the free functions below.",
    " *",
    " * Constructed on first use. `disposeDefaultClient()` disconnects it, and the",
    " * next call constructs a fresh one.",
    " */",
    "export function getDefaultClient(): EventStreamClient \x7b",
    "  if (defaultClient === null) \x7b",
    "    defaultClient = createEventClient();",
    "  \x7d",
    "  return defaultClient;",
    "\x7d",
    "",
    "export function disposeDefaultClient(): void \x7b",
    "  if (defaultClient !== null) \x7b",
    "    defaultClient.disconnect();",
    "    defaultClient = null;",
    "  \x7d",
    "\x7d",
    "",
    "export function connect(): void \x7b"]

def freeFunctions : List String :=
  [
    "  getDefaultClient().connect();",
    "\x7d",
    "",
    "export function disconnect(): void \x7b",
    "  defaultClient?.disconnect();",
    "\x7d",
    "",
    "export function on<K extends EventName>(event: K, callback: EventCallback<K>): () => void \x7b",
    "  return getDefaultClient().on(event, callback);",
    "\x7d",
    "",
    "export function off<K extends EventName>(event: K, callback: EventCallback<K>): void \x7b",
    "  defaultClient?.off(event, callback);",
    "\x7d",
    "",
    "export function onAll(callback: AnyEventCallback): () => void \x7b",
    "  return getDefaultClient().onAll(callback);",
    "\x7d"]

def clientText : List String :=
  clientOptions ++ classOpening ++ connectionMethods ++ subscriptionMethods ++ stateMethods ++
    effectMethods ++ streamMethods ++ deliveryMethods ++ defaultClient ++ freeFunctions

end EventContract.Consumption
