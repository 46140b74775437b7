import EventContract.Client.Backoff
import EventContract.Consumption.ClientText
import EventContract.Consumption.Connection
import EventContract.Consumption.Vocabulary
import EventContract.Name.Pascal
import EventContract.Schema.Typing
import EventContract.Text.Comment
/-!
# The consumption module

A TypeScript module with an interface for the payload of each event, the union of all event names
and the map from names to payloads, followed by the connection logic and the client, which are the
same for every schema but for the default backoff.

The module is a list of lines, as the emission header is, and goes through the same events and
fields in the same order.
-/

namespace EventContract.Consumption

/-- Settings of the module. -/
structure Options where
  outputName : String
  /-- The module that the base URL is imported from. -/
  configModule : String
  /-- The name of the base URL there. -/
  baseUrlSymbol : String
  /-- The backoff of a client that is given none. -/
  backoff : Client.Backoff
  deriving DecidableEq

/-- Settings as they are when nothing is asked for. -/
def Options.default : Options :=
  ⟨"events.ts", "./config", "API_BASE_URL", Client.Backoff.default⟩

/-- A text as a documentation comment at an indentation; nothing for a blank text. -/
def docComment (indent text : String) : List String :=
  match Text.commentLines text with
  | [] => []
  | [line] => [indent ++ "/** " ++ line ++ " */"]
  | lines =>
    [indent ++ "/**"] ++
      lines.map (fun line => if line.isEmpty then indent ++ " *" else indent ++ " * " ++ line) ++
      [indent ++ " */"]

def sectionTitle (title : String) : List String :=
  let rule := "// ---------------------------------------------------------------------------"
  [rule, "// " ++ title, rule, ""]

/-- The description of an event, or a line that names it. -/
def summary (event : Event) : String :=
  if Text.isAllBlank event.description.toList then "Payload of the \"" ++ event.name ++ "\" event."
  else event.description

/-- A field as a property of its event's interface. -/
def property (field : Field) : String :=
  "  " ++ propertyKey field.name ++ ": " ++ (field.typeFor .consumption).text ++ ";"

def payloadInterface (event : Event) : List String :=
  docComment "" (summary event) ++
    ["export interface " ++ Name.payloadType event.name ++ " \x7b"] ++
    event.payload.flatMap (fun field => docComment "  " field.description ++ [property field]) ++
    ["\x7d", ""]

def nameLiterals (schema : Schema) : List String :=
  schema.eventNames.map literal

/-- The union of the literals; with none of them, the type without values. -/
def unionType (literals : List String) : String :=
  if literals.isEmpty then "never" else Text.joined " | " literals

/-- An event as an entry of the map from names to payloads. -/
def mapEntry (event : Event) : String :=
  "  " ++ propertyKey event.name ++ ": " ++ Name.payloadType event.name ++ ";"

/-- The names of the events, the map to their payloads and the types of callbacks. -/
def nameSection (schema : Schema) : List String :=
  let literals := nameLiterals schema
  ["/** Wire names of all events. */",
    "export type EventName = " ++ unionType literals ++ ";",
    "",
    "export const EVENT_NAMES: readonly EventName[] = [" ++ Text.joined ", " literals ++ "];",
    "",
    "/** Payload type of each event, keyed by wire name. */",
    "export interface EventPayloadMap \x7b"] ++
    schema.events.map mapEntry ++
    ["\x7d",
      "",
      "/** Callback for one specific event. */",
      "export type EventCallback<K extends EventName> = (payload: EventPayloadMap[K]) => void;",
      "",
      "/** Callback for every event; receives the wire name and the payload. */",
      "export type AnyEventCallback = (event: EventName, payload: EventPayloadMap[EventName]) => void;",
      ""]

/-- The backoff of a client that is given none, in whole milliseconds. -/
def defaultBackoff (backoff : Client.Backoff) : List String :=
  ["export const DEFAULT_BACKOFF: BackoffPolicy = \x7b baseDelayMs: " ++
      toString backoff.baseDelay.totalMillis ++ ", maxAttempts: " ++
      toString backoff.maxAttempts.toNat ++ " \x7d;",
    ""]

/-- The import of the base URL, and the URL of the stream. -/
def endpointSection (schema : Schema) (options : Options) : List String :=
  ["import \x7b " ++ options.baseUrlSymbol ++ " \x7d from " ++ literal options.configModule ++ ";",
    "",
    "/** Path of the event stream, relative to the API base URL. */",
    "export const EVENTS_ENDPOINT = " ++ literal schema.endpoint ++ ";",
    "",
    "/** Full URL of the event stream. */",
    "export const EVENTS_URL: string = " ++ options.baseUrlSymbol ++ " + EVENTS_ENDPOINT;",
    ""]

/-- The lines of the module for a schema; `source` names the schema in the banner. -/
def moduleLines (schema : Schema) (options : Options) (source : String) : List String :=
  Text.banner source ++ [""] ++ endpointSection schema options ++
    sectionTitle "Payloads" ++ schema.events.flatMap payloadInterface ++
    sectionTitle "Event names" ++ nameSection schema ++
    sectionTitle "Connection state machine" ++ connectionTypes ++
    defaultBackoff options.backoff ++ connectionScript.lines ++
    sectionTitle "Client" ++ clientText

/-- The module for a schema. -/
def moduleText (schema : Schema) (options : Options) (source : String) : String :=
  Text.unlines (moduleLines schema options source)

end EventContract.Consumption
