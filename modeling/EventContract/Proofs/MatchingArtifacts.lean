import EventContract.Generation
import EventContract.Proofs.HeaderCode
import EventContract.Proofs.InterfaceBlocks

/-! # The two artifacts describe the same events

What the code of the header publishes and what the module declares are read off the texts of the
artifacts, and both are the events of the schema with their fields, in its order.
-/

namespace EventContract

open Text

/-- What is written into an artifact as it is has no line feed. The name of an event is written as
it is where a description is missing. -/
structure Unbroken (schema : Schema) (options : Options) (source : String) : Prop where
  source : OneLine source
  enclosing : OneLine options.emission.enclosing
  transportInclude : OneLine options.emission.transportInclude
  jsonInclude : OneLine options.emission.jsonInclude
  baseUrlSymbol : OneLine options.consumption.baseUrlSymbol
  names : ∀ event ∈ schema.events, isAllBlank event.description.toList → OneLine event.name

/-- The code of the header falls into one group for each event in order, which publishes it, and
the payload interfaces of the module are those of the events in the same order. -/
theorem artifacts_describe_schema {schema : Schema} {options : Options} {source : String}
    (h : Unbroken schema options source) :
    (∃ groups : List (List String),
      Emission.codeOf (linesOf (Emission.headerText schema options.emission source)) =
        groups.flatten ∧
      List.Forall₂ Emission.Publishes schema.events groups) ∧
    Consumption.interfaces
        (linesOf (Consumption.moduleText schema options.consumption source)) =
      schema.events.map Consumption.interfaceOf := by
  have hcode := Emission.codeOf_headerText h.source h.enclosing h.transportInclude h.jsonInclude
    h.names
  have hpublishes : List.Forall₂ Emission.Publishes schema.events
      (schema.events.map Emission.functionCode) := by
    rw [List.forall₂_map_right_iff, List.forall₂_same]
    exact fun event _ => Emission.publishes_functionCode event
  refine ⟨⟨schema.events.map Emission.functionCode, ?_, hpublishes⟩, ?_⟩
  · rw [hcode, List.flatMap_def]
  · exact Consumption.interfaces_moduleText h.source h.baseUrlSymbol

/-- Two fields that come to one parameter name, texts that look like code, and an event whose name
has a line feed. -/
def lookalikes : Schema where
  endpoint := "/events"
  events :=
    [⟨"z-order", " ",
        [⟨"z-index", .number, "inline void EmitOther() \x7b", none⟩,
          ⟨"z_index", .string, "*/\n    Broadcast(\"x\", payload);", some ["a", "\x7d\nb"]⟩]⟩,
      ⟨"line\nbreak", "First.\nexport interface OtherEvent \x7b", []⟩]

theorem artifacts_describe_lookalikes :
    Unbroken lookalikes Options.default "events.yaml" ∧
    (∃ groups : List (List String),
      Emission.codeOf (linesOf
        (Emission.headerText lookalikes Options.default.emission "events.yaml")) =
        groups.flatten ∧
      List.Forall₂ Emission.Publishes lookalikes.events groups) ∧
    Consumption.interfaces (linesOf
        (Consumption.moduleText lookalikes Options.default.consumption "events.yaml")) =
      [("export interface ZOrderEvent \x7b",
          ["  \"z-index\": number;", "  z_index: \"a\" | \"\x7d\\nb\";"]),
        ("export interface LineBreakEvent \x7b", [])] := by
  have h : Unbroken lookalikes Options.default "events.yaml" :=
    ⟨by decide, by decide, by decide, by decide, by decide, by decide⟩
  obtain ⟨hcode, hinterfaces⟩ := artifacts_describe_schema h
  exact ⟨h, hcode, hinterfaces.trans (by decide +kernel)⟩

end EventContract
