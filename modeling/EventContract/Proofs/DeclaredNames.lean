import EventContract.Proofs.CheckedSchema
import EventContract.Proofs.HeaderCode
import EventContract.Proofs.LiteralLists

/-! # Names that artifacts declare

The check of a schema compares the names of payload types alone. The functions of the header differ
wherever those do, and the keys of the payload map differ wherever the events do, since a key stands
bare or quoted and reads as one text either way.
-/

namespace EventContract

/-! ## One name -/

theorem Name.pascal_eq_of_publisher_eq {a b : String} (h : publisher a = publisher b) :
    pascal a = pascal b :=
  (String.append_right_inj "Emit").mp h

namespace Consumption

theorem quote_mem_literal (text : String) : '"' ∈ (literal text).toList := by
  rw [literal, Json.Quoted.quote, String.toList_ofList, Json.Quoted.encode]
  exact List.mem_cons_self

/-- Different names have different keys, bare or quoted, for a key is read as its name. -/
theorem propertyKey_injective : Function.Injective propertyKey := by
  have hread (name : String) : readKey ((propertyKey name).toList ++ []) = some (name, []) :=
    readKey_propertyKey name (by simp)
  intro a b h
  have heq := hread a
  rw [h, hread b] at heq
  cases heq
  rfl

end Consumption

/-! ## The names of a schema -/

/-- An accepted schema declares no name twice: not among the payload types, nor among the functions
of the header, nor among the keys of the payload map. And whatever a text holds, the names of the
type and of the function that are made from it are identifiers, and so is the name that guards a
header. -/
theorem declared_names_distinct {schema : Schema} (h : schema.check = .ok ()) :
    (schema.events.map fun event => Name.payloadType event.name).Nodup ∧
      (schema.events.map fun event => Name.publisher event.name).Nodup ∧
      (schema.events.map fun event => Consumption.propertyKey event.name).Nodup ∧
      ∀ text, Name.isIdentifier (Name.payloadType text) = true ∧
        Name.isIdentifier (Name.publisher text) = true ∧
        Name.isIdentifier (Emission.guardName text) = true := by
  have hwell := (Schema.check_eq_ok_iff schema).mp h
  have htypes : schema.events.Pairwise fun a b =>
      Name.payloadType a.name ≠ Name.payloadType b.name := by
    have hnodup := hwell.types
    rwa [Schema.eventNames, List.map_map, List.Nodup, List.pairwise_map] at hnodup
  have hnames : schema.events.Pairwise fun a b => a.name ≠ b.name :=
    List.pairwise_map.mp hwell.names
  refine ⟨List.pairwise_map.mpr htypes, List.pairwise_map.mpr ?_, List.pairwise_map.mpr ?_, ?_⟩
  · refine htypes.imp fun hne heq => hne ?_
    rw [Name.payloadType, Name.payloadType, Name.pascal_eq_of_publisher_eq heq]
  · exact hnames.imp fun hne heq => hne (Consumption.propertyKey_injective heq)
  · intro text
    exact ⟨Name.isIdentifier_payloadType text, Name.isIdentifier_publisher text,
      Emission.isIdentifier_guardName text⟩

/-- A name of which nothing is left in code, one that begins with a digit, one with a dollar sign
that is no bare key, and one with quotes of its own. -/
def awkwardNames : Schema where
  endpoint := "/events"
  events :=
    [⟨"é!", "", [⟨"at", .number, "", none⟩]⟩, ⟨"3d-view", "", [⟨"at", .number, "", none⟩]⟩,
      ⟨"$a b", "", [⟨"at", .number, "", none⟩]⟩, ⟨"\"x\"", "", [⟨"at", .number, "", none⟩]⟩]

theorem declared_names_distinct_awkward :
    awkwardNames.check = .ok () ∧
      ["_Event", "_3dViewEvent", "ABEvent", "XEvent"].Nodup ∧
      ["Emit_", "Emit_3dView", "EmitAB", "EmitX"].Nodup ∧
      ["\"é!\"", "\"3d-view\"", "\"$a b\"", "\"\\\"x\\\"\""].Nodup ∧
      Name.isIdentifier (Emission.guardName "3d.hpp") = true := by
  have h : awkwardNames.check = .ok () := by decide +kernel
  obtain ⟨htypes, hpublishers, hkeys, hidentifiers⟩ := declared_names_distinct h
  exact ⟨h, htypes, hpublishers, hkeys, (hidentifiers "3d.hpp").2.2⟩

end EventContract
