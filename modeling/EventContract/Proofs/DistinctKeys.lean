import EventContract.Proofs.TableLaws
import EventContract.Schema.Source
import Mathlib.Data.Option.Basic

/-! # Values with distinct keys

No object that was read, from either notation, has a key twice.
-/

namespace EventContract

/-- No object in the value has a key twice. -/
inductive Json.KeysDistinct : Json → Prop
  | null : KeysDistinct .null
  | bool (value) : KeysDistinct (.bool value)
  | number (value) : KeysDistinct (.number value)
  | string (text) : KeysDistinct (.string text)
  | array {items} (hitems : ∀ item ∈ items, KeysDistinct item) : KeysDistinct (.array items)
  | object {members} (hdistinct : (Table.keys members).Nodup)
      (hmembers : ∀ member ∈ members, KeysDistinct member.2) : KeysDistinct (.object members)

namespace Json

theorem keysDistinct_ofPairs {members : List (String × Json)}
    (hmembers : ∀ member ∈ members, member.2.KeysDistinct) :
    (object (Table.ofPairs members)).KeysDistinct :=
  .object (Table.nodup_keys_ofPairs members)
    fun member hmember => hmembers member (Table.mem_of_mem_ofPairs hmember)

/-! ## Values in JSON -/

theorem keysDistinct_of_map {α : Type} {result : Option α} {f : α → Json × List Char}
    {value : Json} {rest : List Char} (h : result.map f = some (value, rest))
    (hvalue : ∀ a, (f a).1.KeysDistinct) : value.KeysDistinct := by
  obtain ⟨a, -, heq⟩ := Option.map_eq_some_iff.mp h
  have hdistinct := hvalue a
  rwa [heq] at hdistinct

theorem keysDistinct_of_readItems {fuel depth : Nat} {cs rest : List Char} {items : List Json}
    (hvalue : ∀ depth cs value rest, readValue fuel depth cs = some (value, rest) →
      value.KeysDistinct)
    (hmore : ∀ depth cs items rest, readItems fuel depth cs = some (items, rest) →
      ∀ item ∈ items, item.KeysDistinct)
    (h : readItems (fuel + 1) depth cs = some (items, rest)) :
    ∀ item ∈ items, item.KeysDistinct := by
  rw [readItems] at h
  obtain ⟨⟨item, tail⟩, hitem, h⟩ := Option.bind_eq_some_iff.mp h
  have hdistinct := hvalue depth cs item tail hitem
  dsimp only at h
  split at h
  next =>
    obtain ⟨⟨others, _⟩, hothers, heq⟩ := Option.map_eq_some_iff.mp h
    cases heq
    exact List.forall_mem_cons.mpr ⟨hdistinct, hmore depth _ others _ hothers⟩
  next =>
    cases h
    exact List.forall_mem_singleton.mpr hdistinct
  next => cases h

theorem keysDistinct_of_readMembers {fuel depth : Nat} {cs rest : List Char}
    {members : List (String × Json)}
    (hvalue : ∀ depth cs value rest, readValue fuel depth cs = some (value, rest) →
      value.KeysDistinct)
    (hmore : ∀ depth cs members rest, readMembers fuel depth cs = some (members, rest) →
      ∀ member ∈ members, member.2.KeysDistinct)
    (h : readMembers (fuel + 1) depth cs = some (members, rest)) :
    ∀ member ∈ members, member.2.KeysDistinct := by
  rw [readMembers] at h
  split at h
  next =>
    obtain ⟨⟨key, behind⟩, -, h⟩ := Option.bind_eq_some_iff.mp h
    dsimp only at h
    split at h
    next =>
      obtain ⟨⟨value, tail⟩, hread, h⟩ := Option.bind_eq_some_iff.mp h
      have hdistinct := hvalue depth _ value tail hread
      dsimp only at h
      split at h
      next =>
        obtain ⟨⟨others, _⟩, hothers, heq⟩ := Option.map_eq_some_iff.mp h
        cases heq
        exact List.forall_mem_cons.mpr ⟨hdistinct, hmore depth _ others _ hothers⟩
      next =>
        cases h
        exact List.forall_mem_singleton.mpr hdistinct
      next => cases h
    next => cases h
  next => cases h

theorem keysDistinct_of_readValue {fuel depth : Nat} {cs rest : List Char} {value : Json}
    (hitems : ∀ depth cs items rest, readItems fuel depth cs = some (items, rest) →
      ∀ item ∈ items, item.KeysDistinct)
    (hmembers : ∀ depth cs members rest, readMembers fuel depth cs = some (members, rest) →
      ∀ member ∈ members, member.2.KeysDistinct)
    (h : readValue (fuel + 1) depth cs = some (value, rest)) : value.KeysDistinct := by
  rw [readValue] at h
  split at h
  next => cases h
  next =>
    exact keysDistinct_of_map h fun _ => .string _
  next =>
    cases depth with
    | zero => cases h
    | succ depth =>
        dsimp only at h
        split at h
        next =>
          cases h
          exact .array (by simp)
        next =>
          obtain ⟨⟨items, _⟩, hread, heq⟩ := Option.map_eq_some_iff.mp h
          cases heq
          exact .array (hitems depth _ items _ hread)
  next =>
    cases depth with
    | zero => cases h
    | succ depth =>
        dsimp only at h
        split at h
        next =>
          cases h
          exact .object List.nodup_nil (by simp)
        next =>
          obtain ⟨⟨members, _⟩, hread, heq⟩ := Option.map_eq_some_iff.mp h
          cases heq
          exact keysDistinct_ofPairs (hmembers depth _ members _ hread)
  next =>
    exact keysDistinct_of_map h fun _ => .bool true
  next =>
    exact keysDistinct_of_map h fun _ => .bool false
  next =>
    exact keysDistinct_of_map h fun _ => .null
  next =>
    exact keysDistinct_of_map h fun _ => .number _

/-- The three readers call each other with less fuel, so one induction goes through all of them. -/
theorem keysDistinct_of_readers (fuel : Nat) :
    (∀ depth cs value rest, readValue fuel depth cs = some (value, rest) → value.KeysDistinct) ∧
      (∀ depth cs items rest, readItems fuel depth cs = some (items, rest) →
        ∀ item ∈ items, item.KeysDistinct) ∧
      ∀ depth cs members rest, readMembers fuel depth cs = some (members, rest) →
        ∀ member ∈ members, member.2.KeysDistinct := by
  induction fuel with
  | zero =>
      refine ⟨?_, ?_, ?_⟩
      · intro depth cs value rest h
        rw [readValue] at h
        cases h
      · intro depth cs items rest h
        rw [readItems] at h
        cases h
      · intro depth cs members rest h
        rw [readMembers] at h
        cases h
  | succ fuel ih =>
      obtain ⟨hvalue, hitems, hmembers⟩ := ih
      refine ⟨?_, ?_, ?_⟩
      · intro depth cs value rest h
        exact keysDistinct_of_readValue hitems hmembers h
      · intro depth cs items rest h
        exact keysDistinct_of_readItems hvalue hitems h
      · intro depth cs members rest h
        exact keysDistinct_of_readMembers hvalue hmembers h

theorem keysDistinct_of_read {text : String} {value : Json} (h : read text = some value) :
    value.KeysDistinct := by
  rw [read, readWithin] at h
  split at h
  next value' rest hread =>
    split at h
    next =>
      cases h
      exact (keysDistinct_of_readers _).1 _ _ _ _ hread
    next => cases h
  next => cases h

end Json

/-! ## Values in YAML -/

namespace Yaml

theorem Reading.bind_eq_some_iff {α β : Type} {x : Reading α} {f : α → Reading β} {n m : Nat}
    {b : β} :
    (x >>= f) n = some (b, m) ↔ ∃ a k, x n = some (a, k) ∧ f a k = some (b, m) := by
  constructor
  · intro h
    obtain ⟨⟨a, k⟩, hx, hf⟩ := Option.bind_eq_some_iff.mp h
    exact ⟨a, k, hx, hf⟩
  · rintro ⟨a, k, hx, hf⟩
    exact Option.bind_eq_some_iff.mpr ⟨(a, k), hx, hf⟩

/-- Each result of a list of steps is the result of one of them. -/
theorem Reading.exists_of_mem_mapM {α β : Type} {f : α → Reading β} {as : List α} {bs : List β}
    {n m : Nat} (h : as.mapM f n = some (bs, m)) {b : β} (hb : b ∈ bs) :
    ∃ a ∈ as, ∃ n m, f a n = some (b, m) := by
  induction as generalizing n bs with
  | nil =>
      rw [List.mapM_nil] at h
      cases h
      cases hb
  | cons a as ih =>
      rw [List.mapM_cons] at h
      obtain ⟨first, k, hfirst, h⟩ := bind_eq_some_iff.mp h
      obtain ⟨others, l, hothers, h⟩ := bind_eq_some_iff.mp h
      cases h
      rcases List.mem_cons.mp hb with rfl | hb
      · exact ⟨a, List.mem_cons_self, n, k, hfirst⟩
      · obtain ⟨a, ha, hread⟩ := ih hothers hb
        exact ⟨a, List.mem_cons_of_mem _ ha, hread⟩

namespace PlainValue

theorem keysDistinct_of_bool? {cs : List Char} {value : Json}
    (h : (bool? cs).map .bool = some value) : value.KeysDistinct := by
  obtain ⟨b, -, rfl⟩ := Option.map_eq_some_iff.mp h
  exact .bool b

theorem keysDistinct_of_float? {cs : List Char} {value : Json} (h : float? cs = some value) :
    value.KeysDistinct := by
  have hdouble {cs : List Char} (h : (finite? cs).map (fun x => .number (.double x)) = some value) :
      value.KeysDistinct := by
    obtain ⟨x, -, rfl⟩ := Option.map_eq_some_iff.mp h
    exact .number _
  unfold float? at h
  dsimp only at h
  split at h
  next =>
    cases h
    exact .null
  next =>
    split at h
    next =>
      split at h
      next => cases h
      next => exact hdouble h
    next => exact hdouble h

theorem keysDistinct_of_integerValue? {cs : List Char} {value : Json}
    (h : integerValue? cs = some (some value)) : value.KeysDistinct := by
  rw [integerValue?] at h
  split at h
  next =>
    cases h
    exact .number _
  next =>
    obtain ⟨n, -, h⟩ := Option.map_eq_some_iff.mp h
    cases h

theorem keysDistinct_of_value? {text : String} {value : Json} (h : value? text = some value) :
    value.KeysDistinct := by
  rw [value?] at h
  split at h
  next =>
    cases h
    exact .null
  next =>
    split at h
    next =>
      cases h
      exact .bool _
    next =>
      split at h
      next hinteger => exact keysDistinct_of_integerValue? (h ▸ hinteger)
      next =>
        split at h
        next hfloat =>
          cases h
          split at hfloat
          next => cases hfloat
          next => exact keysDistinct_of_float? hfloat
        next =>
          cases h
          exact .string text

end PlainValue

namespace Node

theorem keysDistinct_of_scalarValue {tag : Option Tag} {plain : Bool} {text : String} {value : Json}
    (h : scalarValue tag plain text = some value) : value.KeysDistinct := by
  unfold scalarValue at h
  dsimp only at h
  split at h
  next =>
    split at h
    next => exact PlainValue.keysDistinct_of_value? h
    next =>
      cases h
      exact .string text
  next tag =>
    split_ifs at h
    · exact PlainValue.keysDistinct_of_bool? h
    · exact PlainValue.keysDistinct_of_integerValue? (Option.join_eq_some_iff.mp h)
    · exact PlainValue.keysDistinct_of_float? h
    · cases h
      exact .null
    · exact PlainValue.keysDistinct_of_value? h
    · cases h
      exact .string text

theorem keysDistinct_of_value {anchored : List (Nat × Node)} {depth : Nat} {node : Node} {n m : Nat}
    {value : Json} (h : node.value anchored depth n = some (value, m)) : value.KeysDistinct := by
  -- An alias may lead to any anchored node, so the depth is what gets smaller and not the node.
  induction depth generalizing node n m value with
  | zero =>
      rw [Node.value] at h
      obtain ⟨followed, k, -, h⟩ := Reading.bind_eq_some_iff.mp h
      split at h
      next =>
        obtain ⟨result, hscalar, heq⟩ := Option.bind_eq_some_iff.mp h
        cases heq
        exact keysDistinct_of_scalarValue hscalar
      next => cases h
  | succ depth ih =>
      rw [Node.value] at h
      obtain ⟨followed, k, -, h⟩ := Reading.bind_eq_some_iff.mp h
      split at h
      next =>
        obtain ⟨result, hscalar, heq⟩ := Option.bind_eq_some_iff.mp h
        cases heq
        exact keysDistinct_of_scalarValue hscalar
      next =>
        obtain ⟨_, l, -, h⟩ := Reading.bind_eq_some_iff.mp h
        obtain ⟨items, l, hitems, h⟩ := Reading.bind_eq_some_iff.mp h
        cases h
        refine .array fun item hitem => ?_
        obtain ⟨node, -, n, m, hread⟩ := Reading.exists_of_mem_mapM hitems hitem
        exact ih hread
      next =>
        obtain ⟨_, l, -, h⟩ := Reading.bind_eq_some_iff.mp h
        obtain ⟨members, l, hmembers, h⟩ := Reading.bind_eq_some_iff.mp h
        cases h
        refine Json.keysDistinct_ofPairs fun member hmember => ?_
        obtain ⟨⟨key, node⟩, -, n, m, hread⟩ := Reading.exists_of_mem_mapM hmembers hmember
        obtain ⟨text, k, -, hread⟩ := Reading.bind_eq_some_iff.mp hread
        obtain ⟨value, k, hvalue, heq⟩ := Reading.bind_eq_some_iff.mp hread
        cases heq
        exact ih hvalue
      next => cases h

end Node

theorem keysDistinct_of_read {text : String} {value : Json} (h : read text = some value) :
    value.KeysDistinct := by
  obtain ⟨tokens, -, h⟩ := Option.bind_eq_some_iff.mp h
  obtain ⟨document, -, h⟩ := Option.bind_eq_some_iff.mp h
  obtain ⟨⟨read, m⟩, hread, h⟩ := Option.bind_eq_some_iff.mp h
  cases h
  exact Node.keysDistinct_of_value hread

end Yaml

/-- A text in either notation holds a value with distinct keys. -/
theorem Format.keysDistinct_of_read {format : Format} {text : String} {value : Json}
    (h : format.read text = some value) : value.KeysDistinct := by
  cases format with
  | json => exact Json.keysDistinct_of_read h
  | yaml => exact Yaml.keysDistinct_of_read h

end EventContract
