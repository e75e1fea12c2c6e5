import Readings.Proofs.Cast.Parts
import Readings.Proofs.Entries

/-!
Values as trees: a scalar has no parts, an array has its items and an object has what is under its
keys.
-/
namespace Readings
namespace Value

/-- Induction over a value, with every part as a smaller case. -/
@[elab_as_elim]
theorem part_induction {motive : Value → Prop}
    (scalar : ∀ actual literal, Literal.ofValue? actual = some literal → motive actual)
    (array : ∀ items, (∀ item ∈ items, motive item) → motive (.array items))
    (object : ∀ entries, (∀ value ∈ Entries.values entries, motive value) →
      motive (.object entries)) (actual : Value) : motive actual :=
  match actual with
  | .array items => array items fun item _listed => part_induction scalar array object item
  | .object entries => object entries fun value _listed => part_induction scalar array object value
  | .undefined | .null | .bool _ | .number _ | .bigint _ | .string _ | .symbol _ =>
    scalar _ _ rfl
termination_by actual.height
decreasing_by
  · exact Descriptor.height_item _listed
  · exact Descriptor.height_entry _listed

/-- Every object in a value has each key once. -/
inductive Keyed : Value → Prop where
  | scalar (kind : Literal.ofValue? actual = some literal) : Keyed actual
  | array (each : ∀ item ∈ items, Keyed item) : Keyed (.array items)
  | object (distinct : Entries.Distinct entries)
      (each : ∀ value ∈ Entries.values entries, Keyed value) : Keyed (.object entries)

theorem Keyed.item {item : Value} (keyed : Keyed (.array items)) (listed : item ∈ items) :
    item.Keyed := by
  cases keyed with
  | scalar kind => cases kind
  | array each => exact each item listed

theorem Keyed.entry {value : Value} (keyed : Keyed (.object entries))
    (listed : value ∈ Entries.values entries) : value.Keyed := by
  cases keyed with
  | scalar kind => cases kind
  | object _ each => exact each value listed

theorem Keyed.distinct (keyed : Keyed (.object entries)) : Entries.Distinct entries := by
  cases keyed with
  | scalar kind => cases kind
  | object distinct => exact distinct

end Value

/-- What a node casts its children against is keyed as its own input is. -/
theorem Descriptor.keyed_part {d : Descriptor} (keyed : actual.Keyed)
    (below : part ∈ d.parts actual) : part.2.Keyed := by
  cases d with
  | array item =>
    cases actual with
    | array values =>
      obtain ⟨value, listed, rfl⟩ := List.mem_map.mp below
      exact keyed.item listed
    | _ => cases below
  | record item =>
    cases actual with
    | object entries =>
      obtain ⟨value, listed, rfl⟩ := List.mem_map.mp below
      exact keyed.entry listed
    | _ => cases below
  | tuple items =>
    cases actual with
    | array values =>
      simp only [parts] at below
      split at below
      · exact keyed.item (List.of_mem_zip below).2
      · cases below
    | _ => cases below
  | object fields =>
    cases actual with
    | object entries =>
      obtain ⟨field, _, rfl⟩ := List.mem_map.mp below
      cases found : Entries.find? entries field.1 with
      | none => exact .scalar rfl
      | some value => exact keyed.entry (List.mem_map_of_mem (Entries.mem_of_find found))
    | _ => cases below
  | union | intersection =>
    obtain ⟨_, _, rfl⟩ := List.mem_map.mp below
    exact keyed
  | map =>
    obtain rfl := List.mem_singleton.mp below
    exact keyed
  | _ => cases below
end Readings
