import Readings.Json.Basic
import Readings.Proofs.Entries

/-!
JSON data with each key once. Settling leaves such data as it is, and leaves nothing else: the
members of an object are written one after the other, so that no key is there twice.
-/
namespace Readings
namespace Json

/-- JSON data that is no scalar. -/
def isContainer : Json → Bool
  | .array _ | .object _ => true
  | .null | .bool _ | .integer _ | .float _ | .string _ => false

/-- What stands right below JSON data. -/
def parts : Json → List Json
  | .array items => items
  | .object members => Entries.values members
  | .null | .bool _ | .integer _ | .float _ | .string _ => []

theorem size_of_value_lt {members : Entries Json} (listed : value ∈ Entries.values members) :
    sizeOf value < sizeOf members := by
  obtain ⟨member, below, rfl⟩ := List.mem_map.mp listed
  have smaller := List.sizeOf_lt_of_mem below
  obtain ⟨key, value⟩ := member
  simp at smaller ⊢
  omega

theorem size_of_part_lt {json part : Json} (below : part ∈ json.parts) :
    sizeOf part < sizeOf json := by
  cases json with
  | array items =>
    have smaller := List.sizeOf_lt_of_mem (show part ∈ items from below)
    simp
    omega
  | object members =>
    have smaller := size_of_value_lt (show part ∈ Entries.values members from below)
    simp
    omega
  | _ => cases below

/-- Induction over JSON data, with every item or member as a smaller case. -/
@[elab_as_elim]
theorem part_induction {motive : Json → Prop}
    (step : ∀ json, (∀ part ∈ json.parts, motive part) → motive json) (json : Json) :
    motive json :=
  step json fun part _below => part_induction step part
termination_by sizeOf json
decreasing_by exact size_of_part_lt _below

/-- Every object in JSON data has each key once. -/
inductive Keyed : Json → Prop where
  | leaf (none : json.parts = []) : Keyed json
  | array (each : ∀ item ∈ items, Keyed item) : Keyed (.array items)
  | object (distinct : Entries.Distinct members)
      (each : ∀ value ∈ Entries.values members, Keyed value) : Keyed (.object members)

theorem settled_items_eq (items : List Json) : settledItems items = items.map settled :=
  map_of_steps rfl (fun _ _ => rfl) items

theorem settled_members_eq (members : Entries Json) :
    settledMembers members = Entries.mapValues settled members :=
  Entries.map_values_of_steps rfl (fun _ _ _ => rfl) members

theorem settled_of_keyed {json : Json} (keyed : json.Keyed) : json.settled = json := by
  induction keyed with
  | @leaf json none =>
    cases json with
    | array items =>
      obtain rfl : items = [] := none
      rfl
    | object members =>
      obtain rfl : members = [] := List.map_eq_nil_iff.mp none
      rfl
    | _ => rfl
  | array each ih =>
    rw [settled, settled_items_eq]
    exact congrArg Json.array ((List.map_congr_left ih).trans (List.map_id' _))
  | object distinct each ih =>
    rw [settled, settled_members_eq, Entries.map_values_congr ih, Entries.map_values_self,
      Entries.of_pairs_distinct distinct]

theorem keyed_settled (json : Json) : json.settled.Keyed := by
  induction json using part_induction with
  | step json ih =>
    cases json with
    | array items =>
      rw [settled, settled_items_eq]
      refine .array fun item listed => ?_
      obtain ⟨part, below, rfl⟩ := List.mem_map.mp listed
      exact ih part below
    | object members =>
      rw [settled, settled_members_eq, Entries.of_pairs_map_values]
      refine .object ?_ fun value listed => ?_
      · rw [Entries.Distinct, Entries.keys_map_values]
        exact Entries.distinct_of_pairs members
      · rw [Entries.values_map_values] at listed
        obtain ⟨part, below, rfl⟩ := List.mem_map.mp listed
        obtain ⟨member, written, rfl⟩ := List.mem_map.mp below
        exact ih member.2 (List.mem_map_of_mem (Entries.mem_of_pairs written))
    | _ => exact .leaf rfl

end Json
end Readings
