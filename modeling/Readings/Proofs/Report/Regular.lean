import Readings.Proofs.Cast.Tree
import Readings.Proofs.Report.Places

/-!
The form that the trees of casts have. The parts of a mismatch are those that its demand can have:
items counted up, properties, variants or members, and none where the demand has no parts. A union
is a mismatch only when no variant of it succeeded. The views of an outcome differ in what they do
with parts; that they agree on the trees of casts rests on this (`cast_regular`).
-/
namespace Readings

/-- The parts that can stand below a mismatch of a demand. -/
def Demand.Admits : Demand → List (Step × Outcome) → Prop
  | .never, parts | .primitive _, parts | .enumeration _, parts => parts = []
  | .array, parts | .tuple _, parts =>
    parts.map Prod.fst = (List.range parts.length).map .item
  | .record, parts | .object, parts => ∃ keys : List String, parts.map Prod.fst = keys.map .property
  | .union, parts =>
    parts.map Prod.fst = (List.range parts.length).map .variant ∧
      ∀ part ∈ parts, part.2.isSuccess = false
  | .intersection, parts => parts.map Prod.fst = (List.range parts.length).map .member

namespace Outcome

/-- Every mismatch in a tree has parts that its demand admits. -/
inductive Regular : Outcome → Prop where
  | success {candidates : List Value} : Regular (.success candidates)
  | unbound : Regular (.unbound symbol)
  | mismatch (admits : demand.Admits parts) (below : ∀ part ∈ parts, part.2.Regular) :
      Regular (.mismatch demand parts actual)

theorem regular_without_parts (admits : demand.Admits []) : (mismatch demand [] actual).Regular :=
  .mismatch admits fun _ none => nomatch none

theorem steps_placed (step : Nat → Step) (outcomes : List Outcome) :
    (placed step outcomes).map Prod.fst = (List.range (placed step outcomes).length).map step := by
  have counted : (placed step outcomes).length = outcomes.length := by simp [placed]
  rw [counted, placed_eq_zip rfl]
  exact List.map_fst_zip (by simp)

theorem mem_placed {step : Nat → Step} (listed : part ∈ placed step outcomes) :
    part.2 ∈ outcomes := by
  rw [placed_eq_zip rfl] at listed
  exact (List.of_mem_zip listed).2

private theorem sequence_regular (step : Nat → Step)
    (admits : ∀ parts : List (Step × Outcome),
      parts.map Prod.fst = (List.range parts.length).map step → demand.Admits parts)
    (each : ∀ outcome ∈ outcomes, outcome.Regular) :
    (ofSequence demand step actual outcomes).Regular := by
  unfold ofSequence
  split
  · exact .success
  · exact .mismatch (admits _ (steps_placed step outcomes)) fun part listed =>
      each part.2 (mem_placed listed)

private theorem keyed_regular {keys : List String} (counted : outcomes.length = keys.length)
    (admits : ∀ parts : List (Step × Outcome),
      (∃ keys : List String, parts.map Prod.fst = keys.map .property) → demand.Admits parts)
    (each : ∀ outcome ∈ outcomes, outcome.Regular) :
    (ofKeyed demand actual keys outcomes).Regular := by
  unfold ofKeyed
  split
  · exact .success
  · refine .mismatch (admits _ ⟨keys, List.map_fst_zip (by simp [counted])⟩) fun part listed => ?_
    exact each part.2 (List.of_mem_zip listed).2

private theorem variants_regular (each : ∀ outcome ∈ outcomes, outcome.Regular) :
    (ofVariants actual outcomes).Regular := by
  unfold ofVariants
  split
  · exact .success
  · rename_i none
    simp only [List.any_eq_true, not_exists, not_and, Bool.not_eq_true] at none
    refine .mismatch ⟨steps_placed .variant outcomes, fun part listed => ?_⟩ fun part listed =>
      each part.2 (mem_placed listed)
    exact none part.2 (mem_placed listed)

/-- A plain node assembles regular outcomes to a regular one. -/
theorem assemble_regular {d : Descriptor} (plain : d.plain = true)
    (counted : outcomes.length = (d.parts actual).length)
    (each : ∀ outcome ∈ outcomes, outcome.Regular) : (d.assemble actual outcomes).Regular := by
  cases d with
  | reference | recursive => cases plain
  | unknown | pure => exact .success
  | never => exact regular_without_parts rfl
  | primitive | enumeration =>
    simp only [Descriptor.assemble]
    repeat' split
    all_goals first | exact .success | exact regular_without_parts rfl
  | array =>
    cases actual with
    | array => exact sequence_regular .item (fun _ same => same) each
    | _ => exact regular_without_parts rfl
  | tuple items =>
    cases actual with
    | array values =>
      simp only [Descriptor.assemble]
      split
      · exact sequence_regular .item (fun _ same => same) each
      · exact regular_without_parts rfl
    | _ => exact regular_without_parts rfl
  | record | object =>
    cases actual with
    | object entries =>
      refine keyed_regular ?_ (fun _ keyed => keyed) each
      simpa [Descriptor.parts, Entries.keys, Entries.values] using counted
    | _ => exact regular_without_parts ⟨[], rfl⟩
  | union => exact variants_regular each
  | intersection => exact sequence_regular .member (fun _ same => same) each
  | map composition inside =>
    obtain ⟨outcome, rfl⟩ := List.length_eq_one_iff.mp counted
    have regular := each outcome List.mem_cons_self
    cases outcome with
    | success => exact .success
    | unbound | mismatch => exact regular

end Outcome

/-- Every cast leaves a regular tree, whatever the descriptor, the scope and the depth. -/
theorem cast_regular (ran : castWithin depth scope d actual = some outcome) : outcome.Regular := by
  induction depth generalizing scope d actual outcome with
  | zero => cases ran
  | succ depth ih =>
    cases kind : d.plain with
    | true =>
      obtain ⟨outcomes, below, rfl⟩ := (cast_plain_iff kind).mp ran
      refine Outcome.assemble_regular kind below.length_eq.symm fun outcome listed => ?_
      obtain ⟨part, _, ran⟩ := partner_of_right below listed
      exact ih ran
    | false =>
      cases d with
      | reference symbol =>
        cases bound : scope.lookup symbol with
        | none =>
          rw [cast_unbound bound] at ran
          cases ran
          exact .unbound
        | some body =>
          rw [cast_bound bound] at ran
          exact ih ran
      | recursive symbol body => exact ih ran
      | _ => cases kind

end Readings
