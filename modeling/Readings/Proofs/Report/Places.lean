import Readings.Proofs.Entries
import Readings.Report.Issue
import Mathlib.Data.List.Basic

/-!
Outcomes as trees. Every node has a place, the steps that lead to it from the root, and the places
are listed in tree order. A leaf problem is a node that did not succeed, with no part below it that
did not: what the issues of an outcome report, each at its own place.
-/
namespace Readings

/-- A node of an outcome, with the steps that lead to it from the root. -/
structure Place where
  steps : List Step
  node : Outcome

/-- The same node, seen from one step further up. -/
def Place.under (step : Step) (place : Place) : Place := ⟨step :: place.steps, place.node⟩

namespace Outcome

mutual
/-- Every node of an outcome in tree order: each before its parts, and those from left to right. -/
def places : Outcome → List Place
  | .success readings => [⟨[], .success readings⟩]
  | .unbound symbol => [⟨[], .unbound symbol⟩]
  | .mismatch demand parts actual => ⟨[], .mismatch demand parts actual⟩ :: placesBelow parts

def placesBelow : List (Step × Outcome) → List Place
  | [] => []
  | (step, outcome) :: rest => outcome.places.map (.under step) ++ placesBelow rest
end

/-- A node that did not succeed and that has no part that did not. -/
def isLeaf : Outcome → Bool
  | .success _ => false
  | .unbound _ => true
  | .mismatch _ parts _ => parts.all fun part => part.2.isSuccess

/-- The leaf problems, in tree order. -/
def leaves (outcome : Outcome) : List Place := outcome.places.filter (·.node.isLeaf)

/-- What a node that did not succeed asked for, in words. -/
def wanted : Outcome → String
  | .success _ => ""
  | .unbound symbol => "binding for `" ++ symbol.description ++ "`"
  | .mismatch demand parts _ => expectation demand parts

/-- The value that a mismatch looked at. -/
def seen? : Outcome → Option Value
  | .mismatch _ _ actual => some actual
  | _ => none

end Outcome

/-- The issue of a leaf problem, where the root of the outcome is itself at a path. -/
def Place.issueFrom (path : String) (place : Place) : Issue :=
  ⟨path ++ String.join (place.steps.map Step.text), place.node.wanted, place.node.seen?⟩

/-- The issue of a leaf problem. -/
def Place.issue (place : Place) : Issue := place.issueFrom "$"

theorem Place.issue_root (path : String) (node : Outcome) :
    Place.issueFrom path ⟨[], node⟩ = ⟨path, node.wanted, node.seen?⟩ := by
  simp only [Place.issueFrom, List.map_nil, String.join_nil, String.append_empty]

theorem Place.issue_under (path : String) (step : Step) (place : Place) :
    (place.under step).issueFrom path = place.issueFrom (path ++ step.text) := by
  simp only [Place.issueFrom, Place.under, List.map_cons, String.join_cons, String.append_assoc]

namespace Outcome

/-- Induction over an outcome, with every part as a smaller case. -/
@[elab_as_elim]
theorem part_induction {motive : Outcome → Prop} (success : ∀ readings, motive (.success readings))
    (unbound : ∀ symbol, motive (.unbound symbol))
    (mismatch : ∀ demand parts actual, (∀ part ∈ parts, motive part.2) →
      motive (.mismatch demand parts actual)) (outcome : Outcome) : motive outcome :=
  match outcome with
  | .success readings => success readings
  | .unbound symbol => unbound symbol
  | .mismatch demand parts actual =>
    mismatch demand parts actual fun part _listed =>
      part_induction success unbound mismatch part.2
termination_by sizeOf outcome
decreasing_by
  have smaller := List.sizeOf_lt_of_mem _listed
  cases part
  simp at smaller ⊢
  omega

theorem places_below_eq (parts : List (Step × Outcome)) :
    placesBelow parts = parts.flatMap fun part => part.2.places.map (.under part.1) :=
  flat_map_of_steps rfl (fun _ _ => rfl) parts

theorem issues_below_eq (path : String) (parts : List (Step × Outcome)) :
    issuesBelow path parts = parts.flatMap fun part => part.2.issuesAt (path ++ part.1.text) :=
  flat_map_of_steps rfl (fun _ _ => rfl) parts

/-- Whatever did not succeed has an issue: its own where there is none below it. -/
theorem issues_at_eq_nil_iff (path : String) (outcome : Outcome) :
    outcome.issuesAt path = [] ↔ outcome.isSuccess = true := by
  cases outcome with
  | success => exact ⟨fun _ => rfl, fun _ => rfl⟩
  | unbound => exact ⟨fun none => (nomatch none), fun success => nomatch success⟩
  | mismatch demand parts actual =>
    refine ⟨fun none => ?_, fun success => nomatch success⟩
    rw [issuesAt] at none
    split at none
    · cases none
    · rename_i some
      exact absurd none some

theorem issues_below_eq_nil_iff (path : String) (parts : List (Step × Outcome)) :
    issuesBelow path parts = [] ↔ (parts.all fun part => part.2.isSuccess) = true := by
  rw [issues_below_eq, List.flatMap_eq_nil_iff, List.all_eq_true]
  exact forall_congr' fun part => imp_congr_right fun _ => issues_at_eq_nil_iff _ part.2

/-- The leaf problems below a mismatch are those of its parts, one step further down. -/
theorem leaves_below_eq (parts : List (Step × Outcome)) :
    (placesBelow parts).filter (·.node.isLeaf) =
      parts.flatMap fun part => part.2.leaves.map (.under part.1) := by
  rw [places_below_eq, List.filter_flatMap]
  simp only [List.filter_map, leaves]
  rfl

/-- The issues of an outcome found at a path are those of its leaf problems, in tree order. -/
theorem issues_at_eq (path : String) (outcome : Outcome) :
    outcome.issuesAt path = outcome.leaves.map fun place => place.issueFrom path := by
  induction outcome using part_induction generalizing path with
  | success => rfl
  | unbound symbol => exact congrArg ([·]) (Place.issue_root path (.unbound symbol)).symm
  | mismatch demand parts actual ih =>
    have below : issuesBelow path parts =
        ((placesBelow parts).filter (·.node.isLeaf)).map fun place => place.issueFrom path := by
      rw [issues_below_eq, leaves_below_eq, List.map_flatMap]
      refine List.flatMap_congr fun part listed => ?_
      simp only [List.map_map, Function.comp_def, Place.issue_under]
      exact ih part listed _
    rw [issuesAt, leaves, places, List.filter_cons]
    -- a mismatch reports itself just where no part of it has an issue, which is to be a leaf
    cases leaf : (mismatch demand parts actual).isLeaf with
    | true =>
      have none := (issues_below_eq_nil_iff path parts).mpr leaf
      rw [none] at below ⊢
      rw [if_pos rfl, List.map_cons, Place.issue_root, ← below]
      rfl
    | false =>
      have some : issuesBelow path parts ≠ [] := by
        rw [Ne, issues_below_eq_nil_iff]
        exact ne_true_of_eq_false leaf
      rw [if_neg Bool.false_ne_true, ← below]
      split
      · contradiction
      · rfl

/-- An outcome has no issue exactly if it is a success, and otherwise its issues are those of its
leaf problems, in tree order. -/
theorem issues_eq (outcome : Outcome) : outcome.issues = outcome.leaves.map Place.issue :=
  issues_at_eq "$" outcome

end Outcome
end Readings
