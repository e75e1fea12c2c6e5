import Readings.Proofs.Report.Drawing
import Readings.Report.Json

/-!
The three views of a result agree. A reader of its JSON form finds the nodes again by going into the
members that hold parts, and never into the values that a node shows (`Json.reports`). The objects
that report a problem and hold no other are the leaf problems, and so are the issues and, below a
root that did not succeed, the places where the drawing ends (`views_agree`).
-/
namespace Readings
namespace Json

/-- The parts that a member of a report holds, each with the step to it. -/
def partsUnder : String × Json → List (Readings.Step × Json)
  | ("items", .array reports) => ((List.range reports.length).map .item).zip reports
  | ("properties", .object reports) => reports.map fun report => (.property report.1, report.2)
  | ("variants", .array reports) => ((List.range reports.length).map .variant).zip reports
  | ("results", .array reports) => ((List.range reports.length).map .member).zip reports
  | _ => []

/-- The parts that stand under a report. -/
def nested : Json → List (Readings.Step × Json)
  | .object members => members.flatMap partsUnder
  | _ => []

theorem part_smaller {held : String × Json} (listed : part ∈ partsUnder held) :
    sizeOf part.2 < sizeOf held.2 := by
  have inside (reports : List Json) (member : part.2 ∈ reports) :
      sizeOf part.2 < sizeOf (Json.array reports) := by
    have := List.sizeOf_lt_of_mem member
    simp only [array.sizeOf_spec]
    omega
  unfold partsUnder at listed
  split at listed
  · exact inside _ (List.of_mem_zip listed).2
  · obtain ⟨report, member, rfl⟩ := List.mem_map.mp listed
    have := List.sizeOf_lt_of_mem member
    obtain ⟨key, report⟩ := report
    simp only [Prod.mk.sizeOf_spec, object.sizeOf_spec] at this ⊢
    omega
  · exact inside _ (List.of_mem_zip listed).2
  · exact inside _ (List.of_mem_zip listed).2
  · cases listed

theorem nested_smaller {report : Json} (listed : part ∈ report.nested) :
    sizeOf part.2 < sizeOf report := by
  cases report with
  | object members =>
    obtain ⟨held, member, listed⟩ := List.mem_flatMap.mp listed
    have inside := part_smaller listed
    have := List.sizeOf_lt_of_mem member
    obtain ⟨key, value⟩ := held
    simp only [Prod.mk.sizeOf_spec, object.sizeOf_spec] at this ⊢ inside
    omega
  | _ => cases listed

/-- Every report in a report, with the steps to it: the report itself, and then those in its parts
from left to right. -/
def reports (report : Json) : List (List Readings.Step × Json) :=
  ([], report) :: report.nested.attach.flatMap fun part =>
    part.1.2.reports.map fun inner => (part.1.1 :: inner.1, inner.2)
termination_by sizeOf report
decreasing_by exact nested_smaller part.2

/-- The status that a report gives. -/
def status? : Json → Option String
  | .object members =>
    match Entries.find? members "status" with
    | some (.string text) => some text
    | _ => none
  | _ => none

/-- A report of something that went wrong. -/
def isProblem (report : Json) : Bool :=
  report.status? = some "failure" || report.status? = some "unbound"

/-- The reports of problems with no report of a problem nested in them. -/
def problems (report : Json) : List (List Readings.Step × Json) :=
  report.reports.filter fun inner =>
    inner.2.isProblem && inner.2.reports.tail.all fun further => !further.2.isProblem

theorem reports_eq (report : Json) :
    report.reports = ([], report) :: report.nested.flatMap fun part =>
      part.2.reports.map fun inner => (part.1 :: inner.1, inner.2) := by
  rw [reports, List.flatMap_subtype (g := fun part =>
    part.2.reports.map fun inner => (part.1 :: inner.1, inner.2)) (fun _ _ => rfl),
    List.unattach_attach]

end Json

/-- The report of a place: its steps, and the JSON form of its node. -/
def Place.report (place : Place) : List Step × Json := (place.steps, place.node.toJson)

namespace Outcome
variable {outcome : Outcome}

theorem parts_json_eq (parts : List (Step × Outcome)) :
    partsJson parts = parts.map fun part => (partKey part.1, part.2.toJson) :=
  map_of_steps rfl (fun _ _ => rfl) parts

theorem is_problem_eq (outcome : Outcome) : outcome.toJson.isProblem = !outcome.isSuccess := by
  cases outcome <;> rfl

private theorem zip_stepped {step : Nat → Step}
    (stepped : parts.map Prod.fst = (List.range parts.length).map step) :
    ((List.range (partsJson parts).length).map step).zip ((partsJson parts).map Prod.snd) =
      parts.map fun part => (part.1, part.2.toJson) := by
  have counted : (partsJson parts).length = parts.length := by simp [parts_json_eq]
  rw [counted, ← stepped, parts_json_eq, List.map_map, List.zip_map']
  rfl

private theorem keyed_stepped {keys : List String}
    (keyed : parts.map Prod.fst = keys.map Step.property) :
    ((partsJson parts).map fun report => (Step.property report.1, report.2)) =
      parts.map fun part => (part.1, part.2.toJson) := by
  rw [parts_json_eq, List.map_map]
  refine List.map_congr_left fun part listed => ?_
  have stepped : part.1 ∈ parts.map Prod.fst := List.mem_map_of_mem listed
  rw [keyed] at stepped
  obtain ⟨key, _, same⟩ := List.mem_map.mp stepped
  simp [← same, partKey]

/-- The member that holds parts, if any, holds the reports of all of them, in order. -/
theorem parts_under_eq {demand : Demand} (admits : demand.Admits parts) :
    (partsMember demand (partsJson parts)).flatMap Json.partsUnder =
      parts.map fun part => (part.1, part.2.toJson) := by
  cases demand with
  | never | primitive | enumeration =>
    rw [show parts = [] from admits]
    rfl
  | union => simpa [partsMember, Json.partsUnder] using zip_stepped admits.1
  | intersection => simpa [partsMember, Json.partsUnder] using zip_stepped admits
  | array | tuple =>
    cases parts with
    | nil => rfl
    | cons part rest => simpa [partsMember, partsJson, Json.partsUnder] using zip_stepped admits
  | record | object =>
    obtain ⟨keys, keyed⟩ := admits
    cases parts with
    | nil => rfl
    | cons part rest => simpa [partsMember, partsJson, Json.partsUnder] using keyed_stepped keyed

theorem nested_mismatch (admits : demand.Admits parts) :
    (mismatch demand parts actual).toJson.nested =
      parts.map fun part => (part.1, part.2.toJson) := by
  rw [toJson, Json.nested, List.flatMap_append, List.flatMap_append, parts_under_eq admits]
  simp [Json.partsUnder]

/-- The JSON form of a regular tree has a report for each node of it, with the same steps. -/
theorem reports_to_json (regular : outcome.Regular) :
    outcome.toJson.reports = outcome.places.map Place.report := by
  induction regular with
  | success =>
    rw [Json.reports_eq]
    rfl
  | unbound =>
    rw [Json.reports_eq]
    rfl
  | mismatch admits _ ih =>
    rw [Json.reports_eq, nested_mismatch admits, places, places_below_eq, List.map_cons,
      List.map_flatMap, List.flatMap_map]
    refine congrArg₂ _ rfl (List.flatMap_congr fun part listed => ?_)
    rw [ih part listed, List.map_map, List.map_map]
    rfl

theorem Regular.place (regular : outcome.Regular) :
    ∀ place ∈ outcome.places, place.node.Regular := by
  induction regular with
  | success =>
    intro place listed
    obtain rfl := List.mem_singleton.mp listed
    exact .success
  | unbound =>
    intro place listed
    obtain rfl := List.mem_singleton.mp listed
    exact .unbound
  | mismatch admits below ih =>
    intro place listed
    rw [places, places_below_eq] at listed
    rcases List.mem_cons.mp listed with rfl | listed
    · exact .mismatch admits below
    · obtain ⟨part, member, listed⟩ := List.mem_flatMap.mp listed
      obtain ⟨inner, inside, rfl⟩ := List.mem_map.mp listed
      exact ih part member inner inside

/-- All nodes of a tree are successes exactly if its root is one: a success has no parts. -/
theorem places_succeed (outcome : Outcome) :
    (outcome.places.all fun place => place.node.isSuccess) = outcome.isSuccess := by
  cases outcome <;> simp [places, isSuccess]

/-- A leaf problem is a node that did not succeed above nodes that all did. -/
theorem is_leaf_eq (outcome : Outcome) :
    outcome.isLeaf =
      (!outcome.isSuccess && outcome.places.tail.all fun place => place.node.isSuccess) := by
  cases outcome with
  | success | unbound => rfl
  | mismatch demand parts actual =>
    change _ = (placesBelow parts).all _
    simp only [isLeaf, places_below_eq, List.all_flatMap, List.all_map, Function.comp_def,
      Place.under, places_succeed]

/-- The reports of problems that hold no other are those of the leaf problems, in tree order. -/
theorem problems_to_json (regular : outcome.Regular) :
    outcome.toJson.problems = outcome.leaves.map Place.report := by
  rw [Json.problems, reports_to_json regular, List.filter_map, leaves]
  refine congrArg _ (List.filter_congr fun place listed => ?_)
  have below := reports_to_json (regular.place place listed)
  simp only [Function.comp_apply, Place.report, below, is_leaf_eq, is_problem_eq, ← List.map_tail,
    List.all_map, Function.comp_def, Bool.not_not]

end Outcome

/-- The drawing of a cast, its issues and its JSON form agree. The drawing has a line for each place
that it shows. The issues are the leaf problems in tree order, and so are the reports of problems
that hold no other. A success is drawn by its one line and has no issue; below any other root no
success is drawn, and the places with nothing drawn below them are the leaf problems, each with a
line that tells its issue. -/
theorem views_agree (ran : castWithin depth scope d actual = some outcome) :
    (∀ colour, outcome.render colour = String.join (outcome.drawn.map (Place.line colour))) ∧
    outcome.issues = outcome.leaves.map Place.issue ∧
    outcome.toJson.problems = outcome.leaves.map Place.report ∧
    (outcome.isSuccess = true → outcome.drawn = [⟨[], outcome⟩] ∧ outcome.leaves = []) ∧
    (outcome.isSuccess = false →
      (∀ place ∈ outcome.drawn, place.node.isSuccess = false) ∧
      outcome.drawnEnds = outcome.leaves ∧
      ∀ place ∈ outcome.drawnEnds, place.Tells) := by
  have regular := cast_regular ran
  refine ⟨Outcome.render_eq regular, Outcome.issues_eq outcome, Outcome.problems_to_json regular,
    fun fits => ?_, fun failed => ?_⟩
  · cases outcome with
    | success => exact ⟨rfl, rfl⟩
    | unbound | mismatch => cases fits
  · have problem := Outcome.drawn_problem failed
    refine ⟨problem, Outcome.drawn_ends_eq failed, fun place listed => ?_⟩
    exact Place.tells_of_problem (problem place (List.mem_of_mem_filter listed))

/-- An array whose second item fits no variant. -/
theorem failed_variants_agree :
    let shape : Descriptor := .array (.union [.primitive .number, .primitive .string])
    let input : Value := .array [.number (.ofNat 1), .bool true]
    let outcome : Outcome := .mismatch .array
      [(.item 0, .success [.number (.ofNat 1)]),
        (.item 1, .mismatch .union
          [(.variant 0, .mismatch (.primitive .number) [] (.bool true)),
            (.variant 1, .mismatch (.primitive .string) [] (.bool true))] (.bool true))] input
    castWithin 3 [] shape input = some outcome ∧
      outcome.render false = "expected array got [1, true]\n  [1]: expected union got true\n" ++
        "    <variant 0>: expected number got true\n    <variant 1>: expected string got true\n" ∧
      outcome.leaves.map Place.steps = [[.item 1, .variant 0], [.item 1, .variant 1]] ∧
      outcome.issues = outcome.leaves.map Place.issue ∧
      outcome.toJson.problems = outcome.leaves.map Place.report ∧
      outcome.drawnEnds = outcome.leaves ∧ ∀ place ∈ outcome.drawnEnds, place.Tells := by
  intro shape input outcome
  have ran : castWithin 3 [] shape input = some outcome := rfl
  obtain ⟨_, issues, problems, _, failed⟩ := views_agree ran
  obtain ⟨_, ends, told⟩ := failed rfl
  exact ⟨ran, by decide +kernel, rfl, issues, problems, ends, told⟩

/-- A success is drawn, with nothing below it, and has no issue: only below a root that did not
succeed do the ends of the drawing match the issues. -/
theorem success_is_drawn_without_issue :
    ∃ outcome, castWithin 1 [] .unknown .null = some outcome ∧
      outcome.render false = "ok (1 candidate)\n" ∧
      outcome.drawnEnds.length ≠ outcome.issues.length :=
  ⟨.success [.null], rfl, by decide, by decide⟩

end Readings
