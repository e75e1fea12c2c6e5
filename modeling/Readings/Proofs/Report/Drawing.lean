import Readings.Proofs.Report.Regular
import Readings.Report.Render

/-!
What a drawing shows. It is a line for the root, and below each mismatch the drawings of the parts
that did not succeed (`drawn`). A drawing shows every variant of a union, whatever came of it; on
the trees of casts that makes no difference (`render_eq`). The places where a drawing goes no deeper
are the leaf problems, in the order of the issues.
-/
namespace Readings
namespace Outcome

mutual
/-- The places that a drawing shows: the root, and what is shown of every part of it that did not
succeed. -/
def drawn : Outcome → List Place
  | .success readings => [⟨[], .success readings⟩]
  | .unbound symbol => [⟨[], .unbound symbol⟩]
  | .mismatch demand parts actual => ⟨[], .mismatch demand parts actual⟩ :: drawnBelow parts

def drawnBelow : List (Step × Outcome) → List Place
  | [] => []
  | (step, outcome) :: rest =>
    (if outcome.isSuccess then [] else outcome.drawn.map (.under step)) ++ drawnBelow rest
end

/-- Nothing is drawn below the node. -/
def drawnAlone (outcome : Outcome) : Bool := outcome.drawn.tail.isEmpty

/-- The drawn places with nothing drawn below them. -/
def drawnEnds (outcome : Outcome) : List Place := outcome.drawn.filter (·.node.drawnAlone)

end Outcome

/-- The label of a drawn place: its last step, or the label of the root. -/
def Place.labelFrom (label : String) (place : Place) : String :=
  (place.steps.getLast?.map Step.label).getD label

/-- The line of a place, where the root is drawn at a depth and under a label. -/
def Place.lineFrom (colour : Bool) (depth : Nat) (label : String) (place : Place) : String :=
  Outcome.line (depth + place.steps.length) (place.labelFrom label) (place.node.headline colour)

/-- The line of a place in a drawing. -/
def Place.line (colour : Bool) (place : Place) : String := place.lineFrom colour 0 ""

theorem Place.line_under (colour : Bool) (depth : Nat) (label : String) (step : Step)
    (place : Place) :
    (place.under step).lineFrom colour depth label =
      place.lineFrom colour (depth + 1) step.label := by
  have last : (place.under step).labelFrom label = place.labelFrom step.label := by
    obtain ⟨steps, node⟩ := place
    cases steps with
    | nil => rfl
    | cons first rest =>
      simp [labelFrom, under, List.getLast?_cons]
  have deeper : depth + (place.under step).steps.length = depth + 1 + place.steps.length := by
    simp only [under, List.length_cons]
    omega
  rw [lineFrom, last, deeper]
  rfl

namespace Outcome
variable {outcome : Outcome}

/-- A line has two blanks for each level. -/
theorem line_eq (depth : Nat) (label text : String) :
    line depth label text =
      String.join (List.replicate depth "  ") ++ label ++ text ++ "\n" := by
  have indented : String.ofList (List.replicate (2 * depth) ' ') =
      String.join (List.replicate depth "  ") := by
    induction depth with
    | zero => rfl
    | succ depth ih =>
      rw [List.replicate_succ, String.join_cons, ← ih, Nat.mul_succ, Nat.add_comm,
        ← List.replicate_append_replicate, String.ofList_append]
      rfl
  rw [line, indented]

theorem drawn_below_eq (parts : List (Step × Outcome)) :
    drawnBelow parts = parts.flatMap fun part =>
      if part.2.isSuccess then [] else part.2.drawn.map (.under part.1) :=
  flat_map_of_steps rfl (fun _ _ => rfl) parts

/-- A drawing leaves out just the parts that succeeded. -/
theorem is_drawn_of_admits {demand : Demand} (admits : demand.Admits parts)
    (listed : part ∈ parts) : part.1.isDrawn part.2 = !part.2.isSuccess := by
  obtain ⟨step, outcome⟩ := part
  cases step with
  | variant index =>
    have stepped : .variant index ∈ parts.map Prod.fst := List.mem_map_of_mem listed
    cases demand with
    | union => exact congrArg (!·) (admits.2 _ listed).symm
    | never | primitive | enumeration =>
      rw [show parts = [] from admits] at listed
      cases listed
    | array | tuple | intersection =>
      rw [show parts.map Prod.fst = _ from admits] at stepped
      simp at stepped
    | record | object =>
      obtain ⟨keys, same⟩ := admits
      rw [same] at stepped
      simp at stepped
  | item | property | member => rfl

theorem draw_parts_eq (colour : Bool) (depth : Nat) (parts : List (Step × Outcome)) :
    drawParts colour depth parts = String.join (parts.map fun part =>
      if part.1.isDrawn part.2 then part.2.draw colour depth part.1.label else "") := by
  induction parts with
  | nil => rfl
  | cons part rest ih => rw [drawParts, ih, List.map_cons, String.join_cons]

private theorem join_flat_map (items : List α) (f : α → List String) :
    String.join (items.flatMap f) = String.join (items.map fun item => String.join (f item)) := by
  induction items with
  | nil => rfl
  | cons item rest ih =>
    rw [List.flatMap_cons, List.map_cons, String.join_append, String.join_cons, ih]

/-- A drawing has a line for each place that it shows, in tree order. -/
theorem draw_eq (regular : outcome.Regular) (colour : Bool) (depth : Nat) (label : String) :
    outcome.draw colour depth label =
      String.join (outcome.drawn.map (Place.lineFrom colour depth label)) := by
  induction regular generalizing depth label with
  | success => simp [draw, drawn, Place.lineFrom, Place.labelFrom, String.join]
  | unbound => simp [draw, drawn, Place.lineFrom, Place.labelFrom, String.join]
  | mismatch admits _ ih =>
    rw [draw, drawn, List.map_cons, String.join_cons, draw_parts_eq, drawn_below_eq,
      List.map_flatMap, join_flat_map]
    refine congrArg₂ _ rfl (congrArg _ (List.map_congr_left fun part listed => ?_))
    rw [is_drawn_of_admits admits listed]
    cases part.2.isSuccess with
    | true => rfl
    | false =>
      have below := ih part listed (depth + 1) part.1.label
      simpa [List.map_map, Function.comp_def, Place.line_under] using below

/-- The tree of a regular outcome, line by line. -/
theorem render_eq (regular : outcome.Regular) (colour : Bool) :
    outcome.render colour = String.join (outcome.drawn.map (Place.line colour)) :=
  draw_eq regular colour 0 ""

/-- No success is drawn below a root that did not succeed. -/
theorem drawn_problem (failed : outcome.isSuccess = false) :
    ∀ place ∈ outcome.drawn, place.node.isSuccess = false := by
  induction outcome using part_induction with
  | success => cases failed
  | unbound symbol =>
    intro place listed
    obtain rfl := List.mem_singleton.mp listed
    rfl
  | mismatch demand parts actual ih =>
    intro place listed
    rw [drawn, drawn_below_eq] at listed
    rcases List.mem_cons.mp listed with rfl | listed
    · rfl
    · obtain ⟨part, member, listed⟩ := List.mem_flatMap.mp listed
      split at listed
      · cases listed
      · rename_i problem
        obtain ⟨inner, inside, rfl⟩ := List.mem_map.mp listed
        exact ih part member (Bool.eq_false_iff.mpr problem) inner inside

theorem drawn_ne_nil (outcome : Outcome) : outcome.drawn ≠ [] := by
  cases outcome <;> simp [drawn]

/-- Nothing is drawn below a mismatch whose parts all succeeded. -/
theorem mismatch_drawn_alone (demand : Demand) (parts : List (Step × Outcome)) (actual : Value) :
    (mismatch demand parts actual).drawnAlone = (mismatch demand parts actual).isLeaf := by
  rw [Bool.eq_iff_iff, drawnAlone, drawn, List.tail_cons, List.isEmpty_iff, drawn_below_eq,
    List.flatMap_eq_nil_iff, isLeaf, List.all_eq_true]
  refine forall_congr' fun part => imp_congr_right fun _ => ?_
  cases fits : part.2.isSuccess <;> simp [drawn_ne_nil]

/-- Where something went wrong, a drawing ends at the leaf problems. -/
theorem drawn_ends_eq (failed : outcome.isSuccess = false) :
    outcome.drawnEnds = outcome.leaves := by
  induction outcome using part_induction with
  | success => cases failed
  | unbound => rfl
  | mismatch demand parts actual ih =>
    have below : (drawnBelow parts).filter (·.node.drawnAlone) =
        (placesBelow parts).filter (·.node.isLeaf) := by
      rw [drawn_below_eq, leaves_below_eq, List.filter_flatMap]
      refine List.flatMap_congr fun part listed => ?_
      cases fits : part.2.isSuccess with
      | true =>
        -- a part that succeeded is not drawn, and has no leaf problem
        obtain ⟨step, outcome⟩ := part
        cases outcome with
        | success => rfl
        | unbound | mismatch => cases fits
      | false =>
        have same := ih part listed fits
        rw [if_neg Bool.false_ne_true, List.filter_map, ← same]
        rfl
    rw [drawnEnds, leaves, drawn, places, List.filter_cons, List.filter_cons, below,
      mismatch_drawn_alone]

end Outcome

/-- The uncoloured line of a place tells its issue: what was expected and what was there, or which
symbol has no binding, behind two blanks for each step of the path. -/
structure Place.Tells (place : Place) : Prop where
  path : place.issue.path = "$" ++ String.join (place.steps.map Step.text)
  line :
    (∃ symbol : Symbol,
      place.issue.expected = "binding for `" ++ symbol.description ++ "`" ∧
      place.issue.actual = none ∧
      place.line false = String.join (List.replicate place.steps.length "  ") ++
        place.labelFrom "" ++ "unbound `" ++ symbol.description ++ "`\n") ∨
    ∃ actual : Value, place.issue.actual = some actual ∧
      place.line false = String.join (List.replicate place.steps.length "  ") ++
        place.labelFrom "" ++ "expected " ++ place.issue.expected ++ " got " ++ actual.text ++ "\n"

theorem Place.tells_of_problem {place : Place} (failed : place.node.isSuccess = false) :
    place.Tells := by
  obtain ⟨steps, node⟩ := place
  refine ⟨rfl, ?_⟩
  cases node with
  | success => cases failed
  | unbound symbol =>
    refine .inl ⟨symbol, rfl, rfl, ?_⟩
    simp [line, lineFrom, Outcome.line_eq, Outcome.headline, Style.paint, String.append_assoc]
  | mismatch demand parts actual =>
    refine .inr ⟨actual, rfl, ?_⟩
    have joined : " " ++ ("got " ++ actual.text) = " got " ++ actual.text := by
      rw [← String.append_assoc]
      rfl
    simp [line, lineFrom, Outcome.line_eq, Outcome.headline, Style.paint, issue, issueFrom,
      Outcome.wanted, String.append_assoc, joined]

end Readings
