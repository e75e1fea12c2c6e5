import Readings.Proofs.Cast.ListSemantics
import Readings.Proofs.Cast.Scoping

/-!
Widening a descriptor. A wider descriptor has more members in its unions, and unions where it had
none, at whatever depth (`Widens`). Every candidate that a value had before is still there, as often
as before and in the same order among the others. The proof follows the cast against the wider
descriptor, which goes deeper where a union was put in; what a node assembles grows with the
readings of its parts (`assemble_sublist`), and the bodies of the two scopes are as far apart as the
descriptors.
-/
namespace Readings
namespace Descriptor

/-- The second descriptor is the first with members added to its unions, at any places, and with
descriptors in it made a member of a new union, at any depth and any number of times. -/
inductive Widens : Descriptor → Descriptor → Prop where
  | node (each : List.Forall₂ Widens d.children shapes) : Widens d (d.withChildren shapes)
  | grown (each : List.SublistForall₂ Widens members others) :
      Widens (.union members) (.union others)
  | chosen (listed : shape ∈ members) (inside : Widens d shape) : Widens d (.union members)

theorem Widens.refl (d : Descriptor) : Widens d d := by
  induction d using child_induction with
  | node d ih =>
    have same : Widens d (d.withChildren d.children) := .node (List.forall₂_same.mpr ih)
    rwa [with_children_self] at same

end Descriptor

namespace Outcome

private theorem rows_of_columns (outcomes : List Outcome) :
    ((columns? outcomes).map choices).getD [] = rowsOf (outcomes.map readings) := by
  induction outcomes with
  | nil => rfl
  | cons outcome rest ih =>
    cases own : outcome.readings? with
    | none => simp [columns?, collect, own, readings, rowsOf]
    | some column =>
      have more : columns? (outcome :: rest) = (columns? rest).map (column :: ·) := by
        simp only [columns?, List.map_cons, own, collect]
      rw [more, List.map_cons, readings, own, Option.getD_some, rowsOf, ← ih]
      cases columns? rest with
      | none => simp
      | some columns => simp [choices_eq_rows, rowsOf]

theorem sequence_readings : (ofSequence demand place actual outcomes).readings =
    (rowsOf (outcomes.map readings)).map .array := by
  rw [← rows_of_columns, ofSequence]
  cases columns? outcomes <;> rfl

theorem keyed_readings : (ofKeyed demand actual keys outcomes).readings =
    (rowsOf (outcomes.map readings)).map fun row => .object (keys.zip row) := by
  rw [← rows_of_columns, ofKeyed]
  cases columns? outcomes <;> rfl

theorem variants_readings : (ofVariants actual outcomes).readings = outcomes.flatMap readings := by
  unfold ofVariants
  split
  · rfl
  · rename_i none
    symm
    refine List.flatMap_eq_nil_iff.mpr fun outcome listed => ?_
    cases outcome with
    | success => exact absurd (List.any_eq_true.mpr ⟨_, listed, rfl⟩) none
    | unbound | mismatch => rfl

theorem transformed_readings (outcome : Outcome) (morphism : Morphism) :
    (outcome.mapReadings morphism).readings = outcome.readings.map morphism := by
  cases outcome <;> rfl

/-- A node whose parts have more readings has more readings, in the same order. -/
theorem assemble_sublist
    (grown : List.Forall₂ (fun outcome other => outcome.readings.Sublist other.readings)
      outcomes others) (d : Descriptor) (actual : Value) :
    (d.assemble actual outcomes).readings.Sublist (d.assemble actual others).readings := by
  have columns : List.Forall₂ List.Sublist (outcomes.map readings) (others.map readings) :=
    List.forall₂_map_left_iff.mpr (List.forall₂_map_right_iff.mpr grown)
  cases d with
  | array =>
    cases actual with
    | array =>
      simp only [Descriptor.assemble, sequence_readings]
      exact (rows_sublist columns).map _
    | _ => exact .refl _
  | tuple items =>
    cases actual with
    | array values =>
      simp only [Descriptor.assemble]
      split
      · rw [sequence_readings, sequence_readings]
        exact (rows_sublist columns).map _
      · exact .refl _
    | _ => exact .refl _
  | record | object =>
    cases actual with
    | object =>
      simp only [Descriptor.assemble, keyed_readings]
      exact (rows_sublist columns).map _
    | _ => exact .refl _
  | union =>
    simp only [Descriptor.assemble, variants_readings]
    exact flat_map_sublist (List.sublistForall₂_iff.mpr ⟨others, grown, .refl _⟩)
  | intersection =>
    simp only [Descriptor.assemble, sequence_readings]
    exact (rows_sublist columns).map _
  | map =>
    simp only [Descriptor.assemble, transformed_readings]
    cases grown with
    | nil => exact .refl _
    | cons head => exact head.map _
  | _ => exact .refl _

end Outcome

open Descriptor

/-- The bodies of two scopes, frame by frame. -/
private abbrev Wider (scope wider : Scope) : Prop :=
  List.Forall₂ (fun frame other => frame.1 = other.1 ∧ Widens frame.2 other.2) scope wider

private theorem lookup_wider (wider : Wider scope other) (found : scope.lookup symbol = some body) :
    ∃ shape, other.lookup symbol = some shape ∧ Widens body shape := by
  induction wider with
  | nil => cases found
  | @cons frame other frames others head _ ih =>
    obtain ⟨bound, body⟩ := frame
    obtain ⟨_, shape⟩ := other
    obtain ⟨rfl, widens⟩ := head
    rcases lookup_frame found with ⟨rfl, rfl⟩ | ⟨apart, found⟩
    · exact ⟨shape, lookup_own others, widens⟩
    · rw [lookup_other others apart]
      exact ih found

private theorem grown_compose {R : α → β → Prop} {S : α → γ → Prop} {T : β → δ → Prop}
    {Q : γ → δ → Prop} (grown : List.SublistForall₂ R items others)
    (left : List.Forall₂ S items outcomes) (right : List.Forall₂ T others results)
    (combine : ∀ {item other outcome result},
      R item other → S item outcome → T other result → Q outcome result) :
    List.SublistForall₂ Q outcomes results := by
  induction grown generalizing outcomes results with
  | nil =>
    cases left
    exact .nil
  | cons head _ ih =>
    cases left with
    | cons first left =>
      cases right with
      | cons second right => exact .cons (combine head first second) (ih left right)
  | cons_right _ ih =>
    cases right with
    | cons _ right => exact .cons_right (ih left right)

/-- In scopes that differ by widening, the readings of a cast are among those of the cast against the
wider descriptor. -/
theorem cast_widens (widens : Widens d shape) (scopes : Wider scope wider)
    (ran : castWithin depth scope d actual = some outcome)
    (more : castWithin deeper wider shape actual = some other) :
    outcome.readings.Sublist other.readings := by
  induction deeper generalizing d shape scope wider depth actual outcome other with
  | zero => cases more
  | succ deeper ih =>
    cases widens with
    | @chosen shape members _ listed inside =>
      -- only the wider side takes a step
      obtain ⟨others, each, rfl⟩ := (cast_plain_iff rfl).mp more
      obtain ⟨choice, below, more⟩ := partner_of_left each (List.mem_map_of_mem listed)
      refine (ih inside scopes ran more).trans ?_
      change choice.readings.Sublist (Outcome.ofVariants actual others).readings
      rw [Outcome.variants_readings, List.flatMap_def]
      exact List.sublist_flatten_of_mem (List.mem_map_of_mem below)
    | @grown members others each =>
      cases depth with
      | zero => cases ran
      | succ depth =>
        obtain ⟨outcomes, left, rfl⟩ := (cast_plain_iff rfl).mp ran
        obtain ⟨results, right, rfl⟩ := (cast_plain_iff rfl).mp more
        change (Outcome.ofVariants actual outcomes).readings.Sublist
          (Outcome.ofVariants actual results).readings
        rw [Outcome.variants_readings, Outcome.variants_readings]
        refine flat_map_sublist (grown_compose each (List.forall₂_map_left_iff.mp left)
          (List.forall₂_map_left_iff.mp right) ?_)
        exact fun widens ran more => ih widens scopes ran more
    | @node shapes _ each =>
      cases depth with
      | zero => cases ran
      | succ depth =>
        cases kind : d.plain with
        | true =>
          have same : (d.withChildren shapes).plain = true := by
            rwa [Descriptor.plain_with_children]
          obtain ⟨outcomes, left, rfl⟩ := (cast_plain_iff kind).mp ran
          obtain ⟨results, right, rfl⟩ := (cast_plain_iff same).mp more
          rw [assemble_with_children each.length_eq.symm]
          have asked := partners_compose left.flip (parts_with_children each actual)
          refine Outcome.assemble_sublist ((partners_compose asked right).imp ?_) d actual
          rintro outcome result ⟨part, _, ⟨old, _, ran, widens, value⟩, more⟩
          rw [← value] at more
          exact ih widens scopes ran more
        | false =>
          cases d with
          | reference symbol =>
            cases each
            cases bound : scope.lookup symbol with
            | none =>
              rw [cast_unbound bound] at ran
              cases ran
              exact List.nil_sublist _
            | some body =>
              obtain ⟨shape, found, widens⟩ := lookup_wider scopes bound
              rw [cast_bound bound] at ran
              exact ih widens scopes ran ((cast_bound found).symm.trans more)
          | recursive symbol body =>
            obtain ⟨shape, rest, widens, none, rfl⟩ := List.forall₂_cons_left_iff.mp each
            cases none
            have frames : Wider ((symbol, body) :: scope) ((symbol, shape) :: wider) :=
              .cons ⟨rfl, widens⟩ scopes
            exact ih widens frames ran more
          | _ => cases kind

/-- Where a cast against a descriptor succeeds and the cast against a wider one returns, that one
succeeds too, and the candidates of the first are a subsequence of its candidates. -/
theorem widening_keeps_candidates (widens : Widens d shape)
    (ran : castWithin depth [] d actual = some (.success candidates))
    (more : castWithin deeper [] shape actual = some outcome) :
    ∃ others, outcome = .success others ∧ candidates.Sublist others := by
  have kept := cast_widens widens .nil ran more
  have some := cast_never_empty ran .self
  cases outcome with
  | success others => exact ⟨others, rfl, kept⟩
  | unbound | mismatch => exact absurd (List.sublist_nil.mp kept) some

/-- A list whose heads may be null as well and whose tails may be anything: inside the binder a member
is put before the others, and a descriptor becomes a member of a new union. -/
theorem widened_list_keeps_its_reading :
    let list : Symbol := ⟨0, "list"⟩
    let number (n : Nat) : Value := .number (.ofNat n)
    let cell (head tail : Descriptor) : Descriptor := .object [("head", head), ("tail", tail)]
    let body := cell (.primitive .number) (.union [.primitive .undefined, .reference list])
    let wider := cell (.union [.pure .null, .primitive .number])
      (.union [.primitive .undefined, .unknown, .reference list])
    let narrow : Descriptor := .recursive list body
    let wide : Descriptor := .recursive list wider
    let input : Value := .object [("head", number 1), ("tail", .object [("head", number 2)])]
    let reading : Value := .object
      [("head", number 1), ("tail", .object [("head", number 2), ("tail", .undefined)])]
    castWithin 8 [] narrow input = some (.success [reading]) ∧ narrow.Widens wide ∧
      ∃ others, castWithin 8 [] wide input = some (.success others) ∧
        [reading].Sublist others := by
  intro list number cell body wider narrow wide input reading
  have ran : castWithin 8 [] narrow input = some (.success [reading]) := rfl
  have head : (Descriptor.primitive .number).Widens (.union [.pure .null, .primitive .number]) :=
    .chosen (by simp) (.refl _)
  have tail : (Descriptor.union [.primitive .undefined, .reference list]).Widens
      (.union [.primitive .undefined, .unknown, .reference list]) :=
    .grown (.cons (.refl _) (.cons_right (.cons (.refl _) .nil)))
  have inside : body.Widens wider := .node (d := body) (.cons head (.cons tail .nil))
  have widens : narrow.Widens wide := .node (d := narrow) (.cons inside .nil)
  obtain ⟨outcome, more⟩ : ∃ outcome, castWithin 8 [] wide input = some outcome := ⟨_, rfl⟩
  obtain ⟨others, rfl, kept⟩ := widening_keeps_candidates widens ran more
  exact ⟨ran, widens, others, more, kept⟩

end Readings
