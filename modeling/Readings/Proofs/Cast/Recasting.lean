import Readings.Proofs.Cast.Derivation
import Readings.Proofs.Entries

/-!
Casting again. A candidate differs from the input: extra keys are gone, missing ones are there as
undefined, constants stand where the input had something else. It is nevertheless one of its own
readings. The second cast can take the way of the first at every choice, since a node without maps
and intersections reads each part of what it has built just as it came out.
-/
namespace Readings
namespace Descriptor

private theorem tuple_again {reads : Descriptor → Value → Value → Prop} {items : List Value}
    {shapes : List Descriptor} (same : items.length = shapes.length)
    (each : List.Forall₂ (fun part reading => reads part.1 reading reading)
      (shapes.zip items) row) :
    row.length = shapes.length ∧
      List.Forall₂ (fun part reading => reads part.1 part.2 reading) (shapes.zip row) row := by
  induction shapes generalizing items row with
  | nil =>
    cases each
    exact ⟨rfl, .nil⟩
  | cons shape shapes ih =>
    cases items with
    | nil => cases same
    | cons item items =>
      cases each with
      | cons head tail =>
        obtain ⟨length, tail⟩ := ih (Nat.succ.inj same) tail
        exact ⟨congrArg Nat.succ length, .cons head tail⟩

private theorem fields_paired {R : String × Descriptor → Value → Prop} {fields : Entries Descriptor}
    (each : List.Forall₂ R fields row) :
    List.Forall₂ (fun field reading =>
      (field.1, reading) ∈ (Entries.keys fields).zip row ∧ R field reading) fields row := by
  induction each with
  | nil => exact .nil
  | cons head _ ih =>
    refine .cons ⟨List.mem_cons_self, head⟩ (ih.imp ?_)
    rintro field reading ⟨listed, related⟩
    exact ⟨List.mem_cons_of_mem _ listed, related⟩

private theorem fields_again {reads : Descriptor → Value → Value → Prop}
    {fields : Entries Descriptor} (distinct : Entries.Distinct fields)
    (each : List.Forall₂ (fun field reading => reads field.2 reading reading) fields row) :
    List.Forall₂ (fun field reading => reads field.2
      ((Entries.find? ((Entries.keys fields).zip row) field.1).getD .undefined) reading)
      fields row := by
  have length : (Entries.keys fields).length = row.length := by
    simpa [Entries.keys] using each.length_eq
  have once : Entries.Distinct ((Entries.keys fields).zip row) := by
    rwa [Entries.Distinct, Entries.keys_zip length]
  refine (fields_paired each).imp ?_
  rintro field reading ⟨listed, reads⟩
  rw [Entries.find_of_mem once listed]
  exact reads

/-- One level: a reading of parts that are their own readings is a reading of itself. -/
theorem Builds.again {reads : Descriptor → Value → Value → Prop} {d : Descriptor}
    (straight : d.transforms = false)
    (distinct : d.DeclaresOnce)
    (built : Builds (fun part _ reading => reads part reading reading) d actual reading) :
    Builds reads d reading reading := by
  cases built with
  | unknown => exact .unknown
  | primitive admitted => exact .primitive admitted
  | enumeration scalar listed => exact .enumeration scalar listed
  | pure => exact .pure
  | array each =>
    refine .array (List.forall₂_same.mpr fun value chosen => ?_)
    obtain ⟨_, _, reads⟩ := partner_of_right each chosen
    exact reads
  | tuple same each =>
    obtain ⟨length, each⟩ := tuple_again same each
    exact .tuple length each
  | @record item entries row each =>
    have length : (Entries.keys entries).length = row.length := by
      simpa [Entries.keys, Entries.values] using each.length_eq
    have own : Builds reads (.record item) (.object ((Entries.keys entries).zip row))
        (.object ((Entries.keys ((Entries.keys entries).zip row)).zip row)) := by
      refine .record ?_
      rw [Entries.values_zip length]
      refine List.forall₂_same.mpr fun value chosen => ?_
      obtain ⟨_, _, reads⟩ := partner_of_right each chosen
      exact reads
    rwa [Entries.keys_zip length] at own
  | object each => exact .object (fields_again distinct each)
  | union listed reads => exact .union listed reads
  | intersection | map => cases straight

end Descriptor

open Descriptor

/-- A reading is a reading of itself, where nothing transforms. -/
theorem reading_again {d : Descriptor}
    (straight : d.EachNode fun node => node.transforms = false) (keyed : d.Keyed)
    (listed : reading ∈ d.readingsTo depth [] actual) :
    reading ∈ d.readingsTo depth [] reading := by
  have each : d.EachNode fun node => node.transforms = false ∧ node.DeclaresOnce :=
    fun node inside => ⟨straight node inside, keyed node inside⟩
  refine reading_induction
    (motive := fun depth scope d _ reading => reading ∈ d.readingsTo depth scope reading)
    ?built ?jumped ?entered each listed (fun _ _ found => nomatch found)
  case built =>
    rintro depth scope d actual reading ⟨straight, distinct⟩ built
    exact reading_of_built (built.again straight distinct)
  case jumped =>
    intro depth scope symbol body actual reading bound again
    rwa [readings_bound bound]
  case entered =>
    intro depth scope symbol body actual reading again
    exact again

/-- Every candidate of a cast against a descriptor without maps and intersections is, unchanged,
among the candidates of casting it again, whenever that cast returns. -/
theorem candidates_recast_to_themselves
    (straight : d.EachNode fun node => node.transforms = false) (keyed : d.Keyed)
    (ran : castWithin depth [] d actual = some (.success candidates))
    (listed : candidate ∈ candidates)
    (again : castWithin deeper [] d candidate = some outcome) :
    ∃ others, outcome = .success others ∧ candidate ∈ others := by
  -- both casts at one depth, so that the second can follow the first
  have ran := cast_mono ran (Nat.le_max_left depth deeper)
  have again := cast_mono again (Nat.le_max_right depth deeper)
  obtain ⟨rfl, _⟩ := Outcome.offers_candidates (cast_offers ran)
  have own := reading_again straight keyed listed
  exact ⟨_, Outcome.offers_of_mem (cast_offers again) own, own⟩

/-- A list whose heads may be read as null: the candidate that the first cast made up is one of its
own readings, and the other reading of that head is gone. -/
theorem constant_head_recasts :
    let list : Symbol := ⟨0, "list"⟩
    let number (n : Nat) : Value := .number (.ofNat n)
    let shape : Descriptor := .recursive list (.object
      [("head", .union [.primitive .number, .pure .null]),
        ("tail", .union [.primitive .undefined, .reference list])])
    let made : Value := .object [("head", .null), ("tail", .undefined)]
    castWithin 5 [] shape (.object [("extra", .bool true), ("head", number 1)]) =
        some (.success [.object [("head", number 1), ("tail", .undefined)], made]) ∧
      ∃ others, castWithin 5 [] shape made = some (.success others) ∧ made ∈ others := by
  intro list number shape made
  have ran : castWithin 5 [] shape (.object [("extra", .bool true), ("head", number 1)]) =
      some (.success [.object [("head", number 1), ("tail", .undefined)], made]) := rfl
  have again : castWithin 5 [] shape made = some (.success [made]) := rfl
  have straight : shape.EachNode fun node => node.transforms = false := by decide
  have keyed : shape.Keyed := by decide
  have listed : made ∈ [Value.object [("head", number 1), ("tail", .undefined)], made] := by simp
  obtain ⟨others, success, own⟩ := candidates_recast_to_themselves straight keyed ran listed again
  exact ⟨ran, others, again.trans (congrArg some success), own⟩

end Readings
