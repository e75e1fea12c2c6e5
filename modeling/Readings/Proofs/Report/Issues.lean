import Readings.Proofs.Cast.Tree
import Readings.Proofs.Report.Places

/-!
Where the issues of a cast are. The steps to a node of its outcome are steps into the input too: an
item and a property go into it, a variant and a member stay on the same value (`Value.Leads`). Each
mismatch looked at just the value that its steps lead to, and where every table has its keys once,
no two nodes have the same steps. So the issues of a cast are its leaf problems, each once, in tree
order, and each with the part of the input that is wrong.
-/
namespace Readings

/-- Where a step leads from a value: to an item, to what is under a key, or to undefined for a key
that is declared and not there. A variant and a member look at the same value. -/
inductive Step.Takes (declares : String → Prop) : Step → Value → Value → Prop where
  | item {items : List Value} (found : items[index]? = some value) :
      Takes declares (.item index) (.array items) value
  | property (listed : (key, value) ∈ entries) :
      Takes declares (.property key) (.object entries) value
  | missing (declared : declares key) (absent : key ∉ Entries.keys entries) :
      Takes declares (.property key) (.object entries) .undefined
  | variant : Takes declares (.variant index) actual actual
  | member : Takes declares (.member index) actual actual

/-- Where steps lead from a value, one after the other. -/
inductive Value.Leads (declares : String → Prop) : Value → List Step → Value → Prop where
  | here : Leads declares actual [] actual
  | step (takes : step.Takes declares actual next) (leads : Leads declares next steps found) :
      Leads declares actual (step :: steps) found

/-! ## One way for each path -/

theorem Step.Takes.keyed {step : Step} (keyed : actual.Keyed)
    (takes : step.Takes declares actual next) : next.Keyed := by
  cases takes with
  | item found => exact keyed.item (List.mem_of_getElem? found)
  | property listed => exact keyed.entry (List.mem_map_of_mem (f := Prod.snd) listed)
  | missing => exact .scalar rfl
  | variant | member => exact keyed

theorem Step.Takes.unique {step : Step} (keyed : actual.Keyed)
    (takes : step.Takes declares actual next) (also : step.Takes declares actual other) :
    next = other := by
  cases takes with
  | item found =>
    cases also with
    | item again => exact Option.some.inj (found.symm.trans again)
  | property listed =>
    cases also with
    | property again =>
      have first := Entries.find_of_mem keyed.distinct listed
      exact Option.some.inj (first.symm.trans (Entries.find_of_mem keyed.distinct again))
    | missing _ absent => exact absurd (List.mem_map_of_mem (f := Prod.fst) listed) absent
  | missing _ absent =>
    cases also with
    | property again => exact absurd (List.mem_map_of_mem (f := Prod.fst) again) absent
    | missing => rfl
  | variant =>
    cases also
    rfl
  | member =>
    cases also
    rfl

/-- Steps lead to one value at most. -/
theorem Value.Leads.unique {actual : Value} (keyed : actual.Keyed)
    (leads : actual.Leads declares steps found) (also : actual.Leads declares steps other) :
    found = other := by
  induction leads with
  | here =>
    cases also
    rfl
  | step takes _ ih =>
    cases also with
    | step again rest =>
      cases takes.unique keyed again
      exact ih (takes.keyed keyed) rest

/-! ## One level of a cast -/

namespace Descriptor

private theorem indexed_part {place : Nat → Step} {parts : List (Descriptor × Value)}
    (listed : (step, part) ∈ ((List.range count).map place).zip parts) :
    ∃ index, step = place index ∧ parts[index]? = some part := by
  obtain ⟨index, found⟩ := List.mem_iff_getElem?.mp listed
  obtain ⟨stepped, parted⟩ := List.getElem?_zip_eq_some.mp found
  refine ⟨index, ?_, parted⟩
  rw [List.getElem?_map, Option.map_eq_some_iff] at stepped
  obtain ⟨number, ranged, rfl⟩ := stepped
  obtain ⟨_, same⟩ := List.getElem?_eq_some_iff.mp ranged
  rw [← same, List.getElem_range]

/-- The step to a part leads to the value that the part is cast against. -/
theorem step_takes {d : Descriptor}
    (declared : ∀ fields, d = .object fields → ∀ key ∈ Entries.keys fields, declares key)
    (listed : (step, part) ∈ (d.steps actual).zip (d.parts actual)) :
    step.Takes declares actual part.2 := by
  cases d with
  | array item =>
    cases actual with
    | array values =>
      obtain ⟨index, rfl, found⟩ := indexed_part listed
      rw [parts, List.getElem?_map, Option.map_eq_some_iff] at found
      obtain ⟨value, found, rfl⟩ := found
      exact .item found
    | _ => cases listed
  | tuple items =>
    cases actual with
    | array values =>
      obtain ⟨index, rfl, found⟩ := indexed_part listed
      simp only [parts] at found
      split at found
      · exact .item (List.getElem?_zip_eq_some.mp found).2
      · cases found
    | _ => cases listed
  | record item =>
    cases actual with
    | object entries =>
      simp only [steps, parts, Entries.keys, Entries.values, List.map_map, List.zip_map',
        List.mem_map] at listed
      obtain ⟨entry, member, same⟩ := listed
      cases same
      exact .property member
    | _ => cases listed
  | object fields =>
    cases actual with
    | object entries =>
      simp only [steps, parts, Entries.keys, List.map_map, List.zip_map', List.mem_map] at listed
      obtain ⟨field, member, same⟩ := listed
      cases same
      cases found : Entries.find? entries field.1 with
      | none =>
        exact .missing (declared fields rfl _ (List.mem_map_of_mem member))
          (Entries.find_eq_none_iff.mp found)
      | some value => exact .property (Entries.mem_of_find found)
    | _ => cases listed
  | union members =>
    obtain ⟨index, rfl, found⟩ := indexed_part listed
    obtain ⟨member, _, rfl⟩ := List.mem_map.mp (List.mem_of_getElem? found)
    exact .variant
  | intersection members =>
    obtain ⟨index, rfl, found⟩ := indexed_part listed
    obtain ⟨member, _, rfl⟩ := List.mem_map.mp (List.mem_of_getElem? found)
    exact .member
  | _ => cases listed

private theorem indexed_nodup {place : Nat → Step} (apart : Function.Injective place) :
    ((List.range count).map place).Nodup :=
  List.nodup_range.map apart

private theorem properties_nodup {keys : List String} (distinct : keys.Nodup) :
    (keys.map Step.property).Nodup :=
  distinct.map fun _ _ => Step.property.inj

/-- The steps to the parts of a node differ, where each key is there once. -/
theorem steps_nodup {d : Descriptor} (once : d.DeclaresOnce) (keyed : actual.Keyed) :
    (d.steps actual).Nodup := by
  cases d with
  | array | tuple => exact indexed_nodup fun _ _ => Step.item.inj
  | union => exact indexed_nodup fun _ _ => Step.variant.inj
  | intersection => exact indexed_nodup fun _ _ => Step.member.inj
  | record =>
    cases actual with
    | object => exact properties_nodup keyed.distinct
    | _ => exact .nil
  | object =>
    cases actual with
    | object => exact properties_nodup once
    | _ => exact .nil
  | _ => exact .nil

end Descriptor

namespace Outcome

/-- Every mismatch of a tree looked at the value that its steps lead to. -/
def Follows (declares : String → Prop) (actual : Value) (tree : Outcome) : Prop :=
  ∀ place ∈ tree.places, ∀ seen, place.node.seen? = some seen →
    actual.Leads declares place.steps seen

theorem follows_of_parts
    (below : ∀ step part, (step, part) ∈ parts →
      ∃ next, step.Takes declares actual next ∧ part.Follows declares next) :
    (mismatch demand parts actual).Follows declares actual := by
  intro place listed seen looked
  rw [places, places_below_eq] at listed
  rcases List.mem_cons.mp listed with rfl | listed
  · cases looked
    exact .here
  · obtain ⟨⟨step, part⟩, member, listed⟩ := List.mem_flatMap.mp listed
    obtain ⟨inside, held, rfl⟩ := List.mem_map.mp listed
    obtain ⟨next, takes, follows⟩ := below step part member
    exact .step takes (follows inside held seen looked)

private theorem steps_apart {steps : List Step} (distinct : steps.Nodup)
    (outcomes : List Outcome) :
    (steps.zip outcomes).Pairwise fun one other => one.1 ≠ other.1 := by
  induction steps generalizing outcomes with
  | nil => exact .nil
  | cons step steps ih =>
    obtain ⟨fresh, distinct⟩ := List.nodup_cons.mp distinct
    cases outcomes with
    | nil => exact .nil
    | cons _ rest =>
      refine .cons ?_ (ih distinct rest)
      rintro part listed rfl
      exact fresh (List.of_mem_zip listed).1

/-- Below different steps there are different places. -/
theorem places_once {steps : List Step} (distinct : steps.Nodup)
    (each : ∀ part ∈ outcomes, (part.places.map Place.steps).Nodup) :
    ((mismatch demand (steps.zip outcomes) actual).places.map Place.steps).Nodup := by
  have below : ((placesBelow (steps.zip outcomes)).map Place.steps) =
      (steps.zip outcomes).flatMap fun part =>
        (part.2.places.map Place.steps).map (part.1 :: ·) := by
    simp only [places_below_eq, List.map_flatMap, List.map_map]
    rfl
  rw [places, List.map_cons, below, List.nodup_cons]
  refine ⟨?_, List.nodup_flatMap.mpr ⟨?_, ?_⟩⟩
  · simp
  · rintro ⟨step, part⟩ listed
    exact (each part (List.of_mem_zip listed).2).map List.cons_injective
  · -- places below two parts differ in their first step
    refine (steps_apart distinct outcomes).imp fun apart => ?_
    rintro path first second
    obtain ⟨_, _, rfl⟩ := List.mem_map.mp first
    obtain ⟨_, _, same⟩ := List.mem_map.mp second
    exact apart (List.cons.inj same).1.symm

end Outcome

open Outcome

private theorem cast_follows {d : Descriptor}
    (ran : castWithin depth [] d actual = some outcome) :
    outcome.Follows d.DeclaresKey actual := by
  have each : d.EachNode fun node => ∀ fields, node = .object fields →
      ∀ key ∈ Entries.keys fields, d.DeclaresKey key := by
    rintro node inside fields rfl key listed
    exact ⟨_, ⟨fields, inside, rfl⟩, listed⟩
  refine tree_induction (motive := fun actual tree => tree.Follows d.DeclaresKey actual)
    ?success ?unbound ?mismatch each ran (fun _ _ found => nomatch found)
  case success =>
    intro actual readings place listed seen looked
    obtain rfl := List.mem_singleton.mp listed
    cases looked
  case unbound =>
    intro actual symbol place listed seen looked
    obtain rfl := List.mem_singleton.mp listed
    cases looked
  case mismatch =>
    intro node actual outcomes demand declared trees
    refine follows_of_parts fun step tree listed => ?_
    obtain ⟨part, stepped, _, follows⟩ := zip_partner trees listed
    exact ⟨part.2, Descriptor.step_takes declared stepped, follows⟩

/-- The nodes of a cast have different steps, where each key is there once. -/
theorem cast_places_once {d : Descriptor} (distinct : d.Keyed) (keyed : actual.Keyed)
    (ran : castWithin depth [] d actual = some outcome) :
    (outcome.places.map Place.steps).Nodup := by
  refine tree_induction
    (motive := fun actual tree => actual.Keyed → (tree.places.map Place.steps).Nodup)
    ?success ?unbound ?mismatch distinct ran (fun _ _ found => nomatch found) keyed
  case success => exact fun _ => List.nodup_singleton []
  case unbound => exact fun _ => List.nodup_singleton []
  case mismatch =>
    intro node actual outcomes demand once trees keyed
    refine places_once (Descriptor.steps_nodup once keyed) fun tree listed => ?_
    obtain ⟨part, _, below, nodup⟩ := partner_of_right trees listed
    exact nodup (Descriptor.keyed_part keyed below)

/-- A cast has no issue exactly if it succeeds, and otherwise its issues are its leaf problems in
tree order. With each key there once, no two of them have the same steps. Each reports the value
that its steps lead to in the input, the only one where no object has a key twice, unless it is a
reference without a binding. -/
theorem issues_locate_the_leaves {d : Descriptor}
    (ran : castWithin depth [] d actual = some outcome) :
    (outcome.issues = [] ↔ ∃ readings, outcome = .success readings) ∧
      outcome.issues = outcome.leaves.map Place.issue ∧
      (d.Keyed → actual.Keyed → (outcome.leaves.map Place.steps).Nodup) ∧
      ∀ place ∈ outcome.leaves,
        (∃ symbol, place.node = .unbound symbol ∧ place.issue.actual = none) ∨
          ∃ seen, place.issue.actual = some seen ∧
            actual.Leads d.DeclaresKey place.steps seen ∧
            (actual.Keyed → ∀ other, actual.Leads d.DeclaresKey place.steps other →
              other = seen) := by
  refine ⟨?_, issues_eq outcome, fun distinct keyed => ?_, ?_⟩
  · rw [issues, issues_at_eq_nil_iff]
    cases outcome <;> simp [isSuccess]
  · exact (List.filter_sublist.map Place.steps).nodup (cast_places_once distinct keyed ran)
  · intro place listed
    obtain ⟨inside, leaf⟩ := List.mem_filter.mp listed
    obtain ⟨steps, node⟩ := place
    cases node with
    | success => cases leaf
    | unbound symbol => exact .inl ⟨symbol, rfl, rfl⟩
    | mismatch demand parts seen =>
      have leads := cast_follows ran ⟨steps, _⟩ inside seen rfl
      exact .inr ⟨seen, rfl, leads, fun keyed other also => also.unique keyed leads⟩

/-- A list whose tail is an empty object: neither variant of the tail fits, and the second lacks its
head. -/
theorem missing_head_is_located :
    let list : Symbol := ⟨0, "list"⟩
    let shape : Descriptor := .recursive list (.object
      [("head", .primitive .number),
        ("tail", .union [.primitive .undefined, .reference list])])
    let input : Value := .object [("head", .number (.ofNat 1)), ("tail", .object [])]
    let node : Outcome := .mismatch (.primitive .number) [] .undefined
    let tail : Outcome := .mismatch .union
      [(.variant 0, .mismatch (.primitive .undefined) [] (.object [])),
        (.variant 1, .mismatch .object [(.property "head", node),
          (.property "tail", .success [.undefined])] (.object []))] (.object [])
    let outcome : Outcome := .mismatch .object
      [(.property "head", .success [.number (.ofNat 1)]), (.property "tail", tail)] input
    let path : List Step := [.property "tail", .variant 1, .property "head"]
    castWithin 8 [] shape input = some outcome ∧
      outcome.issues = [⟨"$.tail <variant 0>", "undefined", some (.object [])⟩,
        ⟨"$.tail <variant 1>.head", "number", some .undefined⟩] ∧
      (outcome.leaves.map Place.steps).Nodup ∧
      ∀ seen, input.Leads shape.DeclaresKey path seen ↔ seen = .undefined := by
  intro list shape input node tail outcome path
  have ran : castWithin 8 [] shape input = some outcome := rfl
  obtain ⟨_, issues, once, located⟩ := issues_locate_the_leaves ran
  have distinct : shape.Keyed := by decide
  have keyed : input.Keyed := by
    refine .object (by decide) fun value listed => ?_
    rcases List.mem_cons.mp listed with rfl | listed
    · exact .scalar rfl
    · obtain rfl := List.mem_singleton.mp listed
      exact .object (by decide) fun _ none => nomatch none
  refine ⟨ran, issues, once distinct keyed, fun seen => ?_⟩
  rcases located ⟨path, node⟩ (.tail _ (.head _)) with ⟨_, unbound, _⟩ | ⟨found, same, leads, only⟩
  · cases unbound
  · cases same
    exact ⟨only keyed seen, fun same => same ▸ leads⟩

end Readings
